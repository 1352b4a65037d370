import QueryLayer.Cache.Sync

/-! # Archives

An origin that stores records by the value of their `id` and replays every write in its feed. It gives
an id of its own to each record that it is asked to create, and takes records, patches and ids as they
come.
-/
namespace QueryLayer

structure Archive where
  stored : Dict (List Record)
  /-- What was not reported yet. -/
  changes : List RecordChange
  deletions : List RecordDeletion
  version : Nat
  /-- The greatest id that was given. -/
  lastId : Int

namespace Archive

def empty : Archive := ⟨∅, [], [], 0, 0⟩

def rows (a : Archive) (collection : String) : List Record := (a.stored.get? collection).getD []

/-- Whether a record has the value for its id; none is an id as well. -/
def hasId (id : Option Value) (record : Record) : Bool :=
  match record.get? "id", id with
  | some v, some w => v.alike w
  | none, none => true
  | _, _ => false

/-- Stores a record in the place of those with its id, at the end. -/
def pushChange (a : Archive) (collection : String) (record : Record) : Archive :=
  let others := (a.rows collection).filter fun r => !hasId (record.get? "id") r
  { a with
    stored := a.stored.insert collection (others ++ [record])
    changes := a.changes ++ [⟨collection, record⟩] }

def pushDeletion (a : Archive) (collection : String) (id : CompositeId) : Archive :=
  { a with
    stored := a.stored.modify collection fun rows => rows.filter fun r => !hasId id.head? r
    deletions := a.deletions ++ [⟨collection, id⟩] }

/-- The greatest integer id, or zero. -/
def greatestId (a : Archive) (collection : String) : Int :=
  ((a.rows collection).filterMap fun r =>
    ((r.get? "id").bind Value.number?).bind Number.toInt64?).max?.getD 0

def listChanges (_ : Option String) : Action Archive ChangeSet :=
  .updating fun a =>
    let version := a.version + 1
    (.ok ⟨s!"c{version}", a.changes, a.deletions⟩, { a with changes := [], deletions := [], version })

def create (collection : String) (record : Record) : Action Archive Record :=
  .updating fun a =>
    let lastId := Memory.wrap64 (max a.lastId (a.greatestId collection) + 1)
    let stored := record.insert "id" (.int lastId)
    (.ok stored, pushChange { a with lastId } collection stored)

/-- Changes the first record with the id, if there is one. -/
def update (collection : String) (id : CompositeId) (patch : Record) : Action Archive Unit :=
  .updating fun a =>
    match (a.rows collection).find? (hasId id.head?) with
    | some record => (.ok (), a.pushChange collection (Memory.patched patch record))
    | none => (.ok (), a)

def delete (collection : String) (id : CompositeId) : Action Archive Unit :=
  .updating fun a => (.ok (), a.pushDeletion collection id)

def origin : Origin Archive where
  listChanges := listChanges
  create := create
  update := update
  delete := delete

/-- A cache of an archive. -/
def cache (db : Database) : Cache Archive := ⟨db, origin, .default⟩

end Archive

end QueryLayer
