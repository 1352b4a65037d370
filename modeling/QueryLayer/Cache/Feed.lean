import QueryLayer.Action.Together
import QueryLayer.Cache.Origin

/-! # Feeds

An origin that holds no records: it hands out what was put into its feed, gives ids to the records
it is asked to create, logs every call, and fails once when it was told to. A slow one lets others go
on before it answers what changed.
-/
namespace QueryLayer

structure Feed where
  changes : List RecordChange
  deletions : List RecordDeletion
  /-- The cursor of the next change set; without one the version names it. -/
  cursor : Option String
  version : Nat
  nextId : Int
  /-- Whether creations and deletions show up in the feed. -/
  echo : Bool
  log : List Value
  listFailure : Option String
  writeFailure : Option String

namespace Feed

def start (nextId : Int) (echo : Bool) : Feed := ⟨[], [], none, 0, nextId, echo, [], none, none⟩

def push (f : Feed) (changes : List RecordChange) (deletions : List RecordDeletion)
    (cursor : Option String) : Feed :=
  { f with changes := f.changes ++ changes, deletions := f.deletions ++ deletions, cursor }

def record (f : Feed) (call : List Value) : Feed := { f with log := f.log ++ [.array call] }

def listChanges (cursor : Option String) : Action Feed ChangeSet :=
  .updating fun f =>
    let f := f.record [.text "list_changes", (cursor.map Value.text).getD .null]
    match f.listFailure with
    | some message => (.error (.other message), { f with listFailure := none })
    | none =>
      let version := f.version + 1
      let next := f.cursor.getD s!"c{version}"
      (.ok ⟨next, f.changes, f.deletions⟩,
        { f with changes := [], deletions := [], cursor := none, version })

/-- Logs a write, which fails if it was told to. -/
def writing (call : List Value) : Action Feed Unit :=
  .updating fun f =>
    let f := f.record call
    match f.writeFailure with
    | some message => (.error (.other message), { f with writeFailure := none })
    | none => (.ok (), f)

def create (collection : String) (record : Record) : Action Feed Record := do
  writing [.text "create", .text collection, .object record]
  .updating fun f =>
    let (stored, nextId) :=
      if ((record.get? "id").getD .null).isNull then (record.insert "id" (.int f.nextId), f.nextId + 1)
      else (record, f.nextId)
    let changes := if f.echo then f.changes ++ [⟨collection, stored⟩] else f.changes
    (.ok stored, { f with changes, nextId })

def update (collection : String) (id : CompositeId) (patch : Record) : Action Feed Unit :=
  writing [.text "update", .text collection, .array id, .object patch]

def delete (collection : String) (id : CompositeId) : Action Feed Unit := do
  writing [.text "delete", .text collection, .array id]
  .updating fun f =>
    (.ok (), if f.echo then { f with deletions := f.deletions ++ [⟨collection, id⟩] } else f)

def origin (slow : Bool) : Origin Feed where
  listChanges cursor := do
    if slow then .pause
    listChanges cursor
  create := create
  update := update
  delete := delete

end Feed

end QueryLayer
