import QueryLayer.Query.Identity
import QueryLayer.Text.Lowercase
import QueryLayer.Typing.Check

/-! # Stored records

Records by collection, in the order they were stored, and the operations on them as functions of a
store. Queries attach the foreign records of to-one relations first; writes check the records
against the schema and keep ids distinct.
-/
namespace QueryLayer

/-- The fixed part of a memory source: schemas by collection name, and charts with their values. -/
structure Database where
  schemas : Dict CollectionSchema
  charts : Dict Value

abbrev Database.catalog (db : Database) : Catalog := db.schemas.get?

def Database.scope (db : Database) (name : String) (schema : CollectionSchema) : Scope :=
  ⟨name, schema, db.catalog⟩

/-- The records of every collection. -/
abbrev Store := Dict (List Record)

namespace Store

def rows (store : Store) (name : String) : List Record := (store.get? name).getD []

def setRows (store : Store) (name : String) (records : List Record) : Store :=
  store.insert name records

@[simp] theorem rows_setRows_self (store : Store) (name : String) (records : List Record) :
    (store.setRows name records).rows name = records := by
  simp [rows, setRows]

theorem rows_setRows_of_ne (store : Store) {name other : String} (h : name ≠ other)
    (records : List Record) : (store.setRows name records).rows other = store.rows other := by
  simp [rows, setRows, Dict.get?_insert_of_ne _ h]

end Store

/-- A store with every collection empty. -/
def Database.emptyStore (db : Database) : Store := db.schemas.map fun _ => []

/-- The first foreign record whose key is the same as the local one; null matches nothing. -/
def Record.foreign? (record : Record) (localKey foreignKey : String) (foreign : List Record) :
    Option Record :=
  let key := (record.get? localKey).getD .null
  if key.isNull then none
  else foreign.find? fun f => (f.get? foreignKey).any fun v => v.same key

/-- Attaches to records the foreign records that paths of the projection go through. -/
def Database.hydrate (db : Database) (store : Store) (schema : CollectionSchema)
    (records : List Record) (p : Projection) : Except Error (List Record) :=
  p.relations.entries.attach.foldlM (fun (out : List Record) e =>
    have := Projection.depth_lt_of_mem_relations e.2
    match (schema.relation? e.1.1).bind fun r => r.joinKeys?.map fun keys => (r, keys) with
    | none => pure out
    | some (r, localKey, foreignKey) =>
      match db.schemas.get? r.foreignCollection with
      | none => .error (.setup (.collectionNotFound r.foreignCollection))
      | some foreignSchema => do
        let foreign ← db.hydrate store foreignSchema (store.rows r.foreignCollection) e.1.2
        pure (out.map fun record =>
          record.insert e.1.1 (match record.foreign? localKey foreignKey foreign with
            | some f => .object f
            | none => .null))) records
termination_by p.depth

/-- Whether some text or enum column holds the needle, which is in lower case. -/
def Record.found (record : Record) (schema : CollectionSchema) (needle : String) : Bool :=
  schema.columns.any fun e =>
    (e.2.columnType = .string || e.2.columnType = .enum) &&
      match record.get? e.1 with
      | some (.text s) => Text.contains (Text.lower s) needle
      | _ => false

namespace Memory

/-- Records with relations attached that a filter selects. A declared segment selects everything,
and a search counts only where the collection is searchable. -/
def select (db : Database) (store : Store) (name : String) (schema : CollectionSchema)
    (filter : Filter) (extra : Projection) : Except Error (List Record) := do
  match filter.segment with
  | some segment =>
    if !schema.segments.contains segment then throw (.query (.unknownSegment segment name))
  | none => pure ()
  let needed := match filter.condition with
    | some c => extra.union c.projection
    | none => extra
  let records ← db.hydrate store schema (store.rows name) needed
  let found := match filter.search with
    | some search =>
      if schema.searchable then records.filter fun r => r.found schema (Text.lower search) else records
    | none => records
  pure (match filter.condition with
    | some c => c.select found
    | none => found)

def list (db : Database) (store : Store) (name : String) (schema : CollectionSchema)
    (filter : PaginatedFilter) (projection : Projection) : Except Error (List Record) := do
  let scope := db.scope name schema
  scope.checkPaginated filter
  scope.checkProjection projection
  let records ← select db store name schema filter.toFilter (projection.union filter.sort.projection)
  let sorted := filter.sort.apply records
  let window := match filter.page with
    | some page => page.apply sorted
    | none => sorted
  pure (window.map projection.apply)

def aggregate (db : Database) (store : Store) (name : String) (schema : CollectionSchema)
    (filter : Filter) (aggregation : Aggregation) (limit : Option Nat) :
    Except Error (List AggregateRow) := do
  let scope := db.scope name schema
  scope.checkFilter filter
  scope.checkAggregation aggregation
  let records ← select db store name schema filter aggregation.projection
  pure (aggregation.apply records limit)

/-- Fills in the default values of columns that the record leaves out. -/
def withDefaults (schema : CollectionSchema) (record : Record) : Record :=
  schema.columns.foldl (fun (out : Record) e =>
    match out.get? e.1, e.2.defaultValue with
    | none, some v => out.insert e.1 v
    | _, _ => out) record

/-- Records with their defaults, each one checked. -/
def prepare (scope : Scope) (records : List Record) : Except Error (List Record) :=
  records.mapM fun record => do
    let full := withDefaults scope.schema record
    scope.checkRecord full
    pure full

/-- The ids of the records that have one. -/
def idsOf (schema : CollectionSchema) (records : List Record) : List CompositeId :=
  records.filterMap fun r => (r.id schema).toOption

def hasId (ids : List CompositeId) (id : CompositeId) : Bool := ids.any fun i => sameId i id

/-- The single primary key, if it is a number that the store can assign. -/
def assignedKey? (schema : CollectionSchema) : Option String :=
  match schema.primaryKeys with
  | [pk] => if (schema.column? pk).any fun c => c.columnType = .number then some pk else none
  | _ => none

/-- Integers wrap around at 64 signed bits. -/
def wrap64 (i : Int) : Int := i.bmod (Nat.pow 2 64)

/-- One more than the greatest integer id, or one. -/
def nextId (ids : List CompositeId) : Int :=
  let integers := ids.filterMap fun id => (id.head?.bind Value.number?).bind Number.toInt64?
  wrap64 (match integers with
    | [] => 1
    | i :: rest => rest.foldl max i + 1)

/-- Gives a record its id, from `next` on where it has none, and checks that the id is new. -/
def assign (schema : CollectionSchema) (key? : Option String) :
    List Record → List CompositeId → Int → Except Error (List Record)
  | [], _, _ => .ok []
  | record :: rest, ids, next => do
    let (record, next) := match key? with
      | some pk =>
        if ((record.get? pk).getD .null).isNull then (record.insert pk (.int next), wrap64 (next + 1))
        else (record, next)
      | none => (record, next)
    let id ← record.id schema
    if hasId ids id then throw (.query (.duplicatePrimaryKey id))
    let rest ← assign schema key? rest (ids ++ [id]) next
    pure (record :: rest)

/-- The created records as they are stored. -/
def creation (scope : Scope) (stored records : List Record) : Except Error (List Record) := do
  let prepared ← prepare scope records
  let ids := idsOf scope.schema stored
  assign scope.schema (assignedKey? scope.schema) prepared ids (nextId ids)

/-- The ids of the records that a filter selects. -/
def matchingIds (db : Database) (store : Store) (name : String) (schema : CollectionSchema)
    (filter : Filter) : Except Error (List CompositeId) := do
  let records ← select db store name schema filter .empty
  records.mapM fun r => r.id schema

/-- Whether a stored record has one of the ids. -/
def isTarget (schema : CollectionSchema) (ids : List CompositeId) (record : Record) : Bool :=
  match record.id schema with
  | .ok id => hasId ids id
  | .error _ => false

def patched (patch record : Record) : Record :=
  patch.foldl (fun (out : Record) e => out.insert e.1 e.2) record

/-- The records after an update. -/
def updated (db : Database) (store : Store) (name : String) (schema : CollectionSchema)
    (filter : Filter) (patch : Record) : Except Error (List Record) := do
  let scope := db.scope name schema
  scope.checkFilter filter
  scope.checkRecord patch
  match patch.find? fun e => (schema.column? e.1).any Column.isReadOnly with
  | some e => throw (.query (.readOnlyField e.1 name))
  | none => pure ()
  let ids ← matchingIds db store name schema filter
  pure ((store.rows name).map fun r => if isTarget schema ids r then patched patch r else r)

/-- The records after a deletion. -/
def remaining (db : Database) (store : Store) (name : String) (schema : CollectionSchema)
    (filter : Filter) : Except Error (List Record) := do
  (db.scope name schema).checkFilter filter
  let ids ← matchingIds db store name schema filter
  pure ((store.rows name).filter fun r => !isTarget schema ids r)

/-- Puts a record in the place of the first one with its id, or at the end. -/
def upsert (schema : CollectionSchema) (record : Record) (id : CompositeId) : List Record → List Record
  | [] => [record]
  | r :: rest =>
    if isTarget schema [id] r then record :: rest else r :: upsert schema record id rest

/-- The records after whole records were put in. Read-only columns are written too. -/
def replaced (scope : Scope) (stored records : List Record) : Except Error (List Record) := do
  let prepared ← prepare scope records
  let ids ← prepared.mapM fun r => r.id scope.schema
  pure ((prepared.zip ids).foldl (fun out e => upsert scope.schema e.1 e.2 out) stored)

end Memory

end QueryLayer
