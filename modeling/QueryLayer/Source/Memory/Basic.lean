import QueryLayer.Source.Basic
import QueryLayer.Source.Memory.Store
import QueryLayer.Wire.Schema

/-! # Memory sources

A source over a store of records, and its construction from a definition with schemas, records and
charts.
-/
namespace QueryLayer.Memory

/-- Replaces the rows of a collection by what a write makes of them; a failing write changes nothing. -/
def writing {α : Type} (name : String) (write : Store → Except Error (α × List Record)) :
    Action Store α :=
  .updating fun store =>
    match write store with
    | .ok (a, records) => (.ok a, store.setRows name records)
    | .error e => (.error e, store)

def create (db : Database) (name : String) (schema : CollectionSchema) (records : List Record) :
    Action Store (List Record) :=
  writing name fun store => do
    let stored := store.rows name
    let created ← creation (db.scope name schema) stored records
    pure (created, stored ++ created)

def update (db : Database) (name : String) (schema : CollectionSchema) (filter : Filter)
    (patch : Record) : Action Store Unit :=
  writing name fun store => do pure ((), ← updated db store name schema filter patch)

def delete (db : Database) (name : String) (schema : CollectionSchema) (filter : Filter) :
    Action Store Unit :=
  writing name fun store => do pure ((), ← remaining db store name schema filter)

/-- Stores whole records, replacing those with the same ids in place. -/
def replaceRecords (db : Database) (name : String) (records : List Record) : Action Store Unit := do
  match db.schemas.get? name with
  | some schema =>
    writing name fun store => do pure ((), ← replaced (db.scope name schema) (store.rows name) records)
  | none => throw (.setup (.collectionNotFound name))

/-- Collections have no actions of their own. -/
def noAction {σ : Type} (name action : String) : Action σ Value :=
  throw (.setup (.unknownAction name action))

def collection (db : Database) (name : String) (schema : CollectionSchema) : Collection Store where
  toScope := db.scope name schema
  list _ filter projection := .reading fun store => list db store name schema filter projection
  create _ records := create db name schema records
  update _ filter patch := update db name schema filter patch
  delete _ filter := delete db name schema filter
  aggregate _ filter aggregation limit :=
    .reading fun store => aggregate db store name schema filter aggregation limit
  execute _ action _ _ := noAction name action
  getForm _ _ _ _ := pure []

def source (db : Database) : Source Store where
  collections := db.schemas.entries.map fun e => collection db e.1 e.2
  charts := db.charts.map fun _ => ()
  renderChart _ name :=
    match db.charts.get? name with
    | some chart => pure chart
    | none => throw (.setup (.unknownChart name))

/-- Columns that declare no operators get all that their type admits. -/
def withAllOperators (schema : CollectionSchema) : CollectionSchema :=
  { schema with
    fields := schema.fields.map fun
      | .column c =>
        if c.filterOperators.isEmpty then .column { c with filterOperators := .ofList c.columnType.operators }
        else .column c
      | .relation r => .relation r }

/-- What a definition says: collections with their records, and charts. -/
structure Definition where
  collections : Dict (CollectionSchema × List Record)
  charts : Dict Value

def Definition.decode : Wire.Decoder Definition := Wire.fields do
  let collections ← Wire.optional "collections" (Wire.dict (Wire.namedOnly do
    let schema ← CollectionSchema.members .lenient
    let records ← Wire.optional "records" (Wire.list Wire.record) []
    pure (schema, records))) ∅
  let charts ← Wire.optional "charts" (Wire.dict Wire.raw) ∅
  pure ⟨collections, charts⟩

def Definition.database (d : Definition) : Database :=
  ⟨d.collections.map fun c => withAllOperators c.1, d.charts⟩

/-- The database of a definition and its store, filled collection by collection in name order. -/
def ofDefinition (definition : Value) : Except Error (Database × Store) := do
  let d ← (Definition.decode definition).mapError Error.malformed
  let db := d.database
  let store ← d.collections.entries.foldlM (fun (store : Store) e => do
    let (name, schema, records) := e
    if records.isEmpty then pure store
    else
      let (result, store) := (create db name (withAllOperators schema) records).runOn store
      let _ ← result
      pure store) db.emptyStore
  pure (db, store)

end QueryLayer.Memory
