import QueryLayer.Naming.Names
import QueryLayer.Source.Basic

/-! # Renamed fields

A source whose fields have public names. Every name that crosses the boundary is exchanged: those of
queries and written records on the way in, those of schemas, records and groups on the way out. In a
path each hop is exchanged by the names of the collection it starts from.
-/
namespace QueryLayer

/-- Names of fields, by collection, over a source. -/
structure FieldNaming (σ : Type) where
  child : Source σ
  tables : Dict Names

namespace FieldNaming

variable {σ : Type}

/-- Every field under its own name. -/
def ofSource (child : Source σ) : FieldNaming σ := ⟨child, ∅⟩

def names (n : FieldNaming σ) (collection : String) : Names :=
  (n.tables.get? collection).getD .empty

def publicField (n : FieldNaming σ) (collection field : String) : String :=
  (n.names collection).publicName field

def ownField (n : FieldNaming σ) (collection field : String) : Except Error String :=
  match (n.names collection).ownName? field with
  | some own => .ok own
  | none => .error (.query (.fieldNotFound field collection))

/-- The own names of the hops of a path from a collection on. -/
def ownHops (n : FieldNaming σ) (c : Collection σ) : List String → Except Error (List String)
  | [] => .ok []
  | [field] => do pure [← n.ownField c.name field]
  | field :: rest => do
    let first ← n.ownField c.name field
    match c.schema.relation? first with
    | some r => do
      let foreign ← n.child.collection r.foreignCollection
      pure (first :: (← n.ownHops foreign rest))
    | none => pure (first :: rest)

def ownPath (n : FieldNaming σ) (c : Collection σ) (path : String) : Except Error String :=
  (n.ownHops c (Path.hops path)).map Path.join

/-- The public names of the hops of a path from a collection on. -/
def publicHops (n : FieldNaming σ) (c : Collection σ) : List String → Except Error (List String)
  | [] => .ok []
  | [field] => .ok [n.publicField c.name field]
  | field :: rest =>
    match c.schema.relation? field with
    | some r => do
      let foreign ← n.child.collection r.foreignCollection
      pure (n.publicField c.name field :: (← n.publicHops foreign rest))
    | none => .ok (n.publicField c.name field :: rest)

def publicPath (n : FieldNaming σ) (c : Collection σ) (path : String) : Except Error String :=
  (n.publicHops c (Path.hops path)).map Path.join

def ownCondition (n : FieldNaming σ) (c : Collection σ) (condition : Condition) :
    Except Error Condition :=
  condition.replaceLeavesM fun l => do pure (.leaf { l with field := ← n.ownPath c l.field })

def ownFilter (n : FieldNaming σ) (c : Collection σ) (filter : Filter) : Except Error Filter := do
  match filter.condition with
  | some condition => pure { filter with condition := some (← n.ownCondition c condition) }
  | none => pure filter

def ownSorting (n : FieldNaming σ) (c : Collection σ) (sort : Sorting) : Except Error Sorting := do
  let clauses ← sort.clauses.mapM fun clause => do
    pure { clause with field := ← n.ownPath c clause.field }
  pure ⟨clauses⟩

def ownPaginated (n : FieldNaming σ) (c : Collection σ) (filter : PaginatedFilter) :
    Except Error PaginatedFilter := do
  let sort ← n.ownSorting c filter.sort
  let own ← n.ownFilter c filter.toFilter
  pure { own with sort, page := filter.page }

def ownProjection (n : FieldNaming σ) (c : Collection σ) (p : Projection) :
    Except Error Projection := do
  pure (.ofList (← p.fields.mapM (n.ownPath c)))

def ownAggregation (n : FieldNaming σ) (c : Collection σ) (a : Aggregation) :
    Except Error Aggregation := do
  let field ← a.field.mapM (n.ownPath c)
  let groups ← a.groups.mapM fun g => do pure { g with field := ← n.ownPath c g.field }
  pure { a with field, groups }

/-- A written record under own names. -/
def ownRecord (n : FieldNaming σ) (c : Collection σ) (record : Record) : Except Error Record := do
  let entries ← record.mapM fun e => do pure (← n.ownField c.name e.1, e.2)
  pure (Entries.ofList entries)

mutual

/-- A value under public names; what is nested under a relation is a record of its collection. -/
def publicValue (n : FieldNaming σ) (relation : Option Relation) : Value → Except Error Value
  | .object nested =>
    match relation with
    | some r => do
      let foreign ← n.child.collection r.foreignCollection
      pure (.object (Entries.ofList (← n.publicMembers foreign nested)))
    | none => .ok (.object nested)
  | v => .ok v

def publicMembers (n : FieldNaming σ) (c : Collection σ) :
    List (String × Value) → Except Error (List (String × Value))
  | [] => .ok []
  | (field, v) :: rest => do
    let v ← n.publicValue (c.schema.relation? field) v
    let rest ← n.publicMembers c rest
    pure ((n.publicField c.name field, v) :: rest)

end

/-- A read record under public names. -/
def publicRecord (n : FieldNaming σ) (c : Collection σ) (record : Record) : Except Error Record :=
  (n.publicMembers c record).map Entries.ofList

def publicRow (n : FieldNaming σ) (c : Collection σ) (row : AggregateRow) :
    Except Error AggregateRow := do
  let group ← row.group.mapM fun e => do pure (← n.publicPath c e.1, e.2)
  pure { row with group := Entries.ofList group }

/-- Each key of a relation follows the column it names, in the collection where that column is. -/
def publicRelation (n : FieldNaming σ) (collection : String) (r : Relation) : Relation :=
  let here := Option.map (n.publicField collection)
  let there := Option.map (n.publicField r.foreignCollection)
  let through (key : Option String) :=
    match r.throughCollection with
    | some between => key.map (n.publicField between)
    | none => key
  match r.kind with
  | .manyToOne =>
    { r with foreignKey := here r.foreignKey, foreignKeyTarget := there r.foreignKeyTarget }
  | .oneToOne | .oneToMany =>
    { r with originKeyTarget := here r.originKeyTarget, originKey := there r.originKey }
  | .manyToMany =>
    { r with
      originKeyTarget := here r.originKeyTarget
      foreignKeyTarget := there r.foreignKeyTarget
      originKey := through r.originKey
      foreignKey := through r.foreignKey }

def publicSchema (n : FieldNaming σ) (c : Collection σ) : CollectionSchema :=
  { c.schema with
    fields := .ofList (c.schema.fields.entries.map fun e =>
      (n.publicField c.name e.1, match e.2 with
        | .column column => .column column
        | .relation r => .relation (n.publicRelation c.name r))) }

def catalog (n : FieldNaming σ) : Catalog := fun name =>
  (n.child.collection? name).map n.publicSchema

/-- A collection under its public field names. -/
def collection (n : FieldNaming σ) (c : Collection σ) : Collection σ where
  name := c.name
  schema := n.publicSchema c
  catalog := n.catalog
  list caller filter projection := do
    let filter ← n.ownPaginated c filter
    let projection ← n.ownProjection c projection
    let records ← c.list caller filter projection
    records.mapM (m := Except Error) (n.publicRecord c)
  create caller records := do
    let records ← records.mapM (m := Except Error) (n.ownRecord c)
    let created ← c.create caller records
    created.mapM (m := Except Error) (n.publicRecord c)
  update caller filter patch := do
    let filter ← n.ownFilter c filter
    let patch ← n.ownRecord c patch
    c.update caller filter patch
  delete caller filter := do
    let filter ← n.ownFilter c filter
    c.delete caller filter
  aggregate caller filter aggregation limit := do
    let filter ← n.ownFilter c filter
    let aggregation ← n.ownAggregation c aggregation
    let rows ← c.aggregate caller filter aggregation limit
    rows.mapM (m := Except Error) (n.publicRow c)
  execute caller action values filter := do
    let filter ← n.ownFilter c filter
    c.execute caller action values filter
  getForm caller action values filter := do
    let filter ← filter.mapM (m := Except Error) (n.ownFilter c)
    c.getForm caller action values filter

def source (n : FieldNaming σ) : Source σ where
  collections := n.child.members.values.map n.collection
  charts := n.child.charts
  renderChart := n.child.renderChart

/-- Makes the field known as `current` known as `new`. -/
def rename (n : FieldNaming σ) (collection current new : String) :
    Except Error (FieldNaming σ) := do
  let c ← n.child.collection collection
  if current = new then pure n
  else
    let fields := (n.publicSchema c).fields
    if !fields.contains current then throw (.query (.fieldNotFound current collection))
    if fields.contains new then
      throw (.setup (.invalidRename current new "a field with this name already exists"))
    pure { n with tables := n.tables.insert collection ((n.names collection).rename current new) }

end FieldNaming

end QueryLayer
