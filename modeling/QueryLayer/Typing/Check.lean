import QueryLayer.Query.Aggregation
import QueryLayer.Query.Filter
import QueryLayer.Typing.ValueType

/-! # Checking queries and records

A query is checked against the collection it targets before any data is touched: paths have to lead
through to-one relations to columns, operators have to suit their column and be declared by it, and
values have to be of a type that both accept.
-/
namespace QueryLayer

/-- A collection as checks see it: its name, its schema, and the schemas that its relations lead to. -/
structure Scope where
  name : String
  schema : CollectionSchema
  catalog : Catalog

def Column.typeNames (types : List ValueType) : List String := types.map ValueType.name

namespace Column

/-- Texts in a value, or in its items, have to be listed in the enumeration of an enum column. -/
def checkEnum (c : Column) (v : Value) : Except Error Unit :=
  if c.columnType ≠ .enum then .ok ()
  else
    let allowed := c.enumValues.getD []
    let given := match v with
      | .text s => [s]
      | .array items => items.filterMap Value.text?
      | _ => []
    if given.all fun s => allowed.contains s then .ok ()
    else .error (.query (.enumValueNotAllowed given allowed))

/-- Whether a value may be written into the column. Null always may. -/
def checkValue (c : Column) (v : Value) : Except Error Unit :=
  if v.isNull || c.columnType = .json then .ok ()
  else
    let type := ValueType.ofValue v c.columnType
    let allowed := (c.columnType.valueTypes?.getD []).filter fun t => !t.isArray
    if allowed.contains type then c.checkEnum v
    else .error (.query (.valueNotAllowedForColumn v type.name c.columnType (typeNames allowed)))

end Column

namespace Scope

/-- The column that a chain of hops leads to. -/
def columnAt (catalog : Catalog) (name : String) (schema : CollectionSchema) :
    List String → Except Error Column
  | [] => .error (.query (.fieldNotFound "" name))
  | [field] =>
    match schema.fields.get? field with
    | some (.column c) => .ok c
    | some other => .error (.query (.unexpectedFieldType name field other.typeName "Column"))
    | none => .error (.query (.fieldNotFound field name))
  | field :: rest =>
    match schema.fields.get? field with
    | some (.relation r) =>
      if r.kind.isToOne then
        match catalog r.foreignCollection with
        | some foreign => columnAt catalog r.foreignCollection foreign rest
        | none => .error (.setup (.collectionNotFound r.foreignCollection))
      else
        .error (.query (.unexpectedFieldType name field r.kind.name "ManyToOne or OneToOne"))
    | some other =>
      .error (.query (.unexpectedFieldType name field other.typeName "ManyToOne or OneToOne"))
    | none => .error (.query (.fieldNotFound field name))

/-- The column that a path leads to. -/
def column (s : Scope) (path : String) : Except Error Column :=
  columnAt s.catalog s.name s.schema (Path.hops path)

def checkLeaf (s : Scope) (l : Leaf) : Except Error Unit := do
  let c ← s.column l.field
  let operators := c.columnType.operators
  if !operators.contains l.operator then
    throw (.query (.operatorNotAllowedForColumn l.operator c.columnType (operators.map Operator.name)))
  if !c.filterOperators.contains l.operator then
    throw (.query (.unsupportedOperator l.field l.operator))
  let type := ValueType.ofValue l.value c.columnType
  if !l.operator.valueTypes.contains type then
    throw (.query (.valueNotAllowedForOperator l.value type.name l.operator
      (Column.typeNames l.operator.valueTypes)))
  -- the length operators compare a text column with a number
  if type ≠ .null ∧ l.operator ≠ .longerThan ∧ l.operator ≠ .shorterThan then
    match c.columnType.valueTypes? with
    | some allowed =>
      if !allowed.contains type then
        throw (.query (.valueNotAllowedForColumn l.value type.name c.columnType
          (Column.typeNames allowed)))
    | none => pure ()
  c.checkEnum l.value

mutual

def checkCondition (s : Scope) : Condition → Except Error Unit
  | .leaf l => s.checkLeaf l
  | .not c => s.checkCondition c
  | .branch _ cs =>
    if cs.length < 2 then .error (.query (.tooFewConditions cs.length)) else s.checkConditions cs

def checkConditions (s : Scope) : List Condition → Except Error Unit
  | [] => .ok ()
  | c :: cs => do
    s.checkCondition c
    s.checkConditions cs

end

def checkFilter (s : Scope) (f : Filter) : Except Error Unit :=
  match f.condition with
  | some c => s.checkCondition c
  | none => .ok ()

def checkFields (s : Scope) (fields : List String) : Except Error Unit :=
  fields.forM fun f => do
    let _ ← s.column f

/-- Conditions and sort clauses. -/
def checkPaginated (s : Scope) (f : PaginatedFilter) : Except Error Unit := do
  s.checkFilter f.toFilter
  s.checkFields f.sort.fields

def checkProjection (s : Scope) (p : Projection) : Except Error Unit := s.checkFields p.fields

/-- The aggregated field and the groups; sums and averages need a number column. -/
def checkAggregation (s : Scope) (a : Aggregation) : Except Error Unit := do
  match a.field with
  | some field =>
    let c ← s.column field
    if (a.function = .sum ∨ a.function = .avg) ∧ c.columnType ≠ .number then
      throw (.query (.invalidAggregation
        s!"{a.function.name} requires a Number field, '{field}' is {c.columnType.name}"))
  | none =>
    if a.function ≠ .count then
      throw (.query (.invalidAggregation s!"{a.function.name} requires a field"))
  s.checkFields (a.groups.map AggregationGroup.field)

/-- Every member of a written record has to be a column that accepts its value. -/
def checkRecord (s : Scope) (record : Record) : Except Error Unit :=
  record.forM fun e =>
    match s.schema.column? e.1 with
    | some c => c.checkValue e.2
    | none => .error (.query (.fieldNotFound e.1 s.name))

/-- Adds the primary keys of a collection, and of those that the paths go through. -/
def withPrimaryKeysIn (catalog : Catalog) (name : String) (schema : CollectionSchema)
    (p : Projection) : Except Error Projection := do
  let own := p.union (Projection.primaryKeysOf schema)
  p.relations.entries.attach.foldlM (fun (out : Projection) e => do
    have := Projection.depth_lt_of_mem_relations e.2
    match schema.fields.get? e.1.1 with
    | some (.relation r) =>
      match catalog r.foreignCollection with
      | some foreign =>
        let sub ← withPrimaryKeysIn catalog r.foreignCollection foreign e.1.2
        pure (out.union (sub.nest e.1.1))
      | none => throw (.setup (.collectionNotFound r.foreignCollection))
    | some (.column _) => pure out
    | none => throw (.query (.fieldNotFound e.1.1 name))) own
termination_by p.depth

def withPrimaryKeys (s : Scope) (p : Projection) : Except Error Projection :=
  withPrimaryKeysIn s.catalog s.name s.schema p

end Scope

end QueryLayer
