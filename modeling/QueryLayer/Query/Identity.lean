import QueryLayer.Query.Condition
import QueryLayer.Schema.Basic

/-! # Identity of records

The id of a record is the list of its primary key values, and `matchIds` is the condition that
selects exactly the records with given ids.
-/
namespace QueryLayer

/-- The values of the primary key columns, in the order of their names. -/
abbrev CompositeId := List Value

/-- Ids are equal when their values are the same one by one. -/
def sameId (a b : CompositeId) : Bool := Value.sameItems a b

/-- The id of a record; every primary key has to be there and not null. -/
def Record.id (record : Record) (schema : CollectionSchema) : Except Error CompositeId :=
  schema.primaryKeys.mapM fun pk =>
    match record.get? pk with
    | some v => if v.isNull then .error (.query (.missingPrimaryKey pk)) else .ok v
    | none => .error (.query (.missingPrimaryKey pk))

namespace Condition

/-- The conjunction of equalities for one id. -/
def matchId? (keys : List String) (id : CompositeId) : Option Condition :=
  intersect? ((keys.zip id).map fun e => some (leaf ⟨e.1, .equal, e.2⟩))

/-- The condition that selects the records with the given ids: an equality or a list for a single
primary key, alternatives of conjunctions for a composite one. -/
def matchIds (schema : CollectionSchema) (ids : List CompositeId) : Except Error Condition :=
  let keys := schema.primaryKeys
  match keys with
  | [] => .error (.setup (.invalidCondition "Collection must have at least one primary key"))
  | first :: others =>
    let lacksEqual := keys.find? fun pk =>
      !(schema.column? pk).any fun c => c.filterOperators.contains .equal
    let misfit := ids.find? fun id => id.length ≠ keys.length
    match lacksEqual, misfit with
    | some pk, _ =>
      .error (.setup (.invalidCondition s!"Field '{pk}' must support the operators: ['equal']"))
    | none, some id => .error (.query (.invalidCompositeId id keys))
    | none, none =>
      if others.isEmpty then
        match ids with
        | [[v]] => .ok (leaf ⟨first, .equal, v⟩)
        | ids => .ok (leaf ⟨first, .oneOf, .array (ids.filterMap List.head?)⟩)
      else
        .ok ((union? (ids.filterMap (matchId? keys))).getD (leaf ⟨first, .oneOf, .array []⟩))

/-- The condition that selects the given records, by primary key. -/
def matchRecords (schema : CollectionSchema) (records : List Record) : Except Error Condition := do
  let ids ← records.mapM fun r => r.id schema
  matchIds schema ids

end Condition

end QueryLayer
