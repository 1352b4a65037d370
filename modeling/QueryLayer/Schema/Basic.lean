import QueryLayer.Data.Dict
import QueryLayer.Query.Operator
import QueryLayer.Value.Basic

/-! # Schemas

What a collection looks like from outside: columns with the operators they can be filtered by,
relations to other collections, actions and segments.
-/
namespace QueryLayer

inductive ColumnType where
  | boolean
  | date
  | dateOnly
  | enum
  | json
  | number
  | point
  | string
  | timeOnly
  | uuid
deriving DecidableEq

namespace ColumnType

def all : List ColumnType :=
  [boolean, date, dateOnly, enum, json, number, point, string, timeOnly, uuid]

def name : ColumnType → String
  | boolean => "Boolean"
  | date => "Date"
  | dateOnly => "Dateonly"
  | enum => "Enum"
  | json => "Json"
  | number => "Number"
  | point => "Point"
  | string => "String"
  | timeOnly => "Timeonly"
  | uuid => "Uuid"

def ofName? (s : String) : Option ColumnType := all.find? fun t => t.name = s

@[simp] theorem ofName?_name (t : ColumnType) : ofName? t.name = some t := by cases t <;> decide

end ColumnType

/-- A rule that the values of a column are declared to satisfy. -/
structure ValidationRule where
  operator : Operator
  value : Option Value
deriving DecidableEq

structure Column where
  columnType : ColumnType
  filterOperators : OperatorSet
  isPrimaryKey : Bool
  isReadOnly : Bool
  isSortable : Bool
  validation : List ValidationRule
  defaultValue : Option Value
  enumValues : Option (List String)
deriving DecidableEq

namespace Column

/-- A plain column: no operators, no flags but sortable. -/
def ofType (columnType : ColumnType) : Column :=
  ⟨columnType, .empty, false, false, true, [], none, none⟩

def withOperators (c : Column) (operators : List Operator) : Column :=
  { c with filterOperators := c.filterOperators.union operators }

def primaryKey (c : Column) : Column := { c with isPrimaryKey := true }

def readOnly (c : Column) : Column := { c with isReadOnly := true }

def withDefault (c : Column) (v : Value) : Column := { c with defaultValue := some v }

def withEnumValues (c : Column) (values : List String) : Column :=
  { c with enumValues := some values }

end Column

inductive RelationKind where
  | oneToOne
  | manyToOne
  | oneToMany
  | manyToMany
deriving DecidableEq

namespace RelationKind

def name : RelationKind → String
  | oneToOne => "OneToOne"
  | manyToOne => "ManyToOne"
  | oneToMany => "OneToMany"
  | manyToMany => "ManyToMany"

/-- A record points at one foreign record at most, so that paths can go through the relation. -/
def isToOne : RelationKind → Bool
  | manyToOne | oneToOne => true
  | _ => false

end RelationKind

/-- How the records of a collection point at those of another. A many-to-one relation has its
`foreignKey` here and its `foreignKeyTarget` there; the others have their `originKeyTarget` here. The
`originKey` is on the foreign collection, or, with a `foreignKey` beside it, on the collection that a
many-to-many relation goes through. -/
structure Relation where
  kind : RelationKind
  foreignCollection : String
  foreignKey : Option String
  foreignKeyTarget : Option String
  originKey : Option String
  originKeyTarget : Option String
  throughCollection : Option String
deriving DecidableEq

namespace Relation

def manyToOne (foreignCollection foreignKey foreignKeyTarget : String) : Relation :=
  ⟨.manyToOne, foreignCollection, some foreignKey, some foreignKeyTarget, none, none, none⟩

def oneToOne (foreignCollection originKey originKeyTarget : String) : Relation :=
  ⟨.oneToOne, foreignCollection, none, none, some originKey, some originKeyTarget, none⟩

def oneToMany (foreignCollection originKey originKeyTarget : String) : Relation :=
  { oneToOne foreignCollection originKey originKeyTarget with kind := .oneToMany }

/-- For a to-one relation with both keys set, the key here and the key there. -/
def joinKeys? (r : Relation) : Option (String × String) :=
  match r.kind with
  | .manyToOne => do pure (← r.foreignKey, ← r.foreignKeyTarget)
  | .oneToOne => do pure (← r.originKeyTarget, ← r.originKey)
  | _ => none

end Relation

inductive Field where
  | column (c : Column)
  | relation (r : Relation)
deriving DecidableEq

namespace Field

def column? : Field → Option Column
  | column c => some c
  | relation _ => none

def relation? : Field → Option Relation
  | column _ => none
  | relation r => some r

def typeName : Field → String
  | column _ => "Column"
  | relation r => r.kind.name

end Field

inductive ActionScope where
  | single
  | bulk
  | global
deriving DecidableEq

def ActionScope.name : ActionScope → String
  | single => "Single"
  | bulk => "Bulk"
  | global => "Global"

structure ActionSchema where
  scope : ActionScope
  generateFile : Bool
  staticForm : Bool
deriving DecidableEq

structure CollectionSchema where
  actions : Dict ActionSchema
  fields : Dict Field
  searchable : Bool
  segments : List String
deriving DecidableEq

namespace CollectionSchema

def empty : CollectionSchema := ⟨∅, ∅, false, []⟩

instance : Inhabited CollectionSchema := ⟨empty⟩

def withField (s : CollectionSchema) (name : String) (field : Field) : CollectionSchema :=
  { s with fields := s.fields.insert name field }

def withAction (s : CollectionSchema) (name : String) (action : ActionSchema) :
    CollectionSchema :=
  { s with actions := s.actions.insert name action }

def column? (s : CollectionSchema) (name : String) : Option Column :=
  (s.fields.get? name).bind Field.column?

def relation? (s : CollectionSchema) (name : String) : Option Relation :=
  (s.fields.get? name).bind Field.relation?

/-- The columns in name order. -/
def columns (s : CollectionSchema) : List (String × Column) :=
  s.fields.entries.filterMap fun e => e.2.column?.map fun c => (e.1, c)

/-- The relations in name order. -/
def relations (s : CollectionSchema) : List (String × Relation) :=
  s.fields.entries.filterMap fun e => e.2.relation?.map fun r => (e.1, r)

/-- The primary key columns in name order, which is the order of the values of an id. -/
def primaryKeys (s : CollectionSchema) : List String :=
  (s.columns.filter fun e => e.2.isPrimaryKey).map Prod.fst

end CollectionSchema

/-- The schemas that relations are resolved in, by collection name. -/
abbrev Catalog := String → Option CollectionSchema

end QueryLayer
