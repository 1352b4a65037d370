import QueryLayer.Schema.Basic
import QueryLayer.Text.Uuid
import QueryLayer.Time.Reading

/-! # Types of values

The type of a value in the context of a column, and the tables of which operators a column type
admits and which value types an operator and a column type accept.
-/
namespace QueryLayer

inductive ValueType where
  | null
  | boolean
  | number
  | string
  | date
  | dateOnly
  | timeOnly
  | uuid
  | enum
  | point
  | json
  | emptyArray
  | arrayOfBoolean
  | arrayOfNumber
  | arrayOfString
  | arrayOfUuid
  | unknown
deriving DecidableEq

namespace ValueType

def name : ValueType → String
  | null => "Null"
  | boolean => "Boolean"
  | number => "Number"
  | string => "String"
  | date => "Date"
  | dateOnly => "Dateonly"
  | timeOnly => "Timeonly"
  | uuid => "Uuid"
  | enum => "Enum"
  | point => "Point"
  | json => "Json"
  | emptyArray => "EmptyArray"
  | arrayOfBoolean => "ArrayOfBoolean"
  | arrayOfNumber => "ArrayOfNumber"
  | arrayOfString => "ArrayOfString"
  | arrayOfUuid => "ArrayOfUuid"
  | unknown => "Unknown"

def isArray : ValueType → Bool
  | emptyArray | arrayOfBoolean | arrayOfNumber | arrayOfString | arrayOfUuid => true
  | _ => false

/-- The type of a text: what it is for the column, else a plain string. -/
def ofText (s : String) : ColumnType → ValueType
  | .enum => enum
  | .uuid => if Text.isUuid s then uuid else string
  | .date => if (Time.dateOfText? s).isSome then date else string
  | .dateOnly => if (Time.date? s).isSome then dateOnly else string
  | .timeOnly => if Time.isTimeOfDay s then timeOnly else string
  | _ => string

def ofItems (items : List Value) (context : ColumnType) : ValueType :=
  if items.isEmpty then emptyArray
  else if items.all Value.isNumber then
    if context = .point ∧ items.length = 2 then point else arrayOfNumber
  else if items.all Value.isBool then arrayOfBoolean
  else if items.all Value.isText then
    if context = .uuid ∧ (items.filterMap Value.text?).all Text.isUuid then arrayOfUuid
    else arrayOfString
  else unknown

def ofValue (v : Value) (context : ColumnType) : ValueType :=
  match v with
  | .null => null
  | .bool _ => boolean
  | .number _ => number
  | .text s => ofText s context
  | .array items => ofItems items context
  | .object _ => json

end ValueType

namespace ColumnType

/-- The operators that make sense for a column type. -/
def operators (t : ColumnType) : List Operator :=
  [.blank, .equal, .missing, .notEqual, .present] ++
    match t with
    | boolean | enum | uuid => [.oneOf, .noneOf]
    | date | dateOnly | timeOnly | number =>
      [.greaterThan, .lessThan, .greaterThanOrEqual, .lessThanOrEqual, .oneOf, .noneOf]
    | string =>
      [.oneOf, .noneOf, .like, .iLike, .startsWith, .endsWith, .contains, .notContains,
        .longerThan, .shorterThan, .includesAll]
    | json | point => []

/-- The types a filter value may have for a column type; `none` when any will do. -/
def valueTypes? : ColumnType → Option (List ValueType)
  | boolean => some [.boolean, .arrayOfBoolean, .emptyArray]
  | date => some [.date, .arrayOfString, .emptyArray]
  | dateOnly => some [.dateOnly, .arrayOfString, .emptyArray]
  | timeOnly => some [.timeOnly, .arrayOfString, .emptyArray]
  | enum => some [.enum, .arrayOfString, .emptyArray]
  | number => some [.number, .arrayOfNumber, .emptyArray]
  | point => some [.point]
  | string => some [.string, .arrayOfString, .emptyArray]
  | uuid => some [.uuid, .arrayOfUuid, .emptyArray]
  | json => none

end ColumnType

/-- The types a filter value may have for an operator. -/
def Operator.valueTypes : Operator → List ValueType
  | present | blank | missing => [.null]
  | equal | notEqual =>
    [.boolean, .date, .dateOnly, .enum, .json, .number, .point, .string, .timeOnly, .uuid]
  | lessThan | lessThanOrEqual | greaterThan | greaterThanOrEqual =>
    [.date, .dateOnly, .number, .timeOnly]
  | oneOf | noneOf | includesAll =>
    [.arrayOfBoolean, .arrayOfNumber, .arrayOfString, .arrayOfUuid, .emptyArray]
  | like | iLike | startsWith | endsWith | contains | notContains => [.string]
  | longerThan | shorterThan => [.number]

end QueryLayer
