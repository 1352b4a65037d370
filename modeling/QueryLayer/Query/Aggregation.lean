import QueryLayer.Query.Projection
import QueryLayer.Time.Reading

/-! # Aggregations

A function of a field computed over groups of records. Groups are keyed by the values of their
fields, dates being taken to the start of a year, month, week or day. Rows come out by value, the
largest first, and equal ones in order of first appearance.
-/
namespace QueryLayer

inductive AggregateFunction where
  | count
  | sum
  | avg
  | max
  | min
deriving DecidableEq

def AggregateFunction.name : AggregateFunction → String
  | count => "Count"
  | sum => "Sum"
  | avg => "Avg"
  | max => "Max"
  | min => "Min"

def DateUnit.name : DateUnit → String
  | year => "Year"
  | month => "Month"
  | week => "Week"
  | day => "Day"

structure AggregationGroup where
  field : String
  unit : Option DateUnit
deriving DecidableEq

structure Aggregation where
  function : AggregateFunction
  field : Option String
  groups : List AggregationGroup
deriving DecidableEq

structure AggregateRow where
  value : Value
  group : Record
deriving DecidableEq

/-- The date of a date or date-time text, as it is written. -/
def Value.date? : Value → Option Date
  | .text s => Time.dateOfText? s
  | _ => none

/-- A date or date-time text taken to the start of a span; any other value is left alone. -/
def truncateDate (unit : DateUnit) (v : Value) : Value :=
  match v with
  | .text s =>
    match (Time.dateOfText? s).bind (Date.startOf? unit) with
    | some d => .text d.text
    | none => v
  | _ => v

/-- A number for a double: an integer where it is one that fits 64 signed bits. -/
def numberValue (x : Binary64) : Value :=
  match x.toInt? with
  | some i => if -9223372036854775808 < i ∧ i < 9223372036854775808 then .int i else .number (.double x)
  | none => .number (.double x)

namespace Aggregation

def count : Aggregation := ⟨.count, none, []⟩

def ofField (function : AggregateFunction) (field : String) : Aggregation :=
  ⟨function, some field, []⟩

def groupBy (a : Aggregation) (field : String) (unit : Option DateUnit) : Aggregation :=
  { a with groups := a.groups ++ [⟨field, unit⟩] }

/-- The fields read: the aggregated one and those of the groups. -/
def projection (a : Aggregation) : Projection :=
  Projection.ofList (a.field.toList ++ a.groups.map AggregationGroup.field)

def rename (f : String → String) (a : Aggregation) : Aggregation where
  function := a.function
  field := a.field.map f
  groups := a.groups.map fun g => { g with field := f g.field }

def nest (name : String) (a : Aggregation) : Aggregation := a.rename (Path.under name)

/-- The sum from left to right; `none` once it is infinite. -/
def sum? (numbers : List Binary64) : Option Binary64 :=
  numbers.foldl (fun acc x => acc.bind fun s => s.add? x) (some .zero)

/-- The first of the values that no other goes before in the wanted direction. -/
def extremum (wanted : Ordering) (values : List Value) : Value :=
  (values.foldl (fun best v =>
    match best with
    | some current => if v.sortOrder current = wanted then some v else some current
    | none => some v) none).getD .null

/-- The value of the aggregation over the records of one group. Nulls do not count. -/
def compute (a : Aggregation) (records : List Record) : Value :=
  let values := match a.field with
    | some field => (records.filterMap fun r => r.value? field).filter fun v => !v.isNull
    | none => []
  let numbers := values.filterMap fun v => v.number?.map Number.toBinary64
  match a.function with
  | .count => if a.field.isSome then .nat values.length else .nat records.length
  | .sum => ((sum? numbers).map numberValue).getD .null
  | .avg =>
    if numbers.isEmpty then .null
    else (((sum? numbers).bind fun s => s.divNat? numbers.length).map numberValue).getD .null
  | .max => extremum .gt values
  | .min => extremum .lt values

/-- The group of a record. A field that is grouped by twice has the value of the later group. -/
def groupOf (a : Aggregation) (record : Record) : Record :=
  a.groups.foldl (fun (out : Record) g =>
    let v := record.value g.field
    out.insert g.field (match g.unit with
      | some unit => truncateDate unit v
      | none => v)) []

/-- Adds a record to the members of its group, or starts a group. -/
def collect (group record : Record) : List (Record × List Record) → List (Record × List Record)
  | [] => [(group, [record])]
  | (g, members) :: rest =>
    if g = group then (g, members ++ [record]) :: rest else (g, members) :: collect group record rest

/-- The records by group, groups in order of first appearance. -/
def groupsOf (a : Aggregation) (records : List Record) : List (Record × List Record) :=
  records.foldl (fun acc r => collect (a.groupOf r) r acc) []

/-- The rows over records with their relations attached. -/
def apply (a : Aggregation) (records : List Record) (limit : Option Nat) : List AggregateRow :=
  let rows := (a.groupsOf records).map fun g => ⟨a.compute g.2, g.1⟩
  let sorted := rows.mergeSort fun x y => (y.value.sortOrder x.value).isLE
  match limit with
  | some n => sorted.take n
  | none => sorted

/-- Some record has a date under a group whose span begins before the first date. -/
def overflows (a : Aggregation) (records : List Record) : Bool :=
  records.any fun r => a.groups.any fun g => g.unit.any fun unit =>
    (r.value g.field).date?.any fun d => (Date.startOf? unit d).isNone

/-- The rows; `none` where a date leaves the calendar, which ends the program. -/
def rows? (a : Aggregation) (records : List Record) (limit : Option Nat) : Option (List AggregateRow) :=
  if a.overflows records then none else some (a.apply records limit)

end Aggregation

end QueryLayer
