import QueryLayer.Query.Aggregation
import QueryLayer.Query.Filter
import QueryLayer.Query.Template
import QueryLayer.Wire.Decode

/-! # Wire forms of queries

How conditions, filters, sort clauses, projections and aggregations are written as values and read
back. A condition has no tag: its members tell a branch, a negation and a leaf apart.
-/
namespace QueryLayer

theorem Entries.sizeOf_lt_of_get? {members : List (String × Value)} {name : String} {v : Value}
    (h : Entries.get? members name = some v) : sizeOf v < sizeOf members := by
  have hm := List.sizeOf_lt_of_mem (Entries.get?_eq_some_mem h)
  have : sizeOf (name, v) = 1 + sizeOf name + sizeOf v := Prod.mk.sizeOf_spec name v
  omega

open Wire

def Operator.decodeIn (manner : Manner) : Decoder Operator :=
  choice manner (Operator.all.map fun o => (o.name, o))

def Operator.decode : Decoder Operator := decodeIn .strict

def Operator.encode (o : Operator) : Value := .text o.name

def Aggregator.name : Aggregator → String
  | and => "And"
  | or => "Or"

def Aggregator.decode : Decoder Aggregator := choice .strict [("And", .and), ("Or", .or)]

def Leaf.encode (l : Leaf) : Value :=
  .object [("field", .text l.field), ("operator", l.operator.encode), ("value", l.value)]

def Leaf.decode : Decoder Leaf := Wire.fields do
  let field ← required "field" text
  let operator ← required "operator" Operator.decode
  let value ← optional "value" raw .null
  pure ⟨field, operator, value⟩

namespace Condition

mutual

def encode : Condition → Value
  | leaf l => l.encode
  | not c => .object [("condition", c.encode)]
  | branch a cs => .object [("aggregator", .text a.name), ("conditions", .array (encodeAll cs))]

def encodeAll : List Condition → List Value
  | [] => []
  | c :: cs => c.encode :: encodeAll cs

end

def invalid {α : Type} (reason : String) : Except Error α := .error (.setup (.invalidCondition reason))

/-- A condition from its value; null stands for none, but not inside of a condition. -/
def ofValue? (v : Value) : Except Error (Option Condition) :=
  match v with
  | .null => .ok none
  | .object members =>
    match Entries.get? members "aggregator" with
    | some .null => .error (.setup .nullAggregator)
    | some a =>
      match Aggregator.decode a with
      | .error reason => invalid ("invalid aggregator: " ++ reason)
      | .ok aggregator =>
        match h : Entries.get? members "conditions" with
        | some (.array items) => do
          let conditions ← items.attach.mapM fun ⟨item, hi⟩ => do
            have : sizeOf item < 1 + sizeOf members := by
              have h1 := Entries.sizeOf_lt_of_get? h
              have h2 := List.sizeOf_lt_of_mem hi
              simp only [Value.array.sizeOf_spec] at h1
              omega
            match ← ofValue? item with
            | some c => pure c
            | none => throw (.setup .nullCondition)
          pure (some (branch aggregator conditions))
        | _ => invalid "a branch needs a 'conditions' array"
    | none =>
      match h : Entries.get? members "condition" with
      | some inner => do
        have : sizeOf inner < 1 + sizeOf members := by
          have := Entries.sizeOf_lt_of_get? h
          omega
        match ← ofValue? inner with
        | some c => pure (some (not c))
        | none => throw (.setup .nullCondition)
      | none =>
        if Entries.contains members "field" && Entries.contains members "operator" then
          match Leaf.decode v with
          | .ok l => .ok (some (leaf l))
          | .error reason => invalid reason
        else invalid v.compact
  | other => invalid other.compact
termination_by sizeOf v
decreasing_by
  all_goals (simp_wf; assumption)

/-- A condition that has to be there. -/
def ofValue (v : Value) : Except Error Condition := do
  match ← ofValue? v with
  | some c => pure c
  | none => throw (.setup .nullCondition)

/-- As a part of other data, a condition fails like any other part. -/
def decode : Decoder Condition := fun v => (ofValue v).mapError Error.message

/-- The condition that a template becomes when a value is put in. -/
def ofTemplate? (template v : Value) : Except Error (Option Condition) :=
  ofValue? (Template.fill v template)

end Condition

def SortClause.encode (c : SortClause) : Value :=
  .object [("ascending", .bool c.ascending), ("field", .text c.field)]

def SortClause.decode : Decoder SortClause := Wire.fields do
  let field ← required "field" text
  let ascending ← optional "ascending" flag true
  pure ⟨field, ascending⟩

def Sorting.encode (s : Sorting) : Value := .array (s.clauses.map SortClause.encode)

def Sorting.decode : Decoder Sorting := fun v => (list SortClause.decode v).map .mk

def Page.encode (p : Page) : Value := Wire.object [("limit", p.limit.map .nat), ("skip", some (.nat p.skip))]

def Page.decode : Decoder Page := Wire.fields do
  let skip ← optional "skip" size 0
  let limit ← maybe "limit" size
  pure ⟨skip, limit⟩

def Filter.encode (f : Filter) : Value := Wire.object [
  ("conditionTree", f.condition.map Condition.encode),
  ("search", f.search.map .text),
  ("searchExtended", f.searchExtended.map .bool),
  ("segment", f.segment.map .text)]

def Filter.members : MemberReader Filter := do
  let condition ← maybe "conditionTree" Condition.decode
  let search ← maybe "search" text
  let searchExtended ← maybe "searchExtended" flag
  let segment ← maybe "segment" text
  pure ⟨condition, search, searchExtended, segment⟩

def Filter.decode : Decoder Filter := Wire.fields Filter.members

def PaginatedFilter.encode (f : PaginatedFilter) : Value := Wire.object [
  ("conditionTree", f.condition.map Condition.encode),
  ("page", f.page.map Page.encode),
  ("search", f.search.map .text),
  ("searchExtended", f.searchExtended.map .bool),
  ("segment", f.segment.map .text),
  ("sort", if f.sort.isEmpty then none else some f.sort.encode)]

def PaginatedFilter.decode : Decoder PaginatedFilter := namedOnly do
  let filter ← Filter.members
  let sort ← optional "sort" Sorting.decode .empty
  let page ← maybe "page" Page.decode
  pure { filter with sort, page }

def Projection.encode (p : Projection) : Value := texts p.fields

def Projection.decode : Decoder Projection := fun v => (list text v).map Projection.ofList

def AggregateFunction.decode : Decoder AggregateFunction :=
  choice .strict ([AggregateFunction.count, .sum, .avg, .max, .min].map fun f => (f.name, f))

def DateUnit.decode : Decoder DateUnit :=
  choice .strict ([DateUnit.year, .month, .week, .day].map fun u => (u.name, u))

def AggregationGroup.encode (g : AggregationGroup) : Value :=
  Wire.object [("field", some (.text g.field)), ("operation", g.unit.map fun u => .text u.name)]

def AggregationGroup.decode : Decoder AggregationGroup := Wire.fields do
  let field ← required "field" text
  let unit ← maybe "operation" DateUnit.decode
  pure ⟨field, unit⟩

def Aggregation.encode (a : Aggregation) : Value := Wire.object [
  ("field", a.field.map .text),
  ("groups", if a.groups.isEmpty then none else some (.array (a.groups.map AggregationGroup.encode))),
  ("operation", some (.text a.function.name))]

def Aggregation.decode : Decoder Aggregation := Wire.fields do
  let function ← required "operation" AggregateFunction.decode
  let field ← maybe "field" text
  let groups ← optional "groups" (list AggregationGroup.decode) []
  pure ⟨function, field, groups⟩

def AggregateRow.encode (r : AggregateRow) : Value :=
  .object [("group", .object r.group), ("value", r.value)]

def AggregateRow.decode : Decoder AggregateRow := Wire.fields do
  let value ← required "value" raw
  let group ← optional "group" record []
  pure ⟨value, group⟩

end QueryLayer
