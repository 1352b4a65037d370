import QueryLayer.Query.Projection

/-! # Sorting

A list of sort clauses, the most significant one first. `Sorting.apply` is a stable sort by the
first clause on which two records differ.
-/
namespace QueryLayer

structure SortClause where
  field : String
  ascending : Bool
deriving DecidableEq

structure Sorting where
  clauses : List SortClause
deriving DecidableEq

namespace Sorting

def empty : Sorting := ⟨[]⟩

instance : Inhabited Sorting := ⟨empty⟩

def ascending (field : String) : Sorting := ⟨[⟨field, true⟩]⟩

def descending (field : String) : Sorting := ⟨[⟨field, false⟩]⟩

def isEmpty (s : Sorting) : Bool := s.clauses.isEmpty

def fields (s : Sorting) : List String := s.clauses.map SortClause.field

def projection (s : Sorting) : Projection := Projection.ofList s.fields

def rename (f : String → String) (s : Sorting) : Sorting :=
  ⟨s.clauses.map fun c => { c with field := f c.field }⟩

def nest (name : String) (s : Sorting) : Sorting := s.rename (Path.under name)

/-- What follows `start` in a text that begins with it. -/
def afterPrefix? (start s : String) : Option String :=
  if Text.startsWith s start then some (String.ofList (s.toList.drop start.toList.length)) else none

/-- Removes `name:` from every clause; fails at the first one without it. -/
def unnest (name : String) (s : Sorting) : Except Error Sorting := do
  let clauses ← s.clauses.mapM fun c =>
    match afterPrefix? (name ++ ":") c.field with
    | some rest => .ok { c with field := rest }
    | none => .error (.query (.notNested c.field))
  pure ⟨clauses⟩

def inverse (s : Sorting) : Sorting :=
  ⟨s.clauses.map fun c => { c with ascending := !c.ascending }⟩

/-- The order of two records under one clause. -/
def clauseCompare (c : SortClause) (a b : Record) : Ordering :=
  let order := (a.value c.field).sortOrder (b.value c.field)
  if c.ascending then order else order.swap

/-- The order under the first clause that tells two records apart. -/
def compareBy : List SortClause → Record → Record → Ordering
  | [], _, _ => .eq
  | c :: cs, a, b => (clauseCompare c a b).then (compareBy cs a b)

def compare (s : Sorting) (a b : Record) : Ordering := compareBy s.clauses a b

def apply (s : Sorting) (records : List Record) : List Record :=
  records.mergeSort fun a b => (s.compare a b).isLE

end Sorting

end QueryLayer
