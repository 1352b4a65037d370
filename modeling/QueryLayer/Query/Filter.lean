import QueryLayer.Query.Sorting

/-! # Filters

A filter restricts the records an operation touches; a paginated filter adds an order and a window
for reads. Filters can be moved under a relation and back, unless they search or name a segment.
-/
namespace QueryLayer

structure Page where
  skip : Nat
  limit : Option Nat
deriving DecidableEq

def Page.apply {α : Type} (p : Page) (items : List α) : List α :=
  let rest := items.drop p.skip
  match p.limit with
  | some limit => rest.take limit
  | none => rest

structure Filter where
  condition : Option Condition
  search : Option String
  searchExtended : Option Bool
  segment : Option String

namespace Filter

/-- The filter that lets every record through. -/
def empty : Filter := ⟨none, none, none, none⟩

instance : Inhabited Filter := ⟨empty⟩

def ofCondition (c : Condition) : Filter := { empty with condition := some c }

/-- A search or a segment means nothing on another collection. -/
def isNestable (f : Filter) : Bool := f.search.isNone && f.segment.isNone

/-- Moves the filter under the relation `name`. -/
def nest (name : String) (f : Filter) : Except Error Filter :=
  if f.isNestable then .ok { f with condition := f.condition.map (·.nest name) }
  else .error (.query .nestedSearch)

/-- Removes the relation that all conditions go through. -/
def unnest (f : Filter) : Except Error Filter :=
  if f.isNestable then
    match f.condition with
    | none => .ok f
    | some c => do pure { f with condition := some (← c.unnest) }
  else .error (.query .nestedSearch)

end Filter

structure PaginatedFilter extends Filter where
  sort : Sorting
  page : Option Page

namespace PaginatedFilter

def ofFilter (f : Filter) : PaginatedFilter := { f with sort := .empty, page := none }

def empty : PaginatedFilter := ofFilter .empty

instance : Inhabited PaginatedFilter := ⟨empty⟩

def ofCondition (c : Condition) : PaginatedFilter := ofFilter (.ofCondition c)

def nest (name : String) (f : PaginatedFilter) : Except Error PaginatedFilter := do
  let filter ← f.toFilter.nest name
  pure { filter with sort := f.sort.nest name, page := f.page }

/-- The field that tells which relation the filter is under: that of the first leaf, else that of
the first sort clause. -/
def leadingField? (f : PaginatedFilter) : Option String :=
  match f.condition.bind fun c => c.projection.fields.head? with
  | some field => some field
  | none => f.sort.fields.head?

/-- Removes the relation that conditions and sort clauses go through; a filter whose leading field
goes through none is left as it is. -/
def unnest (f : PaginatedFilter) : Except Error PaginatedFilter :=
  match f.leadingField?.bind Path.split? with
  | none => .ok f
  | some (name, _) => do
    let filter ← f.toFilter.unnest
    let sort ← f.sort.unnest name
    pure { filter with sort, page := f.page }

end PaginatedFilter

end QueryLayer
