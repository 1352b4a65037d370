/-! # Filter operators

The comparisons a condition can make, their names, and the operator that holds exactly where another
does not, for those that have one. A set of operators is kept in the declared order.
-/
namespace QueryLayer

inductive Operator where
  | present
  | blank
  | missing
  | equal
  | notEqual
  | lessThan
  | lessThanOrEqual
  | greaterThan
  | greaterThanOrEqual
  | oneOf
  | noneOf
  | like
  | iLike
  | startsWith
  | endsWith
  | contains
  | notContains
  | longerThan
  | shorterThan
  | includesAll
deriving DecidableEq

namespace Operator

/-- Every operator, in the declared order. -/
def all : List Operator :=
  [present, blank, missing, equal, notEqual, lessThan, lessThanOrEqual, greaterThan,
    greaterThanOrEqual, oneOf, noneOf, like, iLike, startsWith, endsWith, contains, notContains,
    longerThan, shorterThan, includesAll]

def name : Operator → String
  | present => "present"
  | blank => "blank"
  | missing => "missing"
  | equal => "equal"
  | notEqual => "not_equal"
  | lessThan => "less_than"
  | lessThanOrEqual => "less_than_or_equal"
  | greaterThan => "greater_than"
  | greaterThanOrEqual => "greater_than_or_equal"
  | oneOf => "in"
  | noneOf => "not_in"
  | like => "like"
  | iLike => "i_like"
  | startsWith => "starts_with"
  | endsWith => "ends_with"
  | contains => "contains"
  | notContains => "not_contains"
  | longerThan => "longer_than"
  | shorterThan => "shorter_than"
  | includesAll => "includes_all"

def ofName? (s : String) : Option Operator := all.find? fun o => o.name = s

/-- The place in the declared order. -/
def index (o : Operator) : Nat := all.idxOf o

/-- The operator that selects exactly the values this one rejects. -/
def inverse? : Operator → Option Operator
  | present => some blank
  | blank => some present
  | equal => some notEqual
  | notEqual => some equal
  | oneOf => some noneOf
  | noneOf => some oneOf
  | contains => some notContains
  | notContains => some contains
  | lessThan => some greaterThanOrEqual
  | greaterThanOrEqual => some lessThan
  | greaterThan => some lessThanOrEqual
  | lessThanOrEqual => some greaterThan
  | _ => none

@[simp] theorem mem_all (o : Operator) : o ∈ all := by cases o <;> simp [all]

@[simp] theorem ofName?_name (o : Operator) : ofName? o.name = some o := by cases o <;> decide

end Operator

/-- A set of operators, listed in the declared order. -/
structure OperatorSet where
  members : List Operator
  ordered : members = Operator.all.filter (fun o => members.contains o)
deriving DecidableEq

namespace OperatorSet

def ofList (operators : List Operator) : OperatorSet where
  members := Operator.all.filter fun o => operators.contains o
  ordered := List.filter_congr fun o _ => by
    simp [List.contains_eq_mem, List.mem_filter]

def empty : OperatorSet := ofList []

instance : Inhabited OperatorSet := ⟨empty⟩

def contains (s : OperatorSet) (o : Operator) : Bool := s.members.contains o

def isEmpty (s : OperatorSet) : Bool := s.members.isEmpty

def union (s : OperatorSet) (operators : List Operator) : OperatorSet :=
  ofList (s.members ++ operators)

@[simp] theorem contains_ofList (operators : List Operator) (o : Operator) :
    (ofList operators).contains o = operators.contains o := by
  simp [contains, ofList, List.contains_eq_mem, List.mem_filter]

@[simp] theorem contains_union (s : OperatorSet) (operators : List Operator) (o : Operator) :
    (s.union operators).contains o = (s.contains o || operators.contains o) := by
  simp [union, contains, ofList, List.contains_eq_mem, List.mem_filter]

@[ext] theorem ext {s t : OperatorSet} (h : ∀ o, s.contains o = t.contains o) : s = t := by
  have : s.members = t.members := by
    rw [s.ordered, t.ordered]
    exact List.filter_congr fun o _ => h o
  cases s; cases t; cases this; rfl

@[simp] theorem ofList_members (s : OperatorSet) : ofList s.members = s := by
  refine ext fun o => ?_
  rw [contains_ofList]
  rfl

end OperatorSet

end QueryLayer
