import QueryLayer.Value.Basic

/-! # Equality and order of values

`same` is the equality that filters and primary keys use: numbers are equal when they are equal as
doubles, arrays when they are so item by item, and objects when their members are `alike`. There the
form of a number counts, but the two zeros of doubles are one. `compare?` answers for two numbers, two
texts or two booleans; `sortOrder` extends it to all values by kind.
-/
namespace QueryLayer

/-- Numbers of one form and equal size. -/
def Number.alike : Number → Number → Bool
  | .integer a _, .integer b _ => a = b
  | .double a, .double b => a.compare b == .eq
  | _, _ => false

theorem Number.alike_self (n : Number) : n.alike n = true := by
  cases n <;> simp [alike, Binary64.compare]

namespace Value

mutual

/-- Values of one structure whose numbers are alike. -/
def alike : Value → Value → Bool
  | null, null => true
  | bool a, bool b => a = b
  | number a, number b => a.alike b
  | text a, text b => a = b
  | array a, array b => alikeItems a b
  | object a, object b => alikeMembers a b
  | _, _ => false

def alikeItems : List Value → List Value → Bool
  | [], [] => true
  | a :: as, b :: bs => alike a b && alikeItems as bs
  | _, _ => false

def alikeMembers : List (String × Value) → List (String × Value) → Bool
  | [], [] => true
  | (k, a) :: as, (l, b) :: bs => k = l && alike a b && alikeMembers as bs
  | _, _ => false

end

mutual

def same : Value → Value → Bool
  | number a, number b => a.toBinary64.compare b.toBinary64 == .eq
  | array a, array b => sameItems a b
  | a, b => alike a b

def sameItems : List Value → List Value → Bool
  | [], [] => true
  | a :: as, b :: bs => same a b && sameItems as bs
  | _, _ => false

end

def compare? : Value → Value → Option Ordering
  | number a, number b => some (a.toBinary64.compare b.toBinary64)
  | text a, text b => some (Ord.compare a b)
  | bool a, bool b => some (Ord.compare a b)
  | _, _ => none

/-- Null sorts first, then booleans, numbers, texts, arrays and objects. -/
def rank : Value → Nat
  | null => 0
  | bool _ => 1
  | number _ => 2
  | text _ => 3
  | array _ => 4
  | object _ => 5

def sortOrder (a b : Value) : Ordering := (compare? a b).getD (Ord.compare a.rank b.rank)

mutual

theorem alike_self : (v : Value) → v.alike v = true
  | null => rfl
  | bool b => by simp [alike]
  | number n => n.alike_self
  | text s => by simp [alike]
  | array items => alikeItems_self items
  | object members => alikeMembers_self members

theorem alikeItems_self : (items : List Value) → alikeItems items items = true
  | [] => rfl
  | v :: rest => by simp [alikeItems, alike_self v, alikeItems_self rest]

theorem alikeMembers_self : (members : List (String × Value)) → alikeMembers members members = true
  | [] => rfl
  | (k, v) :: rest => by simp [alikeMembers, alike_self v, alikeMembers_self rest]

end

mutual

theorem same_self : (v : Value) → v.same v = true
  | number n => by simp [same, Binary64.compare]
  | array items => sameItems_self items
  | null => rfl
  | bool b => alike_self (bool b)
  | text s => alike_self (text s)
  | object members => alike_self (object members)

theorem sameItems_self : (items : List Value) → sameItems items items = true
  | [] => rfl
  | v :: rest => by simp [sameItems, same_self v, sameItems_self rest]

end

end Value

end QueryLayer
