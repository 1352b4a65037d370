import QueryLayer.Data.Entries
import QueryLayer.Number.Basic

/-! # Values

What columns hold and what travels between sources: null, booleans, numbers, texts, arrays and
objects. The members of an object are listed in name order, so equal objects are equal terms.
-/
namespace QueryLayer

inductive Value where
  | null
  | bool (b : Bool)
  | number (n : Number)
  | text (s : String)
  | array (items : List Value)
  | object (members : List (String × Value))

/-- One row of a collection: column names with their values, in name order. -/
abbrev Record := List (String × Value)

namespace Value

instance : Inhabited Value := ⟨null⟩

mutual

def decEq : (a b : Value) → Decidable (a = b)
  | null, null => isTrue rfl
  | bool a, bool b =>
    if h : a = b then isTrue (h ▸ rfl) else isFalse fun e => h (Value.bool.inj e)
  | number a, number b =>
    if h : a = b then isTrue (h ▸ rfl) else isFalse fun e => h (Value.number.inj e)
  | text a, text b =>
    if h : a = b then isTrue (h ▸ rfl) else isFalse fun e => h (Value.text.inj e)
  | array a, array b =>
    match decEqItems a b with
    | isTrue h => isTrue (h ▸ rfl)
    | isFalse h => isFalse fun e => h (Value.array.inj e)
  | object a, object b =>
    match decEqMembers a b with
    | isTrue h => isTrue (h ▸ rfl)
    | isFalse h => isFalse fun e => h (Value.object.inj e)
  | null, bool _ | null, number _ | null, text _ | null, array _ | null, object _
  | bool _, null | bool _, number _ | bool _, text _ | bool _, array _ | bool _, object _
  | number _, null | number _, bool _ | number _, text _ | number _, array _ | number _, object _
  | text _, null | text _, bool _ | text _, number _ | text _, array _ | text _, object _
  | array _, null | array _, bool _ | array _, number _ | array _, text _ | array _, object _
  | object _, null | object _, bool _ | object _, number _ | object _, text _
  | object _, array _ => isFalse (by simp)

def decEqItems : (a b : List Value) → Decidable (a = b)
  | [], [] => isTrue rfl
  | [], _ :: _ => isFalse (by simp)
  | _ :: _, [] => isFalse (by simp)
  | a :: as, b :: bs =>
    match decEq a b, decEqItems as bs with
    | isTrue h, isTrue t => isTrue (h ▸ t ▸ rfl)
    | isFalse h, _ => isFalse fun e => h (List.cons.inj e).1
    | _, isFalse t => isFalse fun e => t (List.cons.inj e).2

def decEqMembers : (a b : List (String × Value)) → Decidable (a = b)
  | [], [] => isTrue rfl
  | [], _ :: _ => isFalse (by simp)
  | _ :: _, [] => isFalse (by simp)
  | (k, a) :: as, (l, b) :: bs =>
    if hk : k = l then
      match decEq a b, decEqMembers as bs with
      | isTrue h, isTrue t => isTrue (hk ▸ h ▸ t ▸ rfl)
      | isFalse h, _ => isFalse fun e => h (Prod.mk.inj (List.cons.inj e).1).2
      | _, isFalse t => isFalse fun e => t (List.cons.inj e).2
    else isFalse fun e => hk (Prod.mk.inj (List.cons.inj e).1).1

end

instance : DecidableEq Value := decEq

def isNull : Value → Bool
  | null => true
  | _ => false

def isNumber : Value → Bool
  | number _ => true
  | _ => false

def isBool : Value → Bool
  | bool _ => true
  | _ => false

def isText : Value → Bool
  | text _ => true
  | _ => false

def text? : Value → Option String
  | text s => some s
  | _ => none

def number? : Value → Option Number
  | number n => some n
  | _ => none

def array? : Value → Option (List Value)
  | array items => some items
  | _ => none

def object? : Value → Option Record
  | object members => some members
  | _ => none

def nat (n : Nat) : Value := number (Number.ofNat n)

def int (i : Int) : Value := number (Number.ofInt i)

@[simp] theorem isNull_eq_true {v : Value} : v.isNull = true ↔ v = null := by
  cases v <;> simp [isNull]

end Value

end QueryLayer
