/-! # Finite binary64 numbers

A finite binary64 number is a sign and the place of its magnitude among all finite magnitudes in
increasing order. The magnitude at place `m` is `units m` times `2 ^ (-1074)`, so sums, quotients
and decimal readings are exact integer arithmetic followed by one rounding to nearest, ties to even.
-/
namespace QueryLayer

/-- Places of finite magnitudes lie below this one; the place itself stands for infinity. -/
def Binary64.limit : Nat := 2047 * Nat.pow 2 52

structure Binary64 where
  negative : Bool
  place : Nat
  finite : place < Binary64.limit
deriving DecidableEq

namespace Binary64

/-- The magnitude at a place, counted in units of `2 ^ (-1074)`. -/
def units (place : Nat) : Nat :=
  if place < Nat.pow 2 52 then place
  else (Nat.pow 2 52 + place % Nat.pow 2 52) * Nat.pow 2 (place / Nat.pow 2 52 - 1)

/-- The number as a signed count of units of `2 ^ (-1074)`. -/
def toUnits (x : Binary64) : Int :=
  if x.negative then -(units x.place : Int) else units x.place

/-- Both zeros have order key 0; otherwise the key grows with the number. -/
def orderKey (x : Binary64) : Int := if x.negative then -(x.place : Int) else x.place

/-- The integer nearest to `num / den`, the even one of two. -/
def roundHalfEven (num den : Nat) : Nat :=
  let q := num / den
  let r := num % den
  if 2 * r < den ∨ (2 * r = den ∧ q % 2 = 0) then q else q + 1

/-- The place nearest to `num / den` units, the even one of two. -/
def nearestPlace (num den : Nat) : Nat :=
  let shift := Nat.log2 (num / den) - 52
  shift * Nat.pow 2 52 + roundHalfEven num (den * Nat.pow 2 shift)

def ofPlace? (negative : Bool) (place : Nat) : Option Binary64 :=
  if h : place < limit then some ⟨negative, place, h⟩ else none

/-- The number nearest to `num / den`; `none` when that is infinite. -/
def ofRatio? (negative : Bool) (num den : Nat) : Option Binary64 :=
  ofPlace? negative (nearestPlace (num * Nat.pow 2 1074) den)

def zero : Binary64 := ⟨false, 0, by decide⟩

def negativeZero : Binary64 := ⟨true, 0, by decide⟩

/-- The greatest finite number. -/
def greatest : Binary64 := ⟨false, limit - 1, by decide⟩

/-- The number nearest to an integer; integers beyond the finite numbers saturate. -/
def ofInt (i : Int) : Binary64 :=
  (ofRatio? (i < 0) i.natAbs 1).getD greatest

/-- The number nearest to `digits * 10 ^ exponent`; `none` when that is infinite. -/
def ofDecimal? (negative : Bool) (digits : Nat) (exponent : Int) : Option Binary64 :=
  let top := (Nat.log2 digits : Int) * 302 / 1000 + exponent
  if digits = 0 ∨ top < -400 then ofPlace? negative 0
  else if top > 400 then none
  else if exponent < 0 then ofRatio? negative digits (Nat.pow 10 exponent.natAbs)
  else ofRatio? negative (digits * Nat.pow 10 exponent.natAbs) 1

/-- The sum rounded once; `none` when that is infinite. -/
def add? (x y : Binary64) : Option Binary64 :=
  let sum := x.toUnits + y.toUnits
  let negative := if sum = 0 then x.negative && y.negative else decide (sum < 0)
  ofPlace? negative (nearestPlace sum.natAbs 1)

/-- The quotient by a positive count, rounded once. -/
def divNat? (x : Binary64) (count : Nat) : Option Binary64 :=
  ofPlace? x.negative (nearestPlace (units x.place) count)

/-- The number as an integer, when it is one. -/
def toInt? (x : Binary64) : Option Int :=
  let u := units x.place
  if u % Nat.pow 2 1074 = 0 then
    some (if x.negative then -((u / Nat.pow 2 1074 : Nat) : Int) else (u / Nat.pow 2 1074 : Nat))
  else none

def compare (x y : Binary64) : Ordering := Ord.compare x.orderKey y.orderKey

@[simp] theorem orderKey_zero : zero.orderKey = 0 := rfl
@[simp] theorem orderKey_negativeZero : negativeZero.orderKey = 0 := rfl

end Binary64

end QueryLayer
