import QueryLayer.Number.Binary64
import QueryLayer.Number.Shortest

/-! # Numbers

A number is an integer that fits 64 bits, signed or unsigned, or a finite binary64 number. The form
is part of the number: `1` and `1.0` are different numbers of equal size.
-/
namespace QueryLayer

/-- The integers from `-2 ^ 63` up to below `2 ^ 64`. -/
abbrev Number.Fits (i : Int) : Prop := -9223372036854775808 ≤ i ∧ i < 18446744073709551616

inductive Number where
  | integer (value : Int) (fits : Number.Fits value)
  | double (value : Binary64)
deriving DecidableEq

namespace Number

/-- An integer that does not fit becomes the nearest double. -/
def ofInt (i : Int) : Number :=
  if h : Fits i then .integer i h else .double (Binary64.ofInt i)

def ofNat (n : Nat) : Number := ofInt n

def zero : Number := .integer 0 (by decide)

instance : Inhabited Number := ⟨zero⟩

/-- The number as a double. -/
def toBinary64 : Number → Binary64
  | .integer i _ => Binary64.ofInt i
  | .double x => x

/-- The number as a signed 64-bit integer, below `2 ^ 63`, when it is written as one. -/
def toInt64? : Number → Option Int
  | .integer i _ => if i < 9223372036854775808 then some i else none
  | .double _ => none

/-- The number as an unsigned 64-bit integer, when it is written as one. -/
def toUInt64? : Number → Option Nat
  | .integer (.ofNat n) _ => some n
  | _ => none

/-- A written number with neither point nor exponent. Minus zero is a double. -/
def ofIntegerText (negative : Bool) (digits : Nat) : Option Number :=
  if negative then
    if digits = 0 then some (.double Binary64.negativeZero)
    else if h : Fits (-digits) then some (.integer (-digits) h)
    else (Binary64.ofDecimal? true digits 0).map .double
  else if h : Fits digits then some (.integer digits h)
  else (Binary64.ofDecimal? false digits 0).map .double

/-- A written number with a point or an exponent. -/
def ofDecimalText (negative : Bool) (digits : Nat) (exponent : Int) : Option Number :=
  (Binary64.ofDecimal? negative digits exponent).map .double

@[simp] theorem ofInt_of_fits {i : Int} (h : Fits i) :
    ofInt i = .integer i h := dif_pos h

@[simp] theorem toUInt64?_ofNat {n : Nat} (h : n < 18446744073709551616) : (ofNat n).toUInt64? = some n := by
  have hn : Fits n := by omega
  rw [ofNat, ofInt_of_fits hn]
  rfl

end Number

/-- Exponents of the leading digit that are written out without an `e`. -/
structure PositionalRange where
  least : Int
  most : Int

/-- Doubles from `1e-5` up to below `1e16` are written without an exponent. -/
def Number.positional : PositionalRange := ⟨-5, 15⟩

namespace Binary64

def zeros (n : Nat) : String := String.ofList (List.replicate n '0')

def exponentText (e : Int) : String := if e < 0 then toString e else "+" ++ toString e

/-- Digits around a point, or around an exponent where the leading digit is out of range. -/
def layout (d : Decimal) (range : PositionalRange) : String :=
  let digits := Nat.toDigits 10 d.digits
  let leading : Int := d.exponent + digits.length - 1
  if leading < range.least ∨ range.most < leading then
    let rest := digits.drop 1
    let point := if rest.isEmpty then "" else "." ++ String.ofList rest
    String.ofList (digits.take 1) ++ point ++ "e" ++ exponentText leading
  else if 0 ≤ d.exponent then
    String.ofList digits ++ zeros d.exponent.toNat ++ ".0"
  else if 0 ≤ leading then
    let whole := (leading + 1).toNat
    String.ofList (digits.take whole) ++ "." ++ String.ofList (digits.drop whole)
  else
    "0." ++ zeros (-leading - 1).toNat ++ String.ofList digits

/-- The shortest text that reads back; a double always shows a point or an exponent. -/
def text (x : Binary64) : String :=
  let magnitude := if x.place = 0 then "0.0" else layout (shortest x.place) Number.positional
  if x.negative then "-" ++ magnitude else magnitude

end Binary64

def Number.text : Number → String
  | .integer i _ => toString i
  | .double x => x.text

end QueryLayer
