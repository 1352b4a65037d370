import QueryLayer.Number.Binary64

/-! # Shortest decimals

The decimal with the fewest digits among those that round back to a number; of two, the nearer one,
and of two equally near the one whose last digit is even. Only the two neighbours of the number on
each decimal grid have to be tried: if any point of a grid rounds back, one of them does.
-/
namespace QueryLayer.Binary64

/-- A decimal `digits * 10 ^ exponent`. -/
structure Decimal where
  digits : Nat
  exponent : Int
deriving DecidableEq

/-- Twice a number and twice the bounds of what rounds to it, over a common denominator. -/
structure Interval where
  low : Nat
  value : Nat
  high : Nat
  denominator : Nat
  closed : Bool

/-- The interval of a positive place. The bounds themselves round to an even place only. -/
def interval (place : Nat) : Interval where
  low := units (place - 1) + units place
  value := 2 * units place
  high := units place + units (place + 1)
  denominator := Nat.pow 2 1075
  closed := place % 2 = 0

/-- The interval seen with its unit multiplied by `10 ^ (-shift)`. -/
def Interval.scale (i : Interval) (shift : Int) : Interval :=
  let power := Nat.pow 10 shift.natAbs
  if shift < 0 then { i with denominator := i.denominator * power }
  else { i with low := i.low * power, value := i.value * power, high := i.high * power }

def Interval.holds (i : Interval) (n : Nat) : Bool :=
  let x := n * i.denominator
  if i.closed then i.low ≤ x && x ≤ i.high else i.low < x && x < i.high

/-- The integer nearest to the value among its two neighbours that the interval holds. -/
def Interval.neighbour? (i : Interval) : Option Nat :=
  let below := i.value / i.denominator
  let above := below + 1
  match i.holds below, i.holds above with
  | true, false => some below
  | false, true => some above
  | false, false => none
  | true, true => some (roundHalfEven i.value i.denominator)

/-- The least `k` up to `fuel` steps away with `value * 10 ^ k` at least the denominator. -/
def stepsToOne (value denominator : Nat) : Nat → Nat → Nat
  | 0, k => k
  | fuel + 1, k => if denominator ≤ value then k else stepsToOne (value * 10) denominator fuel (k + 1)

/-- The power of ten of the leading digit. -/
def Interval.leading (i : Interval) : Int :=
  if i.denominator ≤ i.value then (Nat.toDigits 10 (i.value / i.denominator)).length - 1
  else -(stepsToOne i.value i.denominator 400 0 : Int)

def shortestFrom (i : Interval) (leading : Int) : Nat → Nat → Decimal
  | 0, count =>
    let s := i.scale (count - 1 - leading)
    ⟨roundHalfEven s.value s.denominator, leading + 1 - count⟩
  | fuel + 1, count =>
    match (i.scale (count - 1 - leading)).neighbour? with
    | some digits =>
      -- the upper neighbour may be the next power of ten
      if digits = Nat.pow 10 count then ⟨1, leading + 1⟩ else ⟨digits, leading + 1 - count⟩
    | none => shortestFrom i leading fuel (count + 1)

/-- The shortest decimal of a positive place: seventeen digits are always enough. -/
def shortest (place : Nat) : Decimal :=
  let i := interval place
  shortestFrom i i.leading 16 1

end QueryLayer.Binary64
