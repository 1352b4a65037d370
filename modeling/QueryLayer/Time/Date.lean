/-! # Calendar dates

Dates of the proleptic Gregorian calendar, with years from -262143 to 262142. A day is numbered
from 1 on the first of January of year 1, a Monday.
-/
namespace QueryLayer

structure Date where
  year : Int
  month : Nat
  day : Nat
deriving DecidableEq

/-- The spans that dates are grouped by. -/
inductive DateUnit where
  | year
  | month
  | week
  | day
deriving DecidableEq

namespace Date

def leastYear : Int := -262143

def greatestYear : Int := 262142

def isLeap (year : Int) : Bool := year % 4 = 0 && (year % 100 ≠ 0 || year % 400 = 0)

def daysInMonth (year : Int) (month : Nat) : Nat :=
  match month with
  | 2 => if isLeap year then 29 else 28
  | 4 | 6 | 9 | 11 => 30
  | _ => 31

/-- The date exists and its year is in range. -/
def Valid (d : Date) : Prop :=
  leastYear ≤ d.year ∧ d.year ≤ greatestYear ∧ 1 ≤ d.month ∧ d.month ≤ 12 ∧
    1 ≤ d.day ∧ d.day ≤ daysInMonth d.year d.month

instance (d : Date) : Decidable d.Valid := inferInstanceAs (Decidable (_ ∧ _))

def ofYmd? (year : Int) (month day : Nat) : Option Date :=
  let d : Date := ⟨year, month, day⟩
  if d.Valid then some d else none

/-- The number of days in the years before this one, counted from year 1. -/
def daysBeforeYear (year : Int) : Int :=
  let y := year - 1
  365 * y + y / 4 - y / 100 + y / 400

def daysBeforeMonth (year : Int) : Nat → Nat
  | 0 | 1 => 0
  | month + 1 => daysBeforeMonth year month + daysInMonth year month

def number (d : Date) : Int := daysBeforeYear d.year + daysBeforeMonth d.year d.month + d.day

/-- Days since the Monday of the week. -/
def weekday (d : Date) : Nat := ((d.number - 1) % 7).toNat

/-- The day before. -/
def previous (d : Date) : Date :=
  if 1 < d.day then { d with day := d.day - 1 }
  else if 1 < d.month then ⟨d.year, d.month - 1, daysInMonth d.year (d.month - 1)⟩
  else ⟨d.year - 1, 12, 31⟩

def back : Nat → Date → Date
  | 0, d => d
  | n + 1, d => back n d.previous

/-- The first day of the span that holds a date; `none` for a Monday out of range. -/
def startOf? (unit : DateUnit) (d : Date) : Option Date :=
  match unit with
  | .year => some ⟨d.year, 1, 1⟩
  | .month => some ⟨d.year, d.month, 1⟩
  | .week =>
    let monday := back d.weekday d
    if monday.Valid then some monday else none
  | .day => some d

/-- The month and day of the zero-based day of a year. -/
def monthDay (year : Int) : Nat → Nat → Nat → Nat × Nat
  | 0, month, day => (month, day + 1)
  | fuel + 1, month, day =>
    let length := daysInMonth year month
    if day < length then (month, day + 1) else monthDay year fuel (month + 1) (day - length)

/-- The date of a day number. -/
def ofNumber (n : Int) : Date :=
  let day := n - 1
  let cycle := day / 146097
  let inCycle := (day % 146097).toNat
  let century := min 3 (inCycle / 36524)
  let inCentury := inCycle - century * 36524
  let four := inCentury / 1461
  let inFour := inCentury - four * 1461
  let one := min 3 (inFour / 365)
  let year := cycle * 400 + century * 100 + four * 4 + one + 1
  let (month, day) := monthDay year 11 1 (inFour - one * 365)
  ⟨year, month, day⟩

def padded (width n : Nat) : String :=
  let digits := toString n
  String.ofList (List.replicate (width - digits.length) '0') ++ digits

/-- Four digits at least; years out of 0 to 9999 carry a sign. -/
def yearText (year : Int) : String :=
  if year < 0 then "-" ++ padded 4 year.natAbs
  else if 9999 < year then "+" ++ padded 4 year.natAbs
  else padded 4 year.natAbs

/-- Year, month and day separated by hyphens. -/
def text (d : Date) : String :=
  yearText d.year ++ "-" ++ padded 2 d.month ++ "-" ++ padded 2 d.day

end Date

end QueryLayer
