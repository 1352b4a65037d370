import QueryLayer.Time.Date

/-! # Moments

Points in time, counted in milliseconds from the first of January 1970, in universal time.
-/
namespace QueryLayer

structure Moment where
  milliseconds : Int
deriving DecidableEq

namespace Moment

/-- The day number of the first of January 1970. -/
def epochDay : Int := 719163

def millisecondsPerDay : Int := 86400000

def date (m : Moment) : Date := .ofNumber (epochDay + m.milliseconds / millisecondsPerDay)

/-- Milliseconds since midnight. -/
def ofDay (m : Moment) : Nat := (m.milliseconds % millisecondsPerDay).toNat

/-- Hours, minutes and seconds separated by colons. -/
def clock (m : Moment) : String :=
  let seconds := m.ofDay / 1000
  Date.padded 2 (seconds / 3600) ++ ":" ++ Date.padded 2 (seconds / 60 % 60) ++ ":" ++
    Date.padded 2 (seconds % 60)

/-- A point and three digits. -/
def fraction (m : Moment) : String := "." ++ Date.padded 3 (m.ofDay % 1000)

/-- Date, clock and offset; a fraction of zero is left out. -/
def internet (m : Moment) : String :=
  m.date.text ++ "T" ++ m.clock ++ (if m.ofDay % 1000 = 0 then "" else m.fraction) ++ "+00:00"

/-- Date and clock separated by a blank, always with the fraction. -/
def plain (m : Moment) : String := m.date.text ++ " " ++ m.clock ++ m.fraction

end Moment

end QueryLayer
