import QueryLayer.Time.Date

/-! # Texts of dates and times

Three formats: a date, a time of day, and a date with a time and an offset. In a date and in a time
of day blanks may stand before each number; the third format is strict. Nothing may follow.
-/
namespace QueryLayer.Time

/-- Unicode white space. -/
def isBlank (c : Char) : Bool :=
  let n := c.toNat
  (9 ≤ n && n ≤ 13) || n = 0x20 || n = 0x85 || n = 0xA0 || n = 0x1680 ||
    (0x2000 ≤ n && n ≤ 0x200A) || n = 0x2028 || n = 0x2029 || n = 0x202F || n = 0x205F || n = 0x3000

def skipBlanks (cs : List Char) : List Char := cs.dropWhile isBlank

def digitsValue (digits : List Char) : Nat :=
  digits.foldl (fun acc c => acc * 10 + (c.toNat - '0'.toNat)) 0

/-- A number of at least one and at most `most` digits, as many as there are. -/
def number? (most : Nat) (cs : List Char) : Option (Nat × List Char) :=
  let digits := (cs.take most).takeWhile Char.isDigit
  if digits.isEmpty then none else some (digitsValue digits, cs.drop digits.length)

/-- A number of exactly `width` digits. -/
def fixed? (width : Nat) (cs : List Char) : Option (Nat × List Char) :=
  let digits := cs.take width
  if digits.length = width && digits.all Char.isDigit then some (digitsValue digits, cs.drop width)
  else none

def char? (accepts : Char → Bool) : List Char → Option (List Char)
  | [] => none
  | c :: cs => if accepts c then some cs else none

/-- A year: four digits at most, or a sign and any number of digits. -/
def year? (cs : List Char) : Option (Int × List Char) :=
  match cs with
  | '-' :: rest => (number? rest.length rest).map fun r => (-(r.1 : Int), r.2)
  | '+' :: rest => (number? rest.length rest).map fun r => ((r.1 : Int), r.2)
  | rest => (number? 4 rest).map fun r => ((r.1 : Int), r.2)

/-- Year, month and day separated by hyphens. -/
def date? (s : String) : Option Date := do
  let (year, cs) ← year? (skipBlanks s.toList)
  let cs ← char? (· = '-') cs
  let (month, cs) ← number? 2 (skipBlanks cs)
  let cs ← char? (· = '-') cs
  let (day, cs) ← number? 2 (skipBlanks cs)
  if cs.isEmpty then Date.ofYmd? year month day else none

/-- A point and at least one digit. -/
def fraction? (cs : List Char) : Option (List Char) := do
  let cs ← char? (· = '.') cs
  let (_, cs) ← number? cs.length cs
  pure cs

/-- Hours and minutes, with seconds and a fraction of them or without. -/
def isTimeOfDay (s : String) : Bool :=
  (do
    let (hour, cs) ← number? 2 (skipBlanks s.toList)
    let cs ← char? (· = ':') cs
    let (minute, cs) ← number? 2 (skipBlanks cs)
    if 23 < hour || 59 < minute then none
    else if cs.isEmpty then some ()
    else do
      let cs ← char? (· = ':') cs
      let (second, cs) ← number? 2 (skipBlanks cs)
      if 60 < second then none
      else if cs.isEmpty then some ()
      else do
        let cs ← fraction? cs
        if cs.isEmpty then some () else none : Option Unit).isSome

/-- An offset from universal time: `Z`, or a sign with hours and minutes. -/
def isOffset (cs : List Char) : Bool :=
  match cs with
  | ['Z'] | ['z'] => true
  | cs =>
    (do
      let cs ← char? (fun c => c = '+' || c = '-' || c = '\u2212') cs
      let (hour, cs) ← fixed? 2 cs
      let cs ← char? (· = ':') cs
      let (minute, cs) ← fixed? 2 cs
      if hour ≤ 23 && minute ≤ 59 && cs.isEmpty then some () else none : Option Unit).isSome

/-- The date of a date-time, as it is written. -/
def dateTime? (s : String) : Option Date := do
  let (year, cs) ← fixed? 4 s.toList
  let cs ← char? (· = '-') cs
  let (month, cs) ← fixed? 2 cs
  let cs ← char? (· = '-') cs
  let (day, cs) ← fixed? 2 cs
  let cs ← char? (fun c => c = 'T' || c = 't' || c = ' ') cs
  let (hour, cs) ← fixed? 2 cs
  let cs ← char? (· = ':') cs
  let (minute, cs) ← fixed? 2 cs
  let cs ← char? (· = ':') cs
  let (second, cs) ← fixed? 2 cs
  let cs := (fraction? cs).getD cs
  if hour ≤ 23 && minute ≤ 59 && second ≤ 60 && isOffset cs then Date.ofYmd? year month day
  else none

/-- The date of a date or of a date-time. -/
def dateOfText? (s : String) : Option Date := (dateTime? s).orElse fun _ => date? s

end QueryLayer.Time
