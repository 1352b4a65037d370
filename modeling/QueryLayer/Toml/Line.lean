import QueryLayer.Value.Parser

/-! # Lines of TOML

A line opens a table, assigns a value to a key, or holds at most a comment. Values are integers,
booleans and quoted texts that end on their line.
-/
namespace QueryLayer.Toml

inductive Line where
  | blank
  | header (path : List String)
  | assign (path : List String) (value : Value)
deriving DecidableEq

def isBlank (c : Char) : Bool := c = ' ' || c = '\t'

/-- Characters that no line may hold as they are. -/
def isControl (c : Char) : Bool := (c.toNat < 32 && c ≠ '\t') || c.toNat = 127

def isBare (c : Char) : Bool := c.isAlphanum || c = '_' || c = '-'

def skip (cs : List Char) : List Char := cs.dropWhile isBlank

/-- The character with a code, if there is one. -/
def scalar? (code : Nat) : Option Char :=
  if code.isValidChar then some (Char.ofNat code) else none

/-- The rest of a basic text and what follows its closing quote. -/
def basic? : List Char → Option (List Char × List Char)
  | [] => none
  | '"' :: rest => some ([], rest)
  | '\\' :: 'u' :: a :: b :: c :: d :: rest => do
    let c ← scalar? (← Value.hexValue4? a b c d)
    let (content, rest) ← basic? rest
    pure (c :: content, rest)
  | '\\' :: 'U' :: a :: b :: c :: d :: e :: f :: g :: h :: rest => do
    let c ← scalar? ((← Value.hexValue4? a b c d) * 65536 + (← Value.hexValue4? e f g h))
    let (content, rest) ← basic? rest
    pure (c :: content, rest)
  | '\\' :: e :: rest => do
    let c ← if e = '/' then none else Value.escaped? e
    let (content, rest) ← basic? rest
    pure (c :: content, rest)
  | c :: rest => do
    let (content, rest) ← basic? rest
    pure (c :: content, rest)

/-- The rest of a literal text, in which nothing is escaped, and what follows it. -/
def literal? : List Char → Option (List Char × List Char)
  | [] => none
  | '\'' :: rest => some ([], rest)
  | c :: rest => do
    let (content, rest) ← literal? rest
    pure (c :: content, rest)

/-- A quoted text and what follows. Three quotes in a row open no text of one line. -/
def quoted? : List Char → Option (String × List Char)
  | '"' :: '"' :: '"' :: _ => none
  | '\'' :: '\'' :: '\'' :: _ => none
  | '"' :: rest => do
    let (content, rest) ← basic? rest
    pure (String.ofList content, rest)
  | '\'' :: rest => do
    let (content, rest) ← literal? rest
    pure (String.ofList content, rest)
  | _ => none

def name? (cs : List Char) : Option (String × List Char) :=
  match cs.takeWhile isBare with
  | [] => quoted? cs
  | bare => some (String.ofList bare, cs.dropWhile isBare)

/-- The most names that a key or a header may have. -/
def longestPath : Nat := 79

/-- Names separated by points, at most `most` of them. -/
def path? : (most : Nat) → List Char → Option (List String × List Char)
  | 0, _ => none
  | most + 1, cs => do
    let (name, rest) ← name? cs
    match skip rest with
    | '.' :: rest => do
      let (names, rest) ← path? most (skip rest)
      pure (name :: names, rest)
    | rest => pure ([name], rest)

/-- The digits of a number, with single underscores between them left out. -/
def digits? (isDigit : Char → Bool) : List Char → Option (List Char)
  | [] => none
  | [c] => if isDigit c then some [c] else none
  | c :: '_' :: rest => if isDigit c then (digits? isDigit rest).map (c :: ·) else none
  | c :: rest => if isDigit c then (digits? isDigit rest).map (c :: ·) else none

def based? (base : Nat) (cs : List Char) : Option Nat := do
  let digits ← digits? (fun c => (Value.hexValue? c).any (· < base)) cs
  pure (digits.foldl (fun n c => n * base + (Value.hexValue? c).getD 0) 0)

/-- Decimal digits without a leading zero. -/
def decimal? (cs : List Char) : Option Nat :=
  match cs with
  | '0' :: _ :: _ => none
  | cs => based? 10 cs

def integer? (cs : List Char) : Option Int :=
  match cs with
  | '0' :: 'x' :: cs => (based? 16 cs).map Int.ofNat
  | '0' :: 'o' :: cs => (based? 8 cs).map Int.ofNat
  | '0' :: 'b' :: cs => (based? 2 cs).map Int.ofNat
  | '+' :: cs => (decimal? cs).map Int.ofNat
  | '-' :: cs => (decimal? cs).map fun n => -(n : Int)
  | cs => (decimal? cs).map Int.ofNat

/-- An integer of 64 bits with sign, or a boolean. -/
def word? (cs : List Char) : Option Value :=
  match Value.word? cs with
  | some (.bool b) => some (.bool b)
  | _ => do
    let i ← integer? cs
    if -9223372036854775808 ≤ i ∧ i < 9223372036854775808 then some (.int i) else none

def value? (cs : List Char) : Option (Value × List Char) :=
  match cs with
  | '"' :: _ | '\'' :: _ => (quoted? cs).map fun e => (.text e.1, e.2)
  | cs =>
    let ends (c : Char) : Bool := isBlank c || c = '#'
    (word? (cs.takeWhile fun c => !ends c)).map fun v => (v, cs.dropWhile fun c => !ends c)

/-- Nothing is left but a comment. -/
def ended (cs : List Char) : Bool :=
  match skip cs with
  | [] | '#' :: _ => true
  | _ => false

def Line.read? (cs : List Char) : Option Line :=
  if cs.any isControl then none
  else if ended cs then some .blank
  else match skip cs with
    | '[' :: rest => do
      match ← path? longestPath (skip rest) with
      | (path, ']' :: rest) => if ended rest then some (.header path) else none
      | _ => none
    | cs => do
      match ← path? longestPath cs with
      | (path, '=' :: rest) => do
        let (value, rest) ← value? (skip rest)
        if ended rest then some (.assign path value) else none
      | _ => none

end QueryLayer.Toml
