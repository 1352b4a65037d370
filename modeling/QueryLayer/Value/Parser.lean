import QueryLayer.Value.Written

/-! # Reading JSON text

A text is cut into tokens, and the tokens drive a stack of unfinished containers. `readWritten?`
answers what is written down, however deep it nests; `read?` answers its value.
-/
namespace QueryLayer.Value

inductive Token where
  | openArray
  | closeArray
  | openObject
  | closeObject
  | comma
  | colon
  | text (content : Option String)
  | scalar (v : Option Value)
deriving DecidableEq

/-- What the reader is inside of; collected characters are in reverse, those of a text by number. -/
inductive Inside where
  | nothing
  | text (done : List Nat)
  | number (done : List Char)
  | word (done : List Char)

def isBlankChar (c : Char) : Bool := c = ' ' || c = '\t' || c = '\n' || c = '\r'

def isNumberChar (c : Char) : Bool :=
  c.isDigit || c = '-' || c = '+' || c = '.' || c = 'e' || c = 'E'

def hexValue? (c : Char) : Option Nat :=
  if c.isDigit then some (c.toNat - '0'.toNat)
  else if 'a' ≤ c ∧ c ≤ 'f' then some (c.toNat - 'a'.toNat + 10)
  else if 'A' ≤ c ∧ c ≤ 'F' then some (c.toNat - 'A'.toNat + 10)
  else none

def hexValue4? (a b c d : Char) : Option Nat := do
  let a ← hexValue? a
  let b ← hexValue? b
  let c ← hexValue? c
  let d ← hexValue? d
  pure (((a * 16 + b) * 16 + c) * 16 + d)

/-- The character of a one-letter escape. -/
def escaped? : Char → Option Char
  | '"' => some '"'
  | '\\' => some '\\'
  | '/' => some '/'
  | 'b' => some (Char.ofNat 8)
  | 'f' => some (Char.ofNat 12)
  | 'n' => some '\n'
  | 'r' => some '\r'
  | 't' => some '\t'
  | _ => none

def isHighSurrogate (code : Nat) : Bool := 0xD800 ≤ code && code < 0xDC00

def isLowSurrogate (code : Nat) : Bool := 0xDC00 ≤ code && code < 0xE000

/-- The text of characters by number, in reverse, in front of `tail`. A high surrogate and the low
one after it are one character; half a pair is none. -/
def textOf? (tail : List Char) : List Nat → Option String
  | [] => some (String.ofList tail)
  | code :: before =>
    if isLowSurrogate code then
      match before with
      | high :: before =>
        if isHighSurrogate high then
          textOf? (Char.ofNat (0x10000 + (high - 0xD800) * 0x400 + (code - 0xDC00)) :: tail) before
        else none
      | [] => none
    else if isHighSurrogate code then none
    else textOf? (Char.ofNat code :: tail) before

def digitsValue (digits : List Char) : Nat :=
  digits.foldl (fun acc c => acc * 10 + (c.toNat - '0'.toNat)) 0

/-- An exponent part: nothing, or `e` with an optional sign and digits. -/
def exponentPart? : List Char → Option Int
  | [] => some 0
  | c :: rest =>
    if c = 'e' || c = 'E' then
      let (negative, digits) := match rest with
        | '-' :: ds => (true, ds)
        | '+' :: ds => (false, ds)
        | ds => (false, ds)
      if digits.isEmpty || !digits.all Char.isDigit then none
      else some (if negative then -(digitsValue digits : Int) else digitsValue digits)
    else none

/-- A number, if it is not too large, from an optional minus, digits without a leading zero, a
fraction and an exponent. -/
def numberOfText? (chars : List Char) : Option (Option Number) :=
  let (negative, body) := match chars with
    | '-' :: rest => (true, rest)
    | rest => (false, rest)
  let whole := body.takeWhile Char.isDigit
  let rest := body.dropWhile Char.isDigit
  if whole.isEmpty || (whole.length > 1 && whole.head? = some '0') then none
  else match rest with
    | [] => some (Number.ofIntegerText negative (digitsValue whole))
    | '.' :: more =>
      let fraction := more.takeWhile Char.isDigit
      if fraction.isEmpty then none
      else do
        let e ← exponentPart? (more.dropWhile Char.isDigit)
        pure (Number.ofDecimalText negative (digitsValue (whole ++ fraction)) (e - fraction.length))
    | more => do
      let e ← exponentPart? more
      pure (Number.ofDecimalText negative (digitsValue whole) e)

def word? : List Char → Option Value
  | ['n', 'u', 'l', 'l'] => some null
  | ['t', 'r', 'u', 'e'] => some (bool true)
  | ['f', 'a', 'l', 's', 'e'] => some (bool false)
  | _ => none

/-- The effect of a character outside of any scalar. -/
def start? (c : Char) (tokens : List Token) : Option (Inside × List Token) :=
  if isBlankChar c then some (.nothing, tokens)
  else match c with
    | '[' => some (.nothing, .openArray :: tokens)
    | ']' => some (.nothing, .closeArray :: tokens)
    | '\x7b' => some (.nothing, .openObject :: tokens)
    | '\x7d' => some (.nothing, .closeObject :: tokens)
    | ',' => some (.nothing, .comma :: tokens)
    | ':' => some (.nothing, .colon :: tokens)
    | '"' => some (.text [], tokens)
    | c =>
      if c.isDigit || c = '-' then some (.number [c], tokens)
      else if c.isLower then some (.word [c], tokens)
      else none

/-- Ends a number or a word. -/
def finish? (inside : Inside) (tokens : List Token) : Option (List Token) :=
  match inside with
  | .nothing => some tokens
  | .text .. => none
  | .number done => (numberOfText? done.reverse).map fun n => .scalar (n.map number) :: tokens
  | .word done => (word? done.reverse).map fun v => .scalar (some v) :: tokens

/-- The tokens of a text, in reverse. -/
def lex? (inside : Inside) (tokens : List Token) : List Char → Option (List Token)
  | [] => finish? inside tokens
  | c :: cs =>
    match inside with
    | .text done =>
      if c = '"' then lex? .nothing (.text (textOf? [] done) :: tokens) cs
      else if c = '\\' then
        match cs with
        | 'u' :: h1 :: h2 :: h3 :: h4 :: rest =>
          match hexValue4? h1 h2 h3 h4 with
          | none => none
          | some code => lex? (.text (code :: done)) tokens rest
        | e :: rest =>
          match escaped? e with
          | none => none
          | some c => lex? (.text (c.toNat :: done)) tokens rest
        | [] => none
      else if c.toNat < 32 then none
      else lex? (.text (c.toNat :: done)) tokens cs
    | .number done =>
      if isNumberChar c then lex? (.number (c :: done)) tokens cs
      else match (finish? inside tokens).bind (start? c) with
        | none => none
        | some (next, tokens) => lex? next tokens cs
    | .word done =>
      if c.isLower then lex? (.word (c :: done)) tokens cs
      else match (finish? inside tokens).bind (start? c) with
        | none => none
        | some (next, tokens) => lex? next tokens cs
    | .nothing =>
      match start? c tokens with
      | none => none
      | some (next, tokens) => lex? next tokens cs

/-- A container that is not closed yet; items are in reverse. -/
inductive Frame where
  | array (items : List Written)
  | object (members : List (Option String × Written)) (key : Option String)

/-- What may come next. -/
inductive Awaits where
  | value
  | valueOrClose
  | separator
  | key
  | keyOrClose
  | colon
  | nothing (result : Written)

structure Reading where
  stack : List Frame
  awaits : Awaits

/-- Hands a finished value to the innermost open container. -/
def Reading.deliver (stack : List Frame) (w : Written) : Reading :=
  match stack with
  | [] => ⟨[], .nothing w⟩
  | .array items :: outer => ⟨.array (w :: items) :: outer, .separator⟩
  | .object members key :: outer => ⟨.object ((key, w) :: members) key :: outer, .separator⟩

def Reading.step? (r : Reading) (token : Token) : Option Reading :=
  match r.awaits, token, r.stack with
  | .value, .scalar v, stack | .valueOrClose, .scalar v, stack => some (deliver stack (.scalar v))
  | .value, .text s, stack | .valueOrClose, .text s, stack =>
    some (deliver stack (.scalar (s.map text)))
  | .value, .openArray, stack | .valueOrClose, .openArray, stack =>
    some ⟨.array [] :: stack, .valueOrClose⟩
  | .value, .openObject, stack | .valueOrClose, .openObject, stack =>
    some ⟨.object [] none :: stack, .keyOrClose⟩
  | .valueOrClose, .closeArray, .array items :: outer
  | .separator, .closeArray, .array items :: outer => some (deliver outer (.array items.reverse))
  | .separator, .comma, .array items :: outer => some ⟨.array items :: outer, .value⟩
  | .separator, .comma, .object members key :: outer => some ⟨.object members key :: outer, .key⟩
  | .keyOrClose, .closeObject, .object members _ :: outer
  | .separator, .closeObject, .object members _ :: outer =>
    some (deliver outer (.object members.reverse))
  | .key, .text key, .object members _ :: outer
  | .keyOrClose, .text key, .object members _ :: outer =>
    some ⟨.object members key :: outer, .colon⟩
  | .colon, .colon, stack => some ⟨stack, .value⟩
  | _, _, _ => none

def Reading.run? (r : Reading) : List Token → Option Reading
  | [] => some r
  | t :: ts =>
    match r.step? t with
    | none => none
    | some r => r.run? ts

/-- What a text writes down. -/
def readWritten? (s : String) : Option Written := do
  let tokens ← lex? .nothing [] s.toList
  let r ← Reading.run? ⟨[], .value⟩ tokens.reverse
  match r.awaits with
  | .nothing w => some w
  | _ => none

/-- The value of a text. -/
def read? (s : String) : Option Value := (readWritten? s).bind (Written.value? Written.maxDepth)

end QueryLayer.Value
