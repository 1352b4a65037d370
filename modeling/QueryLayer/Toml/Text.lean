import QueryLayer.Text.Hex

/-! # Written texts in TOML

A text is written in the first of these forms that can hold it: on one line without escapes, on one
line in single quotes, on several lines without escapes, on several lines in single quotes, and
otherwise with escapes.
-/
namespace QueryLayer.Toml

/-- The length of the longest run of a character. -/
def longestRun (c : Char) (cs : List Char) : Nat :=
  (cs.foldl (fun (best, run) d => if d = c then (max best (run + 1), run + 1) else (best, 0))
    (0, 0)).1

def needsCode (c : Char) : Bool := (c.toNat < 32 && c ≠ '\t' && c ≠ '\n') || c.toNat = 127

def upperHexDigit (n : Nat) : Char := (Text.hexDigit n).toUpper

/-- The escape of a character that is not a quote. -/
def escapeChar (c : Char) : List Char :=
  match c with
  | '\t' => ['\\', 't']
  | '\n' => ['\\', 'n']
  | '\r' => ['\\', 'r']
  | '\\' => ['\\', '\\']
  | c =>
    if c.toNat = 8 then ['\\', 'b']
    else if c.toNat = 12 then ['\\', 'f']
    else if c.toNat < 32 ∨ c.toNat = 127 then
      ['\\', 'u', '0', '0', upperHexDigit (c.toNat / 16), upperHexDigit (c.toNat % 16)]
    else [c]

/-- Escapes a text; up to `quotes` quotes in a row stand for themselves, and so do line feeds if
`spread` holds. -/
def escape (quotes : Nat) (spread : Bool) (run : Nat) : List Char → List Char
  | [] => []
  | '"' :: rest =>
    if run < quotes then '"' :: escape quotes spread (run + 1) rest
    else '\\' :: '"' :: escape quotes spread 0 rest
  | c :: rest =>
    (if c = '\n' && spread then [c] else escapeChar c) ++ escape quotes spread 0 rest

def quote (s : String) : String :=
  let cs := s.toList
  let spread := cs.contains '\n'
  let coded := cs.any needsCode
  let escaped := coded || cs.contains '\\'
  let doubles := longestRun '"' cs
  let singles := longestRun '\'' cs
  let around (mark : String) (content : List Char) : String :=
    mark ++ (if mark.length = 3 && spread then "\n" else "") ++ String.ofList content ++ mark
  if !escaped && doubles = 0 && !spread then around "\"" (escape 0 false 0 cs)
  else if !coded && singles = 0 && !spread then around "'" cs
  else if !escaped && doubles ≤ 2 then around "\"\"\"" (escape 2 true 0 cs)
  else if !coded && singles ≤ 2 then around "'''" cs
  else if spread then around "\"\"\"" (escape 2 true 0 cs)
  else around "\"" (escape 0 false 0 cs)

end QueryLayer.Toml
