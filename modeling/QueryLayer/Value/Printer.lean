import QueryLayer.Text.Hex
import QueryLayer.Value.Basic

/-! # Compact text of values

The JSON text of a value without blanks. Texts are escaped only where JSON requires it, and object
members appear in their order, so equal values have equal texts.
-/
namespace QueryLayer.Value

/-- Quotes, backslashes and control characters have escapes; everything else stands for itself. -/
def escapeChar (c : Char) : String :=
  match c with
  | '"' => "\\\""
  | '\\' => "\\\\"
  | '\n' => "\\n"
  | '\r' => "\\r"
  | '\t' => "\\t"
  | c =>
    if c.toNat = 8 then "\\b"
    else if c.toNat = 12 then "\\f"
    else if c.toNat < 32 then
      String.ofList ['\\', 'u', '0', '0', Text.hexDigit (c.toNat / 16), Text.hexDigit (c.toNat % 16)]
    else c.toString

def quote (s : String) : String :=
  s.toList.foldl (fun out c => out ++ escapeChar c) "\"" ++ "\""

mutual

/-- Appends the text of a value. -/
def print (out : String) : Value → String
  | null => out ++ "null"
  | bool b => out ++ if b then "true" else "false"
  | number n => out ++ n.text
  | text s => out ++ quote s
  | array items => printItems (out ++ "[") true items ++ "]"
  | object members => printMembers (out ++ "\x7b") true members ++ "\x7d"

def printItems (out : String) (first : Bool) : List Value → String
  | [] => out
  | v :: rest => printItems (print (if first then out else out ++ ",") v) false rest

def printMembers (out : String) (first : Bool) : List (String × Value) → String
  | [] => out
  | (k, v) :: rest =>
    printMembers (print ((if first then out else out ++ ",") ++ quote k ++ ":") v) false rest

end

def compact (v : Value) : String := print "" v

end QueryLayer.Value
