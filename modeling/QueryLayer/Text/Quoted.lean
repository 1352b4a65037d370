import QueryLayer.Text.HiddenTable
import QueryLayer.Text.Ranges

/-! # Quoted texts

A text between quotes, as a message shows it. Nothing in the quoted form is hidden: what has no
shape of its own is written by its number.
-/
namespace QueryLayer.Text

def isHidden (c : Char) : Bool :=
  if 0x20 ≤ c.toNat ∧ c.toNat < 0x7F then false else inRanges hiddenRanges c

/-- A character in a message: the usual short escapes, and the number of a hidden character. -/
def shownChar (c : Char) : List Char :=
  match c with
  | '\x00' => ['\\', '0']
  | '\t' => ['\\', 't']
  | '\n' => ['\\', 'n']
  | '\r' => ['\\', 'r']
  | '"' => ['\\', '"']
  | '\\' => ['\\', '\\']
  | c =>
    if isHidden c then ['\\', 'u', '\x7b'] ++ Nat.toDigits 16 c.toNat ++ ['\x7d'] else [c]

def quoted (s : String) : String :=
  String.ofList ('"' :: s.toList.flatMap shownChar ++ ['"'])

end QueryLayer.Text
