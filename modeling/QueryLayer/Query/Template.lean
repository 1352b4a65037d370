import QueryLayer.Text.Search
import QueryLayer.Value.Basic

/-! # Templates

A value with holes. A text that is the hole itself stands for the value put in; in any other text
each hole is replaced when the value is a text. Names of members are left alone.
-/
namespace QueryLayer.Template

def hole : String := "$value"

/-- Puts `text` in the place of each hole, from left to right; `skip` characters of a hole are still
to be passed over. -/
def fillChars (text : List Char) : Nat → List Char → List Char
  | _, [] => []
  | skip + 1, _ :: cs => fillChars text skip cs
  | 0, c :: cs =>
    if hole.toList.isPrefixOf (c :: cs) then text ++ fillChars text (hole.toList.length - 1) cs
    else c :: fillChars text 0 cs

def fillText (s : String) (v : Value) : Value :=
  if s = hole then v
  else match v with
    | .text t => .text (String.ofList (fillChars t.toList 0 s.toList))
    | _ => .text s

mutual

def fill (v : Value) : Value → Value
  | .text s => fillText s v
  | .array items => .array (fillItems v items)
  | .object members => .object (fillMembers v members)
  | other => other

def fillItems (v : Value) : List Value → List Value
  | [] => []
  | item :: rest => fill v item :: fillItems v rest

def fillMembers (v : Value) : List (String × Value) → List (String × Value)
  | [] => []
  | (name, item) :: rest => (name, fill v item) :: fillMembers v rest

end

end QueryLayer.Template
