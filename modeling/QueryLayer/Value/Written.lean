import QueryLayer.Value.Basic

/-! # Written values

What a text writes down, before it is known which parts of it are read. Members of objects are as
they were written, repeated names included. Some scalars are well-formed and yet have no value: a
number beyond the doubles, and a text with half of a surrogate pair.
-/
namespace QueryLayer

inductive Written where
  | scalar (v : Option Value)
  | array (items : List Written)
  | object (members : List (Option String × Written))

namespace Written

/-- Containers that are read nest at most this deep. -/
def maxDepth : Nat := 127

mutual

/-- The value of a written one, whose containers may nest `room` deep. Members are put in name order;
the last of a repeated name wins. -/
def value? (room : Nat) : Written → Option Value
  | scalar v => v
  | array items =>
    match room with
    | 0 => none
    | room + 1 => (itemValues? room items).map .array
  | object members =>
    match room with
    | 0 => none
    | room + 1 => (memberValues? room members).map fun members => .object (Entries.ofList members)

def itemValues? (room : Nat) : List Written → Option (List Value)
  | [] => some []
  | w :: rest => do
    let v ← w.value? room
    let rest ← itemValues? room rest
    pure (v :: rest)

def memberValues? (room : Nat) : List (Option String × Written) → Option (List (String × Value))
  | [] => some []
  | (key, w) :: rest => do
    let key ← key
    let v ← w.value? room
    let rest ← memberValues? room rest
    pure ((key, v) :: rest)

end

end Written

end QueryLayer
