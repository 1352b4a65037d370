import QueryLayer.Value.Written

/-! # Shapes of written data

Typed data is read from a text part by part. What a reader does not ask for is passed by: it has to
be well-formed, but it need not have a value, and it may nest to any depth. A member that a reader
asks for stands there once.
-/
namespace QueryLayer.Wire

/-- Which parts of a written value a reader asks for. -/
inductive Shape where
  /-- The whole. -/
  | any
  /-- One of several names. -/
  | choice
  | items (each : Shape)
  /-- Some members of an object, or all in declared order as an array. -/
  | object (known : List (String × Shape))
  /-- Some members of an object, of which the reader gathers all before it looks at them. -/
  | gathered (known : List (String × Shape))

/-- The names of members, which are always read. -/
def named? : List (Option String × Written) → Option (List (String × Written))
  | [] => some []
  | (key, w) :: rest => do
    let key ← key
    let rest ← named? rest
    pure ((key, w) :: rest)

/-- What a reader of choices sees: an object has one member. -/
def choice? (room : Nat) : Written → Option Value
  | .object [m] => Written.value? room (.object [m])
  | .object _ => none
  | w => w.value? room

/-- Whether all members have a value. -/
def isWhole (room : Nat) (members : List (String × Written)) : Bool :=
  members.all fun m => (m.2.value? room).isSome

mutual

/-- What a reader sees of a written value, whose containers may nest `room` deep. -/
def Shape.read? (room : Nat) (w : Written) : Shape → Option Value
  | .any => w.value? room
  | .choice => choice? room w
  | .items each =>
    match w, room with
    | .array items, room + 1 => (items.mapM fun w => each.read? room w).map .array
    | w, room => w.value? room
  | .object known =>
    match w, room with
    | .object members, room + 1 => do
      let members ← named? members
      let kept ← readMembers? room members known
      pure (.object (Entries.ofList kept))
    | .array items, room + 1 => (readListed? room items known).map .array
    | w, room => w.value? room
  | .gathered known =>
    match w, room with
    | .object members, room + 1 => do
      let members ← named? members
      let kept ← readMembers? room members known
      if isWhole room (members.filter fun m => !known.any (·.1 = m.1)) then
        pure (.object (Entries.ofList kept))
      else none
    | w, room => w.value? room

/-- The members that are asked for, of those that are there. -/
def readMembers? (room : Nat) (members : List (String × Written)) :
    List (String × Shape) → Option (List (String × Value))
  | [] => some []
  | (name, shape) :: rest => do
    let kept ← readMembers? room members rest
    match members.filter fun m => m.1 = name with
    | [] => pure kept
    | [m] => do
      let v ← shape.read? room m.2
      pure ((name, v) :: kept)
    | _ => none

/-- Members in declared order; the last ones may be missing. -/
def readListed? (room : Nat) (items : List Written) : List (String × Shape) → Option (List Value)
  | [] => if items.isEmpty then some [] else none
  | (_, shape) :: rest =>
    match items with
    | [] => some []
    | w :: items => do
      let v ← shape.read? room w
      let listed ← readListed? room items rest
      pure (v :: listed)

end

end QueryLayer.Wire
