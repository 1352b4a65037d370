import QueryLayer.Data.Dict
import QueryLayer.Text.Quoted
import QueryLayer.Value.Path
import QueryLayer.Value.Printer

/-! # Reading typed data from values

Combinators for the common wire rules: a missing optional member takes its default, unknown members
are ignored, and null is accepted only where it means that there is none. A structure may also be
written as an array of its members in declared order.
-/
namespace QueryLayer.Wire

abbrev Decoder (α : Type) := Value → Except String α

/-- What a value is, in the words of a reader that expected something else. -/
def describe : Value → String
  | .null => "null"
  | .bool b => "boolean `" ++ (if b then "true" else "false") ++ "`"
  | .number (.integer i _) => "integer `" ++ toString i ++ "`"
  | .number (.double x) => "floating point `" ++ x.text ++ "`"
  | .text s => "string " ++ Text.quoted s
  | .array _ => "sequence"
  | .object _ => "map"

def unexpected {α : Type} (v : Value) (expected : String) : Except String α :=
  .error ("invalid type: " ++ describe v ++ ", expected " ++ expected)

/-- Any value, as it is. -/
def raw : Decoder Value := .ok

def text : Decoder String
  | .text s => .ok s
  | v => unexpected v "a string"

def flag : Decoder Bool
  | .bool b => .ok b
  | v => unexpected v "a boolean"

/-- A natural number below `limit`, written as an integer. -/
def natural (limit : Nat) : Decoder Nat
  | .number n =>
    match n.toUInt64? with
    | some k => if k < limit then .ok k else unexpected (.number n) "a smaller number"
    | none => unexpected (.number n) "a natural number"
  | v => unexpected v "a natural number"

def size : Decoder Nat := natural (Nat.pow 2 64)

def record : Decoder Record
  | .object members => .ok members
  | v => unexpected v "a map"

/-- Null stands for nothing. -/
def nullable {α : Type} (d : Decoder α) : Decoder (Option α)
  | .null => .ok none
  | v => (d v).map some

def list {α : Type} (d : Decoder α) : Decoder (List α)
  | .array items => items.mapM d
  | v => unexpected v "a sequence"

def decodeEntries {α : Type} (d : Decoder α) : List (String × Value) → Except String (List (String × α))
  | [] => .ok []
  | (k, v) :: rest => do
    let a ← d v
    let rest ← decodeEntries d rest
    pure ((k, a) :: rest)

def dict {α : Type} (d : Decoder α) : Decoder (Dict α)
  | .object members => (decodeEntries d members).map Dict.ofList
  | v => unexpected v "a map"

/-- The alternatives as an error text lists them. -/
def alternatives (names : List String) : String :=
  match names.map fun n => "`" ++ n ++ "`" with
  | [] => "no variant"
  | [a] => a
  | [a, b] => a ++ " or " ++ b
  | all => "one of " ++ String.intercalate ", " all

/-- How a choice without content may be written as an object. -/
inductive Manner where
  /-- Its name is the one member, and null the value. -/
  | strict
  /-- An empty object is as good as null. -/
  | lenient
deriving DecidableEq

/-- Whether a value says that there is no content. -/
def Manner.isNothing : Manner → Value → Bool
  | _, .null => true
  | lenient, .object [] => true
  | _, _ => false

/-- One of several names, as a text or as the one member of an object without content. -/
def choice {α : Type} (manner : Manner) (options : List (String × α)) : Decoder α := fun v =>
  let named (s : String) : Except String α :=
    match options.find? fun o => o.1 = s with
    | some o => .ok o.2
    | none => .error ("unknown variant `" ++ s ++ "`, expected " ++ alternatives (options.map Prod.fst))
  match v with
  | .text s => named s
  | .object [(s, content)] => do
    let a ← named s
    if manner.isNothing content then pure a else unexpected content "unit"
  | .object _ => .error "invalid value: map, expected map with a single key"
  | v => unexpected v "string or map"

/-- The members of a structure: by name, or in declared order. -/
inductive Members where
  | named (members : Record)
  | listed (items : List Value)

abbrev MemberReader := StateT Members (Except String)

/-- The member of this name, or the next one. -/
def take? (name : String) : MemberReader (Option Value) := do
  match ← get with
  | .named members => pure (Record.get? members name)
  | .listed [] => pure none
  | .listed (v :: rest) =>
    set (Members.listed rest)
    pure (some v)

def required {α : Type} (name : String) (d : Decoder α) : MemberReader α := do
  match ← take? name with
  | some v => (d v : Except String α)
  | none => throw ("missing field `" ++ name ++ "`")

def optional {α : Type} (name : String) (d : Decoder α) (default : α) : MemberReader α := do
  match ← take? name with
  | some v => (d v : Except String α)
  | none => pure default

/-- An optional member for which null counts as missing. -/
def maybe {α : Type} (name : String) (d : Decoder α) : MemberReader (Option α) :=
  optional name (nullable d) none

/-- A structure by name or in declared order, with nothing left over in the second case. -/
def fields {α : Type} (reader : MemberReader α) : Decoder α
  | .object members => (reader.run (.named members)).map Prod.fst
  | .array items => do
    let (a, rest) ← reader.run (.listed items)
    match rest with
    | .listed [] => pure a
    | _ => .error "invalid length"
  | v => unexpected v "a structure"

/-- A structure that is written by name only. -/
def namedOnly {α : Type} (reader : MemberReader α) : Decoder α
  | .object members => (reader.run (.named members)).map Prod.fst
  | v => unexpected v "a map"

/-- An object of the members that are there. -/
def object (members : List (String × Option Value)) : Value :=
  .object (members.filterMap fun e => e.2.map fun v => (e.1, v))

def texts (items : List String) : Value := .array (items.map .text)

end QueryLayer.Wire
