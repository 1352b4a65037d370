import QueryLayer.Toml.Line
import QueryLayer.Value.Path

/-! # TOML documents

The lines of a document fill a tree of tables. No value is assigned twice, no table has two headers,
and a key that reaches into a table by points reaches only what such keys have made.
-/
namespace QueryLayer.Toml

/-- What made a table: a longer header, a header of its own, or a key with points. -/
inductive TableKind where
  | implied
  | declared
  | dotted
deriving DecidableEq

/-- A document so far. -/
structure Draft where
  root : Record
  tables : List (List String × TableKind)
  /-- The table that keys belong to. -/
  current : List String

/-- The record with a value at a path; missing tables on the way are made. -/
def place (v : Value) : List String → Record → Record
  | [], record => record
  | [name], record => record.insert name v
  | name :: rest, record =>
    record.insert name (.object (place v rest (((record.get? name).bind Value.object?).getD [])))

namespace Draft

def empty : Draft := ⟨[], [], []⟩

def kind? (d : Draft) (path : List String) : Option TableKind :=
  (d.tables.find? fun t => t.1 = path).map Prod.snd

def isTaken (d : Draft) (path : List String) : Bool := (d.root.valueAt? path).isSome

def addTable (d : Draft) (path : List String) (kind : TableKind) : Draft :=
  { d with root := place (.object []) path d.root, tables := (path, kind) :: d.tables }

/-- The table at a path on the way to another one, made when nothing is there. -/
def enter (kind : TableKind) (admits : TableKind → Bool) (d : Draft) (path : List String) :
    Option Draft :=
  match d.kind? path with
  | some k => if admits k then some d else none
  | none => if d.isTaken path then none else some (d.addTable path kind)

/-- The tables that a path goes through below `base`. -/
def above (base path : List String) : List (List String) :=
  (List.range (path.length - 1)).map fun n => base ++ path.take (n + 1)

def declare (d : Draft) (path : List String) : Option Draft := do
  let d ← (above [] path).foldlM (enter .implied fun _ => true) d
  let d ← match d.kind? path with
    | some .implied => some { d with tables := (path, .declared) :: d.tables }
    | some _ => none
    | none => if d.isTaken path then none else some (d.addTable path .declared)
  pure { d with current := path }

def assign (d : Draft) (path : List String) (v : Value) : Option Draft := do
  let d ← (above d.current path).foldlM (enter .dotted (· ≠ .declared)) d
  let table := d.current ++ path.dropLast
  if path.length = 1 ∨ d.kind? table = some .dotted then
    if d.isTaken (d.current ++ path) then none
    else some { d with root := place v (d.current ++ path) d.root }
  else none

def add (d : Draft) : Line → Option Draft
  | .blank => some d
  | .header path => d.declare path
  | .assign path value => d.assign path value

end Draft

/-- The pieces between line feeds; a carriage return before a line feed belongs to it. -/
def lines (cs : List Char) : List (List Char) :=
  match cs with
  | [] => [[]]
  | '\r' :: '\n' :: rest => [] :: lines rest
  | '\n' :: rest => [] :: lines rest
  | c :: rest =>
    match lines rest with
    | [] => [[c]]
    | first :: others => (c :: first) :: others

/-- Reads a document, which may start with a byte order mark. -/
def read? (text : String) : Option Record := do
  let cs := match text.toList with
    | '\uFEFF' :: cs => cs
    | cs => cs
  let parsed ← (lines cs).mapM Line.read?
  let d ← parsed.foldlM Draft.add .empty
  pure d.root

end QueryLayer.Toml
