import QueryLayer.Digest.Sha256
import QueryLayer.Source.Memory.Basic
import QueryLayer.Value.Printer

/-! # Instances by definition

Sources are built from definitions, once each: the first request for a definition makes a cell for
its instance and later ones find it there. Definitions are told apart by the digests of their texts.
Calls of `resolve` may overlap; those that find the same cell take turns in filling it. A failed
creation gives its cell up.
-/
namespace QueryLayer

/-- The digest of a definition: that of its text, in which members are in name order. -/
def Value.digest (definition : Value) : String := Sha256.ofText definition.compact

/-- Cells by number, and the cell of each digest that was asked for. -/
structure Instances (ι : Type) where
  cells : List (Option ι)
  index : List (String × Nat)

/-- Where a call of `resolve` stands. -/
inductive ResolveStage where
  | started
  | waiting (cell : Nat)
  | creating (cell : Nat)
  | failed (e : Error)
  | finished (outcome : Except Error Nat)

namespace Instances

variable {ι : Type}

def empty : Instances ι := ⟨[], []⟩

instance : Inhabited (Instances ι) := ⟨empty⟩

def get? (s : Instances ι) (cell : Nat) : Option ι := s.cells[cell]?.join

def set (s : Instances ι) (cell : Nat) (value : ι) : Instances ι :=
  { s with cells := s.cells.set cell (some value) }

def cellOf? (s : Instances ι) (key : String) : Option Nat :=
  (s.index.find? fun e => e.1 = key).map Prod.snd

/-- The number of definitions that have an instance. -/
def count (s : Instances ι) : Nat := (s.index.filter fun e => (s.get? e.2).isSome).length

/-- A new empty cell for a digest. -/
def reserve (s : Instances ι) (key : String) : Instances ι :=
  ⟨s.cells ++ [none], s.index ++ [(key, s.cells.length)]⟩

/-- Gives up the cell of a digest if it is empty. -/
def release (s : Instances ι) (key : String) : Instances ι :=
  match s.cellOf? key with
  | some cell =>
    if (s.get? cell).isSome then s
    else { s with index := s.index.filter fun e => e.1 ≠ key }
  | none => s

/-- The next stage of a call whose turn it is; `attempt` is what a creation gives now. -/
def step (key : String) (attempt : Except Error ι) :
    ResolveStage → Instances ι → ResolveStage × Instances ι
  | .started, s =>
    match s.cellOf? key with
    | some cell => (.waiting cell, s)
    | none => (.waiting s.cells.length, s.reserve key)
  | .waiting cell, s =>
    (if (s.get? cell).isSome then .finished (.ok cell) else .creating cell, s)
  | .creating cell, s =>
    match attempt with
    | .ok i => (.finished (.ok cell), s.set cell i)
    | .error e => (.failed e, s)
  | .failed e, s => (.finished (.error e), s.release key)
  | .finished outcome, s => (.finished outcome, s)

/-- The stage and state after a number of steps. -/
def steps (key : String) (attempt : Except Error ι) :
    Nat → ResolveStage × Instances ι → ResolveStage × Instances ι
  | 0, s => s
  | n + 1, s => steps key attempt n (step key attempt s.1 s.2)

/-- The cell of a definition, filled now if it was not. Four steps end a call that nothing
interrupts. -/
def resolve (definition : Value) (attempt : Except Error ι) : Action (Instances ι) Nat :=
  .updating fun s =>
    match steps definition.digest attempt 4 (.started, s) with
    | (.finished outcome, s) => (outcome, s)
    | (_, s) => (.error (.other "unfinished"), s)

end Instances

/-- Calls of `resolve` for one definition, told by its digest, that overlap. -/
structure ResolveRace (ι : Type) where
  state : Instances ι
  calls : List ResolveStage

namespace ResolveRace

variable {ι : Type}

def join (r : ResolveRace ι) : ResolveRace ι := { r with calls := r.calls ++ [.started] }

def isCreating (cell : Nat) : ResolveStage → Bool
  | .creating c => c = cell
  | _ => false

/-- A call waits while another one creates in its cell. -/
def canAdvance (r : ResolveRace ι) (i : Nat) : Bool :=
  match r.calls[i]? with
  | some (.waiting cell) => !r.calls.any (isCreating cell)
  | some (.finished _) => false
  | some _ => true
  | none => false

/-- One step of a call, if it can go on. -/
def advance (key : String) (attempt : Except Error ι) (r : ResolveRace ι) (i : Nat) :
    ResolveRace ι :=
  match r.calls[i]? with
  | some stage =>
    if r.canAdvance i then
      let (next, state) := Instances.step key attempt stage r.state
      { state, calls := r.calls.set i next }
    else r
  | none => r

end ResolveRace

/-- A memory source that was built from a definition. -/
structure MemoryInstance where
  database : Database
  store : Store

def MemoryInstance.ofDefinition (definition : Value) : Except Error MemoryInstance := do
  let (database, store) ← Memory.ofDefinition definition
  pure ⟨database, store⟩

/-- The kinds of sources that can be built, each from a whole definition. -/
abbrev Factories := Dict (Value → Except Error MemoryInstance)

namespace Factories

def builtIn : Factories := Dict.ofList [("memory", MemoryInstance.ofDefinition)]

/-- Builds the source that a definition describes, its `type` naming the kind. -/
def create (f : Factories) (definition : Value) : Except Error MemoryInstance :=
  match definition.object?.bind fun members => (Record.get? members "type").bind Value.text? with
  | none => .error (.setup (.missingParameter "dataSource.type"))
  | some kind =>
    match f.get? kind with
    | some factory => factory definition
    | none => .error (.setup (.unsupportedSource kind))

end Factories

namespace Instances

/-- The store of the instance in a cell. -/
def storeLens (cell : Nat) : Lens (Instances MemoryInstance) Store where
  get s := ((s.get? cell).map MemoryInstance.store).getD ∅
  set store s :=
    match s.get? cell with
    | some i => s.set cell { i with store }
    | none => s

/-- The source in a cell. -/
def sourceAt (s : Instances MemoryInstance) (cell : Nat) : Source (Instances MemoryInstance) :=
  match s.get? cell with
  | some i => (Memory.source i.database).zoom (storeLens cell)
  | none => .empty

/-- The source that a definition describes, built on first use. -/
def resolveSource (f : Factories) (definition : Value) :
    Action (Instances MemoryInstance) (Source (Instances MemoryInstance)) := do
  let cell ← resolve definition (f.create definition)
  .reading fun s => .ok (s.sourceAt cell)

end Instances

end QueryLayer
