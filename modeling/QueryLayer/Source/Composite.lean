import QueryLayer.Naming.Collections

/-! # Composite sources

Several sources shown as one. A source may have its collections renamed on the way in; it is refused
when one of its collections or charts has a name that is taken.
-/
namespace QueryLayer

structure Composite (σ : Type) where
  parts : List (Source σ)
  /-- The part that a chart belongs to. -/
  owners : Dict Nat

namespace Composite

variable {σ : Type}

def empty : Composite σ := ⟨[], ∅⟩

def collection? (c : Composite σ) (name : String) : Option (Collection σ) :=
  c.parts.findSome? fun part => part.collection? name

def renderChart (c : Composite σ) (caller : Caller) (name : String) : Action σ Value :=
  match (c.owners.get? name).bind fun i => c.parts[i]? with
  | some part => part.renderChart caller name
  | none => throw (.setup (.unknownChart name))

/-- The parts one after the other. -/
def source (c : Composite σ) : Source σ where
  collections := c.parts.flatMap Source.collections
  charts := c.owners.map fun _ => ()
  renderChart := c.renderChart

/-- Takes in a source under names that are all free. -/
def append (c : Composite σ) (part : Source σ) : Except Error (Composite σ) :=
  match part.names.find? fun name => (c.collection? name).isSome with
  | some name => .error (.setup (.duplicateCollection name))
  | none =>
    match part.charts.keys.find? c.owners.contains with
    | some name => .error (.setup (.duplicateChart name))
    | none => .ok {
        parts := c.parts ++ [part]
        owners := part.charts.keys.foldl (fun owners chart => owners.insert chart c.parts.length) c.owners }

/-- Takes in a source, renaming its collections first. -/
def add (c : Composite σ) (child : Source σ) (renames : Dict String) : Except Error (Composite σ) :=
  match CollectionNaming.renameAll child.names renames.entries .empty with
  | (.ok (), names) => c.append (CollectionNaming.source names child)
  | (.error e, _) => .error e

end Composite

end QueryLayer
