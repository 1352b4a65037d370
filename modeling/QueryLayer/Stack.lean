import QueryLayer.Emulation.Basic
import QueryLayer.Naming.Fields

/-! # The standard stack

Emulated operators below renamed fields. Customizations name fields by their public names; operators
are registered under the names that the fields have below.
-/
namespace QueryLayer

structure Stack (σ : Type) where
  child : Source σ
  registrations : Registrations (EmulationRule σ)
  tables : Dict Names

namespace Stack

variable {σ : Type}

def ofSource (child : Source σ) : Stack σ := ⟨child, ∅, ∅⟩

/-- The lower layer. -/
def emulation (s : Stack σ) : Emulation σ := ⟨s.child, s.registrations⟩

/-- The upper layer. -/
def naming (s : Stack σ) : FieldNaming σ := ⟨s.emulation.source, s.tables⟩

def source (s : Stack σ) : Source σ := s.naming.source

/-- The name of a field in the lower layer. -/
def lowerField (s : Stack σ) (collection field : String) : Except Error String := do
  let c ← s.naming.child.collection collection
  s.naming.ownPath c field

def rename (s : Stack σ) (collection current new : String) : Except Error (Stack σ) := do
  let naming ← s.naming.rename collection current new
  pure { s with tables := naming.tables }

def register (s : Stack σ) (collection field : String) (operator : Operator)
    (rule : EmulationRule σ) : Except Error (Stack σ) := do
  let lower ← s.lowerField collection field
  let emulation ← s.emulation.register collection lower operator rule
  pure { s with registrations := emulation.registrations }

/-- Answers by brute force every operator that suits the column and that it lacks. -/
def emulateFiltering (s : Stack σ) (collection field : String) : Except Error (Stack σ) := do
  let c ← s.child.collection collection
  let lower ← s.lowerField collection field
  match (s.emulation.schema c).column? lower with
  | some column =>
    let missing := column.columnType.operators.filter fun o => !column.filterOperators.contains o
    let emulation ← missing.foldlM (fun e o => e.register collection lower o .bruteForce) s.emulation
    pure { s with registrations := emulation.registrations }
  | none => throw (.query (.fieldNotFound field collection))

end Stack

end QueryLayer
