import QueryLayer.Data.Dict

/-! # Public names

A table of renames: things keep the name they were made with, their own name, and are known from
outside by a public one. Main statements: `publicName` after `rename` changes for the renamed thing
only, and what follows `ownName?` back.
-/
namespace QueryLayer

/-- Both directions hold the renamed things only. -/
structure Names where
  publicOf : Dict String
  ownOf : Dict String
deriving DecidableEq

namespace Names

def empty : Names := ⟨∅, ∅⟩

instance : Inhabited Names := ⟨empty⟩

def publicName (n : Names) (own : String) : String := (n.publicOf.get? own).getD own

/-- The own name behind a public one, taking names that were never given for own names. -/
def ownName (n : Names) (name : String) : String := (n.ownOf.get? name).getD name

/-- The own name behind a public one; a name that was renamed away is not public any more. -/
def ownName? (n : Names) (name : String) : Option String :=
  match n.ownOf.get? name with
  | some own => some own
  | none => if n.publicOf.contains name then none else some name

/-- Makes what is known as `current` known as `new`. -/
def rename (n : Names) (current new : String) : Names :=
  let own := n.ownName current
  if own = new then ⟨n.publicOf.erase own, n.ownOf.erase current⟩
  else ⟨n.publicOf.insert own new, (n.ownOf.erase current).insert new own⟩

@[simp] theorem publicName_empty (own : String) : empty.publicName own = own := rfl

@[simp] theorem ownName?_empty (name : String) : empty.ownName? name = some name := rfl

/-- The renamed thing is known by the new name. -/
theorem publicName_rename_self (n : Names) (current new : String) :
    (n.rename current new).publicName (n.ownName current) = new := by
  simp only [rename, publicName]
  split
  · next h => simp [h]
  · simp

/-- Everything else keeps its name. -/
theorem publicName_rename_of_ne (n : Names) {current new own : String} (h : n.ownName current ≠ own) :
    (n.rename current new).publicName own = n.publicName own := by
  simp only [rename, publicName]
  split
  · rw [Dict.get?_erase_of_ne _ h]
  · rw [Dict.get?_insert_of_ne _ h]

end Names

end QueryLayer
