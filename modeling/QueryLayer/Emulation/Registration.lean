import QueryLayer.Source.Basic

/-! # Registered operators

Operators that a collection answers although its backend does not: each is registered for a column,
with a rule that says how. A registration has a text that names it in chains of replacements.
-/
namespace QueryLayer

/-- An operator on a column and the rule by which it is answered. -/
structure Registration (ρ : Type) where
  field : String
  operator : Operator
  rule : ρ

/-- Registrations by collection; the rule of a later one replaces that of an earlier one. -/
abbrev Registrations (ρ : Type) := Dict (List (Registration ρ))

namespace Registration

variable {ρ : Type}

/-- How a registration is written in a chain of replacements. -/
def label (collection field : String) (operator : Operator) : String :=
  collection ++ "." ++ field ++ "[" ++ operator.name ++ "]"

def isFor (r : Registration ρ) (field : String) (operator : Operator) : Bool :=
  r.field = field && r.operator = operator

def map {τ : Type} (f : ρ → τ) (r : Registration ρ) : Registration τ := { r with rule := f r.rule }

end Registration

namespace Registrations

variable {ρ : Type}

def of (rs : Registrations ρ) (collection : String) : List (Registration ρ) :=
  (rs.get? collection).getD []

def find? (rs : Registrations ρ) (collection field : String) (operator : Operator) :
    Option (Registration ρ) :=
  (rs.of collection).find? fun r => r.isFor field operator

def add (rs : Registrations ρ) (collection : String) (r : Registration ρ) : Registrations ρ :=
  rs.insert collection (r :: (rs.of collection).filter fun q => !q.isFor r.field r.operator)

/-- The labels of all registrations. -/
def labels (rs : Registrations ρ) : List String :=
  rs.entries.flatMap fun e => e.2.map fun r => Registration.label e.1 r.field r.operator

theorem label_mem_labels {rs : Registrations ρ} {collection field : String} {operator : Operator}
    {r : Registration ρ} (h : rs.find? collection field operator = some r) :
    Registration.label collection field operator ∈ rs.labels := by
  have hmem := List.mem_of_find?_eq_some h
  have hfor := List.find?_some h
  simp only [Registration.isFor, Bool.and_eq_true, decide_eq_true_eq] at hfor
  simp only [of] at hmem
  cases hget : rs.get? collection with
  | none => simp [hget] at hmem
  | some regs =>
    rw [hget] at hmem
    refine List.mem_flatMap.2 ⟨(collection, regs), Dict.get?_eq_some_iff.1 hget, ?_⟩
    exact List.mem_map.2 ⟨r, hmem, by rw [hfor.1, hfor.2]⟩

/-- How many registrations a chain does not name yet. -/
def unused (rs : Registrations ρ) (chain : List String) : Nat :=
  (rs.labels.filter fun label => !chain.contains label).length

/-- A chain that names one more registration leaves fewer. -/
theorem unused_lt {rs : Registrations ρ} {chain : List String} {label : String}
    (hmem : label ∈ rs.labels) (hnew : label ∉ chain) :
    rs.unused (chain ++ [label]) < rs.unused chain := by
  have hsplit : rs.labels.filter (fun l => !(chain ++ [label]).contains l) =
      (rs.labels.filter fun l => !chain.contains l).filter fun l => l ≠ label := by
    rw [List.filter_filter]
    refine List.filter_congr fun l _ => ?_
    by_cases h1 : l ∈ chain <;> by_cases h2 : l = label <;> simp [h1, h2]
  rw [unused, unused, hsplit, List.length_filter_lt_length_iff_exists]
  exact ⟨label, by simp [hmem, hnew], by simp⟩

end Registrations

end QueryLayer
