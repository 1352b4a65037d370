import QueryLayer.Proofs.Query.Condition

/-! # Conditions and their inverses

A condition and its inverse never hold for one record. Comparisons by order leave a gap between the two:
values without an order satisfy neither `<` nor `>=`. A record that settles a condition leaves none. Main
statement: `Condition.holds_inverse_iff`, the inverse holds where the condition does not for exactly these
records.
-/
namespace QueryLayer

/-- The comparisons by order. -/
def Operator.isOrder : Operator → Bool
  | lessThan | lessThanOrEqual | greaterThan | greaterThanOrEqual => true
  | _ => false

/-- What one condition comes to when it decides the whole branch. -/
def Aggregator.decisive : Aggregator → Bool
  | and => false
  | or => true

namespace Leaf

/-- Values that are compared by order have one. -/
def settledFor (l : Leaf) (actual : Value) : Bool :=
  !l.operator.isOrder || (actual.compare? l.value).isSome

def settled (l : Leaf) (record : Record) : Bool := l.settledFor (record.value l.field)

theorem settledFor_of_holdsFor {l : Leaf} {actual : Value} (h : l.holdsFor actual = true) :
    l.settledFor actual = true := by
  obtain ⟨field, operator, value⟩ := l
  unfold holdsFor at h
  unfold settledFor
  cases hcompare : actual.compare? value with
  | some order => simp
  | none => cases operator <;> simp_all [Operator.isOrder]

theorem holds_inverse (l : Leaf) (record : Record) :
    l.inverse.holds record = (!l.holds record && l.settled record) := by
  obtain ⟨field, operator, value⟩ := l
  simp only [inverse, settled, settledFor, holds]
  generalize hactual : record.value field = actual
  by_cases horder : operator.isOrder = true
  · -- what is left is what comes after the order of the values is known
    cases hcompare : actual.compare? value with
    | none =>
      cases operator <;>
        simp_all [Operator.isOrder, Operator.inverse?, Condition.holds, Leaf.holds, holdsFor]
    | some order =>
      cases operator <;> cases order <;>
        simp_all [Operator.isOrder, Operator.inverse?, Condition.holds, Leaf.holds, holdsFor]
  · cases operator <;>
      simp_all [Operator.isOrder, Operator.inverse?, Condition.holds, Leaf.holds, holdsFor]

end Leaf

namespace Condition

mutual

/-- Whether a record with its relations attached satisfies the condition or its inverse. A negation is
inverted by leaving it out, and a branch is settled by what decides it. -/
def settled (record : Record) : Condition → Bool
  | leaf l => l.settled record
  | not _ => true
  | branch a cs => settledAll record cs || settledByOne record a cs

def settledAll (record : Record) : List Condition → Bool
  | [] => true
  | c :: cs => c.settled record && settledAll record cs

def settledByOne (record : Record) (a : Aggregator) : List Condition → Bool
  | [] => false
  | c :: cs => (c.settled record && c.holds record == a.decisive) || settledByOne record a cs

end

@[simp] theorem settledAll_eq (record : Record) (cs : List Condition) :
    settledAll record cs = cs.all (·.settled record) := by
  induction cs with
  | nil => rfl
  | cons c cs ih => simp [settledAll, ih]

@[simp] theorem settledByOne_eq (record : Record) (a : Aggregator) (cs : List Condition) :
    settledByOne record a cs = cs.any fun c => c.settled record && c.holds record == a.decisive := by
  induction cs with
  | nil => rfl
  | cons c cs ih => simp [settledByOne, ih]

theorem settled_of_holds {record : Record} {c : Condition} (h : c.holds record = true) :
    c.settled record = true := by
  induction c using Condition.induct with
  | hleaf l => exact Leaf.settledFor_of_holdsFor h
  | hnot c ih => rfl
  | hbranch a cs ih =>
    rw [settled, settledAll_eq, settledByOne_eq, Bool.or_eq_true]
    cases a with
    | and =>
      rw [holds, holdsAll_eq, List.all_eq_true] at h
      exact Or.inl (List.all_eq_true.2 fun c hc => ih c hc (h c hc))
    | or =>
      rw [holds, holdsAny_eq, List.any_eq_true] at h
      obtain ⟨c, hc, hholds⟩ := h
      refine Or.inr (List.any_eq_true.2 ⟨c, hc, ?_⟩)
      rw [ih c hc hholds, hholds]
      rfl

/-- The inverse holds for the records that settle the condition and do not satisfy it. -/
theorem holds_inverse (record : Record) (c : Condition) :
    c.inverse.holds record = (!c.holds record && c.settled record) := by
  induction c using Condition.induct with
  | hleaf l => exact l.holds_inverse record
  | hnot c ih => simp [inverse, holds, settled]
  | hbranch a cs ih =>
    rw [inverse, inverses_eq, settled, settledAll_eq, settledByOne_eq, Bool.eq_iff_iff]
    cases a with
    | and =>
      -- one member decides the inverse, and the same one decides the branch
      simp only [Aggregator.dual, holds, holdsAny_eq, holdsAll_eq, Bool.and_eq_true, Bool.or_eq_true,
        Bool.not_eq_true', List.any_eq_true, List.all_eq_true, List.all_eq_false, List.mem_map,
        exists_exists_and_eq_and, Aggregator.decisive, beq_iff_eq]
      constructor
      · rintro ⟨c, hc, hinverse⟩
        rw [ih c hc, Bool.and_eq_true, Bool.not_eq_true'] at hinverse
        exact ⟨⟨c, hc, by simp [hinverse.1]⟩, Or.inr ⟨c, hc, hinverse.2, hinverse.1⟩⟩
      · rintro ⟨⟨c, hc, hfails⟩, hall | ⟨d, hd, hsettled, hdfails⟩⟩
        · exact ⟨c, hc, by rw [ih c hc, hall c hc]; simpa using hfails⟩
        · exact ⟨d, hd, by rw [ih d hd, hsettled, hdfails]; rfl⟩
    | or =>
      -- every member fails and is settled; no member that holds could settle the branch by itself
      simp only [Aggregator.dual, holds, holdsAny_eq, holdsAll_eq, Bool.and_eq_true, Bool.or_eq_true,
        Bool.not_eq_true', List.any_eq_true, List.any_eq_false, List.all_eq_true, List.mem_map,
        forall_exists_index, and_imp, forall_apply_eq_imp_iff₂, Aggregator.decisive, beq_iff_eq]
      constructor
      · intro hinverse
        have hmembers : ∀ c ∈ cs, c.holds record = false ∧ c.settled record = true := fun c hc => by
          simpa [ih c hc] using hinverse c hc
        exact ⟨fun c hc => by simp [(hmembers c hc).1], Or.inl fun c hc => (hmembers c hc).2⟩
      · rintro ⟨hfails, hall | ⟨d, hd, -, hdholds⟩⟩ c hc
        · rw [ih c hc, hall c hc]
          simpa using hfails c hc
        · exact absurd hdholds (hfails d hd)

/-- The inverse selects exactly what the condition rejects when the record settles the condition, and only
then. -/
theorem holds_inverse_iff (record : Record) (c : Condition) :
    c.inverse.holds record = (!c.holds record) ↔ c.settled record = true := by
  rw [holds_inverse]
  cases hholds : c.holds record with
  | false => simp
  | true => simp [settled_of_holds hholds]

/-- A missing age is neither less than five nor at least five. -/
theorem not_holds_inverse :
    ¬ ∀ (record : Record) (c : Condition), c.inverse.holds record = !c.holds record := by
  intro h
  have hage := h [] (leaf ⟨"age", .lessThan, .int 5⟩)
  revert hage
  decide +kernel

end Condition

end QueryLayer
