import QueryLayer.Proofs.Data.StableSort
import QueryLayer.Proofs.Value.Order
import QueryLayer.Query.Sorting

/-! # Sorted records

The clauses of a sorting make one total preorder of all records, whatever their values. So there is one way to
put records in its order and leave the tied ones as they stand, and `apply` finds it: `Sorting.sorts_iff`.
-/
namespace QueryLayer

namespace Sorting

variable {s : Sorting} {a b : Record}

instance (c : SortClause) : Std.TransCmp (clauseCompare c) := by
  have hvalues : Std.TransCmp fun a b : Record => (a.value c.field).sortOrder (b.value c.field) :=
    { eq_swap := Std.OrientedCmp.eq_swap, isLE_trans := Std.TransCmp.isLE_trans }
  unfold clauseCompare
  cases c.ascending with
  | true => exact hvalues
  | false =>
    have hflipped : ∀ a b : Record, ((a.value c.field).sortOrder (b.value c.field)).swap =
        (b.value c.field).sortOrder (a.value c.field) := fun a b => hvalues.eq_swap.symm
    simp only [Bool.false_eq_true, if_false, hflipped]
    exact { eq_swap := hvalues.eq_swap, isLE_trans := fun hab hbc => hvalues.isLE_trans hbc hab }

instance (cs : List SortClause) : Std.TransCmp (compareBy cs) := by
  induction cs with
  | nil => exact { eq_swap := rfl, isLE_trans := fun _ _ => rfl }
  | cons c cs ih =>
    have hcompare : compareBy (c :: cs) = compareLex (clauseCompare c) (compareBy cs) := rfl
    rw [hcompare]
    infer_instance

instance (s : Sorting) : Std.TransCmp s.compare := inferInstanceAs (Std.TransCmp (compareBy s.clauses))

/-- The records have values of one place under every clause; a missing value counts as null. -/
def Ties (s : Sorting) (a b : Record) : Prop :=
  ∀ c ∈ s.clauses, (a.value c.field).sortOrder (b.value c.field) = .eq

instance (s : Sorting) (a b : Record) : Decidable (s.Ties a b) :=
  inferInstanceAs (Decidable (∀ c ∈ s.clauses, _))

/-- The first clause under which the values have different places puts the first record first: the lesser value
where it ascends, the greater one where it descends. -/
def Precedes (s : Sorting) (a b : Record) : Prop :=
  ∃ before c after, s.clauses = before ++ c :: after ∧
    (∀ d ∈ before, (a.value d.field).sortOrder (b.value d.field) = .eq) ∧
    (a.value c.field).sortOrder (b.value c.field) = if c.ascending then .lt else .gt

theorem clauseCompare_eq_eq_iff {c : SortClause} :
    clauseCompare c a b = .eq ↔ (a.value c.field).sortOrder (b.value c.field) = .eq := by
  unfold clauseCompare
  cases c.ascending <;> simp

theorem clauseCompare_eq_lt_iff {c : SortClause} : clauseCompare c a b = .lt ↔
    (a.value c.field).sortOrder (b.value c.field) = if c.ascending then .lt else .gt := by
  unfold clauseCompare
  cases c.ascending <;> simp

theorem compare_eq_eq_iff : s.compare a b = .eq ↔ s.Ties a b := by
  obtain ⟨clauses⟩ := s
  unfold compare Ties
  induction clauses with
  | nil => simp [compareBy]
  | cons c cs ih => rw [compareBy, Ordering.then_eq_eq, ih, clauseCompare_eq_eq_iff, List.forall_mem_cons]

theorem compare_eq_lt_iff : s.compare a b = .lt ↔ s.Precedes a b := by
  obtain ⟨clauses⟩ := s
  unfold compare Precedes
  dsimp only
  induction clauses with
  | nil => simp [compareBy]
  | cons c cs ih =>
    rw [compareBy, Ordering.then_eq_lt, clauseCompare_eq_lt_iff, clauseCompare_eq_eq_iff, ih]
    constructor
    · rintro (hlt | ⟨heq, before, d, after, rfl, hbefore, hlt⟩)
      · exact ⟨[], c, cs, rfl, List.forall_mem_nil _, hlt⟩
      · exact ⟨c :: before, d, after, rfl, List.forall_mem_cons.2 ⟨heq, hbefore⟩, hlt⟩
    · rintro ⟨before, d, after, hsplit, hbefore, hlt⟩
      cases before with
      | nil =>
        obtain ⟨rfl, rfl⟩ := List.cons.inj hsplit
        exact Or.inl hlt
      | cons e before =>
        obtain ⟨rfl, rfl⟩ := List.cons.inj hsplit
        rw [List.forall_mem_cons] at hbefore
        exact Or.inr ⟨hbefore.1, before, d, after, rfl, hbefore.2, hlt⟩

/-- The records in the order of the sorting, tied ones in the order in which they were given. -/
structure Sorts (s : Sorting) (records sorted : List Record) : Prop where
  perm : sorted.Perm records
  ordered : sorted.Pairwise fun a b => s.Precedes a b ∨ s.Ties a b
  stable : ∀ a, sorted.filter (s.Ties a ·) = records.filter (s.Ties a ·)

theorem sorts_iff_sortsBy {records sorted : List Record} :
    s.Sorts records sorted ↔ SortsBy s.compare records sorted := by
  have hle : ∀ a b, (s.compare a b).isLE = true ↔ s.Precedes a b ∨ s.Ties a b := by
    intro a b
    rw [Ordering.isLE_iff_eq_lt_or_eq_eq, compare_eq_lt_iff, compare_eq_eq_iff]
  have htied : ∀ a, (fun b => decide (s.compare a b = .eq)) = fun b => decide (s.Ties a b) := by
    intro a
    funext b
    exact decide_eq_decide.2 compare_eq_eq_iff
  constructor
  · intro h
    refine ⟨h.perm, h.ordered.imp fun hab => (hle _ _).2 hab, fun a => ?_⟩
    rw [htied]
    exact h.stable a
  · intro h
    refine ⟨h.perm, h.ordered.imp fun hab => (hle _ _).1 hab, fun a => ?_⟩
    rw [← htied]
    exact h.stable a

end Sorting

/-- The comparison of records is a total preorder, and the result is the one list that has the records in its
order and leaves tied ones as they stood. -/
theorem Sorting.sorts_iff (s : Sorting) : Std.TransCmp s.compare ∧
    ∀ records sorted, s.Sorts records sorted ↔ sorted = s.apply records :=
  ⟨inferInstance, fun _ _ => sorts_iff_sortsBy.trans SortsBy.iff_mergeSort⟩

end QueryLayer
