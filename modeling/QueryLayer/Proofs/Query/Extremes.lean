import QueryLayer.Proofs.Query.Aggregation
import QueryLayer.Proofs.Query.Sorting

/-! # Greatest and least values

The greatest value of a field is the one that a sort by the field puts first, and the least is the first one
that is not null. Both scan and sort keep the first among values of one place, so they agree on ties as well:
`Aggregation.extremes_eq_sorted`.
-/
namespace QueryLayer

namespace Aggregation

variable {a : Aggregation} {records : List Record}

/-- Without groups all records make one row. -/
theorem apply_ungrouped (hgroups : a.groups = []) (h : records ≠ []) :
    a.apply records none = [⟨a.compute records, []⟩] := by
  have hgroup : ∀ r, a.groupOf r = [] := by
    intro r
    unfold groupOf
    rw [hgroups, List.foldl_nil]
  have hmembers : a.membersOf records [] = records :=
    List.filter_eq_self.2 fun r _ => decide_eq_true (hgroup r)
  obtain ⟨r, hr⟩ := List.exists_mem_of_ne_nil records h
  have hrow : a.Tabulates records [⟨a.compute records, []⟩] := by
    refine ⟨List.pairwise_singleton _ _, ?_, ?_, ?_, List.pairwise_singleton _ _⟩
    · rw [List.flatMap_singleton, hmembers]
    · exact List.forall_mem_singleton.2 ⟨r, hr, hgroup r⟩
    · exact List.forall_mem_singleton.2 (congrArg a.compute hmembers.symm)
  exact (tabulates_iff.1 hrow).symm

/-- The record has a value other than null under the path. -/
def Has (field : String) (r : Record) : Bool := !(r.value field).isNull

theorem values_eq (field : String) (records : List Record) :
    ((records.filterMap fun r => r.value? field).filter fun v => !v.isNull) =
      (records.filter (Has field)).map fun r => r.value field := by
  induction records with
  | nil => rfl
  | cons r records ih =>
    unfold Has Record.value at ih ⊢
    cases hvalue : r.value? field with
    | none => simpa [hvalue] using ih
    | some v => cases hnull : v.isNull <;> simpa [hvalue, hnull] using ih

/-- The records by the value of a field, the least value first. -/
def upwards (field : String) (r s : Record) : Ordering := (r.value field).sortOrder (s.value field)

/-- The records by the value of a field, the greatest value first. -/
def downwards (field : String) (r s : Record) : Ordering := upwards field s r

instance (field : String) : Std.TransCmp (upwards field) := by
  have hvalues : Std.TransCmp Value.sortOrder := inferInstance
  exact { eq_swap := hvalues.eq_swap, isLE_trans := hvalues.isLE_trans }

instance (field : String) : Std.TransCmp (downwards field) := by
  have hvalues : Std.TransCmp (upwards field) := inferInstance
  exact { eq_swap := hvalues.eq_swap, isLE_trans := fun hab hbc => hvalues.isLE_trans hbc hab }

/-- An extreme value is the value of the first record in one of the two orders. -/
theorem extremum_eq {wanted : Ordering} {cmp : Value → Value → Ordering}
    (h : ∀ v w, v.sortOrder w = wanted ↔ cmp v w = .lt) (field : String) (records : List Record) :
    extremum wanted ((records.filterMap fun r => r.value? field).filter fun v => !v.isNull) =
      ((least? (fun r s => cmp (r.value field) (s.value field)) (records.filter (Has field))).map fun r =>
        r.value field).getD .null := by
  have hscan : ∀ values, extremum wanted values = (least? cmp values).getD .null := by
    intro values
    unfold extremum least?
    refine congrArg (fun step => (values.foldl step none).getD Value.null) ?_
    funext best v
    cases best with
    | none => rfl
    | some current => simp only [better, h]
  rw [values_eq, hscan, least?_map]

theorem compute_min (field : String) (records : List Record) : (ofField .min field).compute records =
    ((least? (upwards field) (records.filter (Has field))).map fun r => r.value field).getD .null :=
  extremum_eq (fun _ _ => Iff.rfl) field records

theorem compute_max (field : String) (records : List Record) : (ofField .max field).compute records =
    ((least? (downwards field) (records.filter (Has field))).map fun r => r.value field).getD .null :=
  extremum_eq (fun _ _ => Std.OrientedCmp.gt_iff_lt) field records

theorem sortsBy_ascending (field : String) (records : List Record) :
    SortsBy (upwards field) records ((Sorting.ascending field).apply records) := by
  have hcompare : (Sorting.ascending field).compare = upwards field := by
    funext r s
    exact Ordering.then_eq
  exact hcompare ▸ SortsBy.mergeSort (Sorting.ascending field).compare records

theorem sortsBy_descending (field : String) (records : List Record) :
    SortsBy (downwards field) records ((Sorting.descending field).apply records) := by
  have hcompare : (Sorting.descending field).compare = downwards field := by
    funext r s
    have hswap : downwards field r s = (upwards field r s).swap := Std.OrientedCmp.eq_swap
    rw [hswap]
    exact Ordering.then_eq
  exact hcompare ▸ SortsBy.mergeSort (Sorting.descending field).compare records

/-- Nothing goes below null. -/
theorem eq_null_of_isLE {v w : Value} (h : (v.sortOrder w).isLE = true) (hw : w = .null) : v = .null := by
  subst hw
  cases v with
  | null => rfl
  | _ => exact nomatch h

/-- The greatest value of a field stands first in descending order. -/
theorem max_eq_head {first : Record} {rest : List Record} (field : String)
    (h : (Sorting.descending field).apply records = first :: rest) :
    (ofField .max field).compute records = first.value field := by
  have hsorted := sortsBy_descending field records
  have hpresent := (hsorted.filter (Has field)).head?_eq
  rw [h] at hsorted hpresent
  rw [compute_max, ← hpresent]
  cases hfirst : Has field first with
  | true => rw [List.filter_cons_of_pos hfirst]; rfl
  | false =>
    -- null stands last, so that a null in front leaves nothing else behind it
    have hnull : first.value field = .null := by simpa [Has] using hfirst
    have hrest : ∀ r ∈ first :: rest, Has field r = false := by
      intro r hr
      rcases List.mem_cons.1 hr with rfl | hr
      · exact hfirst
      · have hle := (List.pairwise_cons.1 hsorted.ordered).1 r hr
        simp [Has, eq_null_of_isLE hle hnull]
    rw [List.filter_eq_nil_iff.2 fun r hr => by simp [hrest r hr], hnull]
    rfl

/-- The least value of a field is the first one in ascending order that is not null. -/
theorem min_eq_find (field : String) (records : List Record) : (ofField .min field).compute records =
    ((((Sorting.ascending field).apply records).map fun r => r.value field).find? fun v => !v.isNull).getD
      .null := by
  have hpresent := ((sortsBy_ascending field records).filter (Has field)).head?_eq
  rw [compute_min, ← hpresent, List.head?_filter, List.find?_map]
  rfl

/-- Over one group of all records, the greatest value of a field is the one that the first record has in descending
order, and the least is the first one in ascending order that is not null, or null where all are. -/
theorem extremes_eq_sorted (field : String) (records : List Record) :
    (ofField .max field).apply records none =
      (((Sorting.descending field).apply records).take 1).map (fun r => ⟨r.value field, []⟩) ∧
    (ofField .min field).apply records none = (records.take 1).map fun _ =>
      ⟨((((Sorting.ascending field).apply records).map fun r => r.value field).find? fun v =>
        !v.isNull).getD .null, []⟩ := by
  cases hrecords : records with
  | nil =>
    have hrows : ∀ a : Aggregation, a.apply [] none = [] := fun a => by simp [apply, groupsOf]
    have hsorted : ∀ s : Sorting, s.apply [] = [] := fun s => by simp [Sorting.apply]
    rw [hrows, hrows, hsorted]
    exact ⟨rfl, rfl⟩
  | cons r others =>
    have hne : r :: others ≠ [] := List.cons_ne_nil r others
    constructor
    · cases hsorted : (Sorting.descending field).apply (r :: others) with
      | nil =>
        have hperm := (sortsBy_descending field (r :: others)).perm
        rw [hsorted] at hperm
        exact absurd hperm.symm.eq_nil hne
      | cons first rest =>
        rw [apply_ungrouped rfl hne, max_eq_head field hsorted]
        rfl
    · rw [apply_ungrouped rfl hne, min_eq_find]
      rfl

end Aggregation

end QueryLayer
