import QueryLayer.Proofs.Alike
import QueryLayer.Query.Aggregation
import QueryLayer.Query.Filter

/-! # Queries over records that are alike

Two lists of records in a relation `R` are sorted, cut to a window and aggregated alike, where related records
have one value for each field that the one query and the other read.
-/
namespace QueryLayer

variable {R : Record → Record → Prop} {rows rows' : List Record}

/-- One value, under two names, in records that are related. -/
def SameValue (R : Record → Record → Prop) (f g : String) : Prop := ∀ a b, R a b → a.value? f = b.value? g

theorem SameValue.value_eq {f g : String} (h : SameValue R f g) {a b : Record} (hab : R a b) :
    a.value f = b.value g := by
  unfold Record.value
  rw [h a b hab]

namespace Sorting

variable {s t : Sorting}

theorem compare_alike (h : List.Forall₂ (fun c d => c.ascending = d.ascending ∧ SameValue R c.field d.field)
    s.clauses t.clauses) {a b a' b' : Record} (ha : R a a') (hb : R b b') :
    s.compare a b = t.compare a' b' := by
  unfold compare
  generalize s.clauses = cs at h
  generalize t.clauses = ds at h
  induction h with
  | nil => rfl
  | cons hcd _ ih =>
    rw [compareBy, compareBy, ih]
    unfold clauseCompare
    rw [hcd.1, hcd.2.value_eq ha, hcd.2.value_eq hb]

theorem apply_alike (h : List.Forall₂ (fun c d => c.ascending = d.ascending ∧ SameValue R c.field d.field)
    s.clauses t.clauses) (hrows : List.Forall₂ R rows rows') : List.Forall₂ R (s.apply rows) (t.apply rows') :=
  Outcome.mergeSort_alike hrows fun _ _ _ _ hab hcd => by rw [compare_alike h hab hcd]

end Sorting

theorem Page.apply_alike {α β : Type} {R : α → β → Prop} {xs : List α} {ys : List β}
    (h : List.Forall₂ R xs ys) (page : Page) : List.Forall₂ R (page.apply xs) (page.apply ys) := by
  unfold Page.apply
  have hrest := List.forall₂_drop page.skip h
  dsimp only
  cases page.limit with
  | none => exact hrest
  | some limit => exact List.forall₂_take limit hrest

namespace Aggregation

variable {a b : Aggregation} {S : Record → Record → Prop}

/-- A group with its members, by keys in the relation `S`. -/
def SameMembers (S R : Record → Record → Prop) (x y : Record × List Record) : Prop :=
  S x.1 y.1 ∧ List.Forall₂ R x.2 y.2

theorem collect_alike (hS : ∀ {k l k' l'}, S k k' → S l l' → (k = l ↔ k' = l'))
    {groups groups' : List (Record × List Record)} (hgroups : List.Forall₂ (SameMembers S R) groups groups')
    {key key' r r' : Record} (hkey : S key key') (h : R r r') :
    List.Forall₂ (SameMembers S R) (collect key r groups) (collect key' r' groups') := by
  induction hgroups with
  | nil => exact .cons ⟨hkey, .cons h .nil⟩ .nil
  | @cons x y rest rest' hxy hrest ih =>
    obtain ⟨group, members⟩ := x
    obtain ⟨group', members'⟩ := y
    obtain ⟨hgroup, hmembers⟩ := hxy
    rw [collect, collect]
    by_cases heq : group = key
    · rw [if_pos heq, if_pos ((hS hgroup hkey).1 heq)]
      exact .cons ⟨hgroup, List.rel_append hmembers (.cons h .nil)⟩ hrest
    · rw [if_neg heq, if_neg (mt (hS hgroup hkey).2 heq)]
      exact .cons ⟨hgroup, hmembers⟩ ih

theorem groupsOf_alike (hS : ∀ {k l k' l'}, S k k' → S l l' → (k = l ↔ k' = l'))
    (hgroup : ∀ r r', R r r' → S (a.groupOf r) (b.groupOf r')) (hrows : List.Forall₂ R rows rows') :
    List.Forall₂ (SameMembers S R) (a.groupsOf rows) (b.groupsOf rows') := by
  unfold groupsOf
  refine List.rel_foldl (P := List.Forall₂ (SameMembers S R)) (R := R) (fun _ _ hgroups _ _ h => ?_) .nil hrows
  exact collect_alike hS hgroups (hgroup _ _ h) h

theorem compute_alike (hfunction : a.function = b.function) (hfield : Option.Rel (SameValue R) a.field b.field)
    (hrows : List.Forall₂ R rows rows') : a.compute rows = b.compute rows' := by
  unfold compute
  rw [hfunction, hrows.length_eq]
  generalize a.field = field at hfield
  generalize b.field = field' at hfield
  cases hfield with
  | none => rfl
  | @some f g hvalue =>
    have hvalues : rows.filterMap (fun r => r.value? f) = rows'.filterMap fun r => r.value? g :=
      Outcome.filterMap_alike hrows hvalue
    dsimp only
    rw [hvalues]
    rfl

/-- Rows of equal value, by groups with keys in the relation `S`, come out in one order. -/
theorem apply_alike (hS : ∀ {k l k' l'}, S k k' → S l l' → (k = l ↔ k' = l'))
    (hgroup : ∀ r r', R r r' → S (a.groupOf r) (b.groupOf r'))
    (hcompute : ∀ rows rows', List.Forall₂ R rows rows' → a.compute rows = b.compute rows')
    (hrows : List.Forall₂ R rows rows') (limit : Option Nat) :
    List.Forall₂ (fun x y : AggregateRow => x.value = y.value ∧ S x.group y.group) (a.apply rows limit)
      (b.apply rows' limit) := by
  let same (x y : AggregateRow) : Prop := x.value = y.value ∧ S x.group y.group
  have hall : List.Forall₂ same ((a.groupsOf rows).map fun g => ⟨a.compute g.2, g.1⟩)
      ((b.groupsOf rows').map fun g => ⟨b.compute g.2, g.1⟩) := by
    rw [List.forall₂_map_left_iff, List.forall₂_map_right_iff]
    exact (groupsOf_alike hS hgroup hrows).imp fun _ _ h => ⟨hcompute _ _ h.2, h.1⟩
  let le (x y : AggregateRow) : Bool := (y.value.sortOrder x.value).isLE
  have hle : ∀ w x y z, same w x → same y z → le w y = le x z := by
    intro w x y z hwx hyz
    change (y.value.sortOrder w.value).isLE = (z.value.sortOrder x.value).isLE
    rw [hwx.1, hyz.1]
  have hsorted := Outcome.mergeSort_alike hall hle
  unfold apply
  cases limit with
  | none => exact hsorted
  | some limit => exact List.forall₂_take limit hsorted

end Aggregation

end QueryLayer
