import Mathlib.Data.List.Perm.Basic
import Mathlib.Order.Compare

/-! # Stable sorting

A list in the order of a comparison, with what the comparison ties left in its own order: there is exactly one,
and `List.mergeSort` finds it.
-/
namespace QueryLayer

variable {α : Type} {cmp : α → α → Ordering} {l sorted : List α}

/-- The list is put in order, and what is tied stands in the order of the list. -/
structure SortsBy (cmp : α → α → Ordering) (l sorted : List α) : Prop where
  perm : sorted.Perm l
  ordered : sorted.Pairwise fun a b => (cmp a b).isLE = true
  stable : ∀ a, sorted.filter (cmp a · = .eq) = l.filter (cmp a · = .eq)

namespace SortsBy

/-- Of two in the sorted list the first comes first, in the order or, where they are tied, in the list. -/
theorem pairwise (h : SortsBy cmp l sorted) [Std.ReflCmp cmp] {R : α → α → Prop} (hR : l.Pairwise R) :
    sorted.Pairwise fun a b => cmp a b = .lt ∨ cmp a b = .eq ∧ R a b := by
  rw [List.pairwise_iff_forall_sublist]
  intro a b hab
  have hle : (cmp a b).isLE = true := List.pairwise_iff_forall_sublist.1 h.ordered hab
  rcases Ordering.isLE_iff_eq_lt_or_eq_eq.1 hle with hlt | heq
  · exact Or.inl hlt
  · refine Or.inr ⟨heq, List.pairwise_iff_forall_sublist.1 hR ?_⟩
    have hself : cmp a a = .eq := Std.ReflCmp.compare_self
    have htied : [a, b].filter (cmp a · = .eq) = [a, b] := by
      simp [hself, heq]
    have hfilter := hab.filter (cmp a · = .eq)
    rw [htied, h.stable] at hfilter
    exact hfilter.trans List.filter_sublist

variable [Std.TransCmp cmp]

theorem mergeSort (cmp : α → α → Ordering) [Std.TransCmp cmp] (l : List α) :
    SortsBy cmp l (l.mergeSort fun a b => (cmp a b).isLE) := by
  have htrans : ∀ a b c, (cmp a b).isLE = true → (cmp b c).isLE = true → (cmp a c).isLE = true :=
    fun a b c => Std.TransCmp.isLE_trans
  have htotal : ∀ a b, ((cmp a b).isLE || (cmp b a).isLE) = true := by
    intro a b
    have hswap : cmp b a = (cmp a b).swap := Std.OrientedCmp.eq_swap
    rw [hswap]
    cases cmp a b <;> rfl
  have hperm := List.mergeSort_perm l fun a b => (cmp a b).isLE
  refine ⟨hperm, List.pairwise_mergeSort htrans htotal l, fun a => ?_⟩
  -- what is tied with `a` is a sorted part of the list, so it is kept as it is
  have htied : (l.filter (cmp a · = .eq)).Pairwise fun b c => (cmp b c).isLE = true := by
    refine List.pairwise_of_forall_mem_list fun b hb c hc => ?_
    have hab : cmp a b = .eq := of_decide_eq_true (List.mem_filter.1 hb).2
    have hac : cmp a c = .eq := of_decide_eq_true (List.mem_filter.1 hc).2
    rw [← Std.TransCmp.congr_left hab, hac]
    rfl
  have hsub := (List.sublist_mergeSort htrans htotal htied List.filter_sublist).filter (cmp a · = .eq)
  rw [List.filter_filter] at hsub
  simp only [Bool.and_self] at hsub
  exact (hsub.eq_of_length (hperm.filter _).length_eq.symm).symm

/-- Two lists in order are one when they agree on what is tied with each of their members. -/
theorem eq_of_ordered {xs ys : List α} (hperm : xs.Perm ys)
    (hxs : xs.Pairwise fun a b => (cmp a b).isLE = true) (hys : ys.Pairwise fun a b => (cmp a b).isLE = true)
    (hstable : ∀ a, xs.filter (cmp a · = .eq) = ys.filter (cmp a · = .eq)) : xs = ys := by
  induction xs generalizing ys with
  | nil => exact hperm.nil_eq
  | cons x xs ih =>
    cases ys with
    | nil => exact absurd hperm.length_eq (by simp)
    | cons y ys =>
      rw [List.pairwise_cons] at hxs hys
      have hself : ∀ a, cmp a a = .eq := fun a => Std.ReflCmp.compare_self
      -- each head is in the other list, so neither comes before the other
      have hxy : cmp x y = .eq := by
        rcases List.mem_cons.1 (hperm.mem_iff.1 List.mem_cons_self) with rfl | hx
        · exact hself x
        rcases List.mem_cons.1 (hperm.mem_iff.2 List.mem_cons_self) with rfl | hy
        · exact hself y
        exact Std.OrientedCmp.isLE_antisymm (hxs.1 y hy) (hys.1 x hx)
      have hhead := hstable x
      rw [List.filter_cons_of_pos (by simp [hself]), List.filter_cons_of_pos (by simp [hxy])] at hhead
      obtain rfl : x = y := (List.cons.inj hhead).1
      have htail : ∀ a, xs.filter (cmp a · = .eq) = ys.filter (cmp a · = .eq) := by
        intro a
        have ha := hstable a
        by_cases htied : cmp a x = .eq
        · rw [List.filter_cons_of_pos (by simp [htied]), List.filter_cons_of_pos (by simp [htied])] at ha
          exact (List.cons.inj ha).2
        · rw [List.filter_cons_of_neg (by simp [htied]), List.filter_cons_of_neg (by simp [htied])] at ha
          exact ha
      rw [ih (List.Perm.cons_inv hperm) hxs.2 hys.2 htail]

theorem iff_mergeSort : SortsBy cmp l sorted ↔ sorted = l.mergeSort fun a b => (cmp a b).isLE := by
  have hsort := mergeSort cmp l
  constructor
  · intro h
    refine eq_of_ordered (h.perm.trans hsort.perm.symm) h.ordered hsort.ordered fun a => ?_
    rw [h.stable, hsort.stable]
  · rintro rfl
    exact hsort

end SortsBy

/-! ## The first of a sorted list -/

/-- The better one of the best so far and the next: the next only where it comes before. -/
def better (cmp : α → α → Ordering) (best : Option α) (a : α) : Option α :=
  match best with
  | some b => if cmp a b = .lt then some a else some b
  | none => some a

/-- What a scan for the least finds: of several that are tied, the first. -/
def least? (cmp : α → α → Ordering) (l : List α) : Option α := l.foldl (better cmp) none

theorem least?_map {β : Type} (f : β → α) (l : List β) :
    least? cmp (l.map f) = (least? (fun a b => cmp (f a) (f b)) l).map f := by
  have hscan : ∀ best : Option β, (l.map f).foldl (better cmp) (best.map f) =
      (l.foldl (better fun a b => cmp (f a) (f b)) best).map f := by
    induction l with
    | nil => exact fun best => rfl
    | cons a l ih =>
      intro best
      have hstep : better cmp (best.map f) (f a) = (better (fun a b => cmp (f a) (f b)) best a).map f := by
        cases best with
        | none => rfl
        | some b =>
          simp only [better, Option.map_some]
          split <;> rfl
      rw [List.map_cons, List.foldl_cons, List.foldl_cons, hstep, ih]
  exact hscan none

/-- The best of a scan is one of what it went over. -/
theorem mem_of_scan {a : α} {best : Option α} (h : l.foldl (better cmp) best = some a) :
    best = some a ∨ a ∈ l := by
  induction l generalizing best with
  | nil => exact Or.inl h
  | cons b l ih =>
    rcases ih h with hstep | hmem
    · cases best with
      | none => exact Or.inr (Option.some.inj hstep ▸ List.mem_cons_self)
      | some old =>
        unfold better at hstep
        dsimp only at hstep
        split at hstep
        · exact Or.inr (Option.some.inj hstep ▸ List.mem_cons_self)
        · exact Or.inl hstep
    · exact Or.inr (List.mem_cons_of_mem b hmem)

/-- A scan keeps its best as long as nothing comes before it. -/
theorem scan_of_not_lt {a : α} (h : ∀ b ∈ l, cmp b a ≠ .lt) : l.foldl (better cmp) (some a) = some a := by
  induction l with
  | nil => rfl
  | cons b l ih =>
    obtain ⟨hb, hl⟩ := List.forall_mem_cons.1 h
    have hstep : better cmp (some a) b = some a := if_neg hb
    rw [List.foldl_cons, hstep, ih hl]

/-- The least is what comes before all that stand in front of it and has nothing that comes before it. -/
theorem least?_of_split {before after : List α} {a : α} (hbefore : ∀ b ∈ before, cmp a b = .lt)
    (hafter : ∀ b ∈ after, cmp b a ≠ .lt) : least? cmp (before ++ a :: after) = some a := by
  have hstep : better cmp (before.foldl (better cmp) none) a = some a := by
    cases hbest : before.foldl (better cmp) none with
    | none => rfl
    | some b =>
      have hb : b ∈ before := (mem_of_scan hbest).resolve_left (by simp)
      exact if_pos (hbefore b hb)
  rw [least?, List.foldl_append, List.foldl_cons, hstep, scan_of_not_lt hafter]

namespace SortsBy

/-- What is left out of a list is left out of the sorted list. -/
theorem filter (h : SortsBy cmp l sorted) (p : α → Bool) : SortsBy cmp (l.filter p) (sorted.filter p) := by
  refine ⟨h.perm.filter p, h.ordered.filter p, fun a => ?_⟩
  rw [List.filter_comm, h.stable, List.filter_comm]

/-- A scan for the least finds the first of the sorted list. -/
theorem head?_eq [Std.TransCmp cmp] (h : SortsBy cmp l sorted) : sorted.head? = least? cmp l := by
  cases sorted with
  | nil =>
    obtain rfl : l = [] := h.perm.symm.eq_nil
    rfl
  | cons a rest =>
    have hself : cmp a a = .eq := Std.ReflCmp.compare_self
    have hle : ∀ b ∈ l, (cmp a b).isLE = true := by
      intro b hb
      rcases List.mem_cons.1 (h.perm.mem_iff.2 hb) with rfl | hrest
      · rw [hself]
        rfl
      · exact (List.pairwise_cons.1 h.ordered).1 b hrest
    -- what is tied with the first stands in the list as it does when sorted, so the first is the first of it
    have htied := h.stable a
    rw [List.filter_cons_of_pos (by simp [hself])] at htied
    obtain ⟨before, after, rfl, hbefore, -, -⟩ := List.filter_eq_cons_iff.1 htied.symm
    refine (least?_of_split (fun b hb => ?_) fun b hb => ?_).symm
    · have hne : cmp a b ≠ .eq := by simpa using hbefore b hb
      have hab := hle b (List.mem_append_left _ hb)
      exact (Ordering.isLE_iff_eq_lt_or_eq_eq.1 hab).resolve_right hne
    · have hab := hle b (List.mem_append_right _ (List.mem_cons_of_mem _ hb))
      have hswap : cmp b a = (cmp a b).swap := Std.OrientedCmp.eq_swap
      rw [hswap]
      intro hlt
      rw [Ordering.swap_eq_lt] at hlt
      rw [hlt] at hab
      exact nomatch hab

end SortsBy

end QueryLayer
