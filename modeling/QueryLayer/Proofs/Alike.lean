import Mathlib.Data.List.Forall2
import QueryLayer.Proofs.Outcome

/-! # Two outcomes side by side

Outcomes are `Alike` when both are failures, or both are answers that stand in a relation. Computations
whose steps are alike are alike. What the errors say is left open.
-/
namespace QueryLayer.Outcome

variable {ε α β γ δ : Type}

inductive Alike (R : α → β → Prop) : Except ε α → Except ε β → Prop
  | ok {a : α} {b : β} : R a b → Alike R (.ok a) (.ok b)
  | error (e e' : ε) : Alike R (.error e) (.error e')

namespace Alike

variable {R : α → β → Prop} {S : γ → δ → Prop} {x : Except ε α} {y : Except ε β}

theorem refl (x : Except ε α) : Alike Eq x x := by
  cases x with
  | ok a => exact .ok rfl
  | error e => exact .error e e

theorem bind {f : α → Except ε γ} {g : β → Except ε δ} (h : Alike R x y)
    (hstep : ∀ a b, R a b → Alike S (f a) (g b)) : Alike S (x >>= f) (y >>= g) := by
  cases h with
  | ok hab => exact hstep _ _ hab
  | error e e' => exact .error e e'

theorem map {x y : Except ε α} (h : Alike Eq x y) (f : α → γ) : Alike Eq (x.map f) (y.map f) := by
  cases h with
  | ok hab => exact .ok (congrArg f hab)
  | error e e' => exact .error e e'

theorem toOption_eq {x y : Except ε α} (h : Alike Eq x y) : x.toOption = y.toOption := by
  cases h with
  | ok hab => rw [hab]
  | error e e' => rfl

theorem mapM {f : α → Except ε γ} {g : β → Except ε δ} {xs : List α} {ys : List β}
    (h : List.Forall₂ R xs ys) (hstep : ∀ a b, R a b → Alike S (f a) (g b)) :
    Alike (List.Forall₂ S) (xs.mapM f) (ys.mapM g) := by
  induction h with
  | nil => exact .ok .nil
  | cons hab _ ih =>
    rw [List.mapM_cons, List.mapM_cons]
    refine (hstep _ _ hab).bind fun c d hcd => ih.bind fun cs ds hcds => ?_
    exact .ok (.cons hcd hcds)

/-- Two steps for each item, the first ones before all of the second ones. -/
theorem mapM_bind_mapM {f : α → Except ε β} {g : β → Except ε γ} {k : α → Except ε δ} {xs : List α}
    (hstep : ∀ x ∈ xs, Alike S (f x >>= g) (k x)) :
    Alike (List.Forall₂ S) (xs.mapM f >>= fun ys => ys.mapM g) (xs.mapM k) := by
  induction xs with
  | nil => exact .ok .nil
  | cons x xs ih =>
    have hx := hstep x List.mem_cons_self
    have hrest := ih fun y hy => hstep y (List.mem_cons_of_mem _ hy)
    rw [List.mapM_cons, List.mapM_cons]
    generalize k x = z at hx ⊢
    cases hf : f x with
    | error e =>
      rw [hf] at hx
      cases hx with
      | error _ e' => exact .error e e'
    | ok b =>
      rw [hf, ok_bind] at hx
      simp only [ok_bind, bind_assoc, pure_bind, List.mapM_cons]
      generalize g b = w at hx ⊢
      cases hx with
      | ok hcd =>
        simp only [ok_bind]
        rw [← bind_assoc]
        exact hrest.bind fun cs ds hcds => .ok (.cons hcd hcds)
      | error e e' =>
        cases xs.mapM f with
        | error e'' => exact .error e'' e'
        | ok ys => exact .error e e'

/-- A translation and a check of its result, beside a check that passes exactly when both succeed, before
computations that are alike in this case. -/
theorem of_translated {translation : Except ε α} {check : α → Except ε Unit} {check' : Except ε Unit}
    {k : α → Except ε γ} {k' : Except ε δ}
    (h : check' = .ok () ↔ ∃ a, translation = .ok a ∧ check a = .ok ())
    (hk : ∀ a, translation = .ok a → check a = .ok () → Alike S (k a) k') :
    Alike S (translation >>= fun a => check a >>= fun _ => k a) (check' >>= fun _ => k') := by
  have hfails : check' ≠ .ok () → ∃ e, check' = .error e := by
    intro hne
    cases hcheck' : check' with
    | error e => exact ⟨e, rfl⟩
    | ok _ => exact absurd hcheck' hne
  cases htranslation : translation with
  | error e =>
    obtain ⟨e', he'⟩ := hfails fun hpass => by
      obtain ⟨a, ha, _⟩ := h.1 hpass
      rw [htranslation] at ha
      cases ha
    rw [he']
    exact .error e e'
  | ok a =>
    rw [ok_bind]
    cases hcheck : check a with
    | error e =>
      obtain ⟨e', he'⟩ := hfails fun hpass => by
        obtain ⟨b, hb, hpass⟩ := h.1 hpass
        rw [htranslation] at hb
        cases hb
        rw [hcheck] at hpass
        cases hpass
      rw [he']
      exact .error e e'
    | ok _ =>
      rw [h.2 ⟨a, htranslation, hcheck⟩]
      exact hk a htranslation hcheck

/-- The same for two arguments, both translated before either is checked. -/
theorem of_translated₂ {translation₁ : Except ε α} {translation₂ : Except ε β} {check₁ : α → Except ε Unit}
    {check₂ : β → Except ε Unit} {check₁' check₂' : Except ε Unit} {k : α → β → Except ε γ}
    {k' : Except ε δ}
    (h₁ : check₁' = .ok () ↔ ∃ a, translation₁ = .ok a ∧ check₁ a = .ok ())
    (h₂ : check₂' = .ok () ↔ ∃ b, translation₂ = .ok b ∧ check₂ b = .ok ())
    (hk : ∀ a b, translation₁ = .ok a → check₁ a = .ok () → translation₂ = .ok b → check₂ b = .ok () →
      Alike S (k a b) k') :
    Alike S
      (translation₁ >>= fun a => translation₂ >>= fun b =>
        check₁ a >>= fun _ => check₂ b >>= fun _ => k a b)
      (check₁' >>= fun _ => check₂' >>= fun _ => k') := by
  have hboth : (check₁' >>= fun _ => check₂') = .ok () ↔
      ∃ p : α × β, (translation₁ >>= fun a => translation₂ >>= fun b => .ok (a, b)) = .ok p ∧
        (check₁ p.1 >>= fun _ => check₂ p.2) = .ok () := by
    rw [seq_eq_ok_iff, h₁, h₂]
    constructor
    · rintro ⟨⟨a, ha, hpass⟩, b, hb, hpass'⟩
      exact ⟨(a, b), bind_eq_ok_iff.2 ⟨a, ha, bind_eq_ok_iff.2 ⟨b, hb, rfl⟩⟩,
        seq_eq_ok_iff.2 ⟨hpass, hpass'⟩⟩
    · rintro ⟨p, hp, hpass⟩
      obtain ⟨a, ha, hp⟩ := bind_eq_ok_iff.1 hp
      obtain ⟨b, hb, hp⟩ := bind_eq_ok_iff.1 hp
      cases hp
      obtain ⟨hpass, hpass'⟩ := seq_eq_ok_iff.1 hpass
      exact ⟨⟨a, ha, hpass⟩, b, hb, hpass'⟩
  have halike : ∀ p : α × β, (translation₁ >>= fun a => translation₂ >>= fun b => .ok (a, b)) = .ok p →
      (check₁ p.1 >>= fun _ => check₂ p.2) = .ok () → Alike S (k p.1 p.2) k' := by
    intro p hp hpass
    obtain ⟨a, ha, hp⟩ := bind_eq_ok_iff.1 hp
    obtain ⟨b, hb, hp⟩ := bind_eq_ok_iff.1 hp
    cases hp
    obtain ⟨hpass, hpass'⟩ := seq_eq_ok_iff.1 hpass
    exact hk a b ha hpass hb hpass'
  simpa only [bind_assoc, ok_bind] using of_translated hboth halike

end Alike

/-! ## Lists -/

section

variable {R : α → β → Prop} {xs : List α} {ys : List β}

theorem find?_alike {p : α → Bool} {q : β → Bool} (h : List.Forall₂ R xs ys)
    (hpq : ∀ a b, R a b → p a = q b) :
    (xs.find? p = none ∧ ys.find? q = none) ∨ ∃ a b, xs.find? p = some a ∧ ys.find? q = some b ∧ R a b := by
  induction h with
  | nil => exact Or.inl ⟨rfl, rfl⟩
  | @cons a b _ _ hab _ ih =>
    rw [List.find?_cons, List.find?_cons, ← hpq a b hab]
    cases p a with
    | true => exact Or.inr ⟨a, b, rfl, rfl, hab⟩
    | false => exact ih

theorem any_eq {p : α → Bool} {q : β → Bool} (h : List.Forall₂ R xs ys)
    (hpq : ∀ a b, R a b → p a = q b) : xs.any p = ys.any q := by
  induction h with
  | nil => rfl
  | cons hab _ ih => rw [List.any_cons, List.any_cons, hpq _ _ hab, ih]

theorem filter_alike {p : α → Bool} {q : β → Bool} (h : List.Forall₂ R xs ys)
    (hpq : ∀ a b, R a b → p a = q b) : List.Forall₂ R (xs.filter p) (ys.filter q) :=
  List.rel_filter (fun a b hab => Bool.eq_iff_iff.1 (hpq a b hab)) h

theorem filterMap_alike {p : α → Option γ} {q : β → Option γ} (h : List.Forall₂ R xs ys)
    (hpq : ∀ a b, R a b → p a = q b) : xs.filterMap p = ys.filterMap q := by
  induction h with
  | nil => rfl
  | cons hab _ ih => rw [List.filterMap_cons, List.filterMap_cons, hpq _ _ hab, ih]

/-- Related items that compare alike are sorted alike. -/
theorem mergeSort_alike {le : α → α → Bool} {le' : β → β → Bool} (h : List.Forall₂ R xs ys)
    (hle : ∀ a b c d, R a b → R c d → le a c = le' b d) :
    List.Forall₂ R (xs.mergeSort le) (ys.mergeSort le') := by
  -- both are the two sides of the sorted pairs
  let pairs := xs.zip ys
  have hfst : pairs.map Prod.fst = xs := List.map_fst_zip (Nat.le_of_eq h.length_eq)
  have hsnd : pairs.map Prod.snd = ys := List.map_snd_zip (Nat.le_of_eq h.length_eq.symm)
  have hpairs : ∀ p ∈ pairs, R p.1 p.2 := fun p hp => List.forall₂_zip h hp
  have hleft : (pairs.mergeSort fun p q => le p.1 q.1).map Prod.fst = xs.mergeSort le := by
    rw [List.map_mergeSort (s := le) fun _ _ _ _ => rfl, hfst]
  have hright : (pairs.mergeSort fun p q => le p.1 q.1).map Prod.snd = ys.mergeSort le' := by
    rw [List.map_mergeSort (s := le') fun p hp q hq => hle _ _ _ _ (hpairs p hp) (hpairs q hq), hsnd]
  rw [← hleft, ← hright, List.forall₂_map_left_iff, List.forall₂_map_right_iff, List.forall₂_same]
  exact fun p hp => hpairs p (List.mem_mergeSort.1 hp)

end

end QueryLayer.Outcome
