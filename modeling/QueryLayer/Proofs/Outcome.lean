import Mathlib.Data.List.Forall2

/-! # Outcomes of sequences

When a sequence of steps that may fail comes to an end: every step has, and the answers are those of the
steps, one for each.
-/
namespace QueryLayer.Outcome

variable {ε α β : Type}

theorem bind_eq_ok_iff {x : Except ε α} {f : α → Except ε β} {b : β} :
    (x >>= f) = .ok b ↔ ∃ a, x = .ok a ∧ f a = .ok b := by
  cases x with
  | error e =>
    constructor
    · intro h
      cases h
    · rintro ⟨a, h, _⟩
      cases h
  | ok a =>
    constructor
    · intro h
      exact ⟨a, rfl, h⟩
    · rintro ⟨c, h, hf⟩
      cases h
      exact hf

theorem eq_ok_of_toOption {x : Except ε α} {a : α} (h : x.toOption = some a) : x = .ok a := by
  cases x with
  | error e => cases h
  | ok b => exact congrArg Except.ok (Option.some.inj h)

@[simp] theorem ok_bind (a : α) (f : α → Except ε β) : (Except.ok a >>= f) = f a := rfl

/-- A step that only has to succeed. -/
theorem seq_eq_ok_iff {x : Except ε Unit} {y : Except ε β} {b : β} :
    (x >>= fun _ => y) = .ok b ↔ x = .ok () ∧ y = .ok b := by
  rw [bind_eq_ok_iff]
  exact ⟨fun ⟨_, hx, hy⟩ => ⟨hx, hy⟩, fun ⟨hx, hy⟩ => ⟨(), hx, hy⟩⟩

/-- A refusal that has to be passed by. -/
theorem guard_eq_ok_iff {p : Prop} [Decidable p] {e : ε} {k : α → Except ε β} {x : Except ε β} {b : β} :
    (if p then throw e >>= k else x) = .ok b ↔ ¬p ∧ x = .ok b := by
  by_cases hp : p
  · rw [if_pos hp]
    constructor
    · intro h
      cases h
    · intro h
      exact absurd hp h.1
  · rw [if_neg hp]
    exact ⟨fun h => ⟨hp, h⟩, fun h => h.2⟩

/-! Refusals in other words. -/

theorem mapError_eq_ok_iff {w : ε → ε} {x : Except ε α} {a : α} : x.mapError w = .ok a ↔ x = .ok a := by
  cases x <;> simp [Except.mapError]

theorem ite_eq_mapError {p : Prop} [Decidable p] {w : ε → ε} {x x' y y' : Except ε β} (hx : x = x'.mapError w)
    (hy : y = y'.mapError w) : (if p then x else y) = (if p then x' else y').mapError w := by
  rw [hx, hy]
  exact (apply_ite (Except.mapError w) p x' y').symm

theorem guard_eq_mapError {p : Prop} [Decidable p] {w : ε → ε} {e e' : ε} {k k' : α → Except ε β}
    {x y : Except ε β} (he : e = w e') (hx : x = y.mapError w) :
    (if p then throw e >>= k else x) = (if p then throw e' >>= k' else y).mapError w :=
  ite_eq_mapError (congrArg Except.error he) hx

theorem seq_eq_mapError {w : ε → ε} {x x' : Except ε α} {y y' : Except ε β} (hx : x = x'.mapError w)
    (hy : y = y'.mapError w) : (x >>= fun _ => y) = (x' >>= fun _ => y').mapError w := by
  rw [hx, hy]
  cases x' <;> rfl

/-- An answer that is put into something else, from which it can be read off. -/
theorem eq_ok_iff_map {x : Except ε α} {make : α → β} {get : β → α} (hget : ∀ a, get (make a) = a) {a : α} :
    x = .ok a ↔ ∃ b, (x >>= fun a => pure (make a)) = .ok b ∧ get b = a := by
  constructor
  · rintro rfl
    exact ⟨make a, rfl, hget a⟩
  · rintro ⟨b, hb, rfl⟩
    obtain ⟨c, rfl, hc⟩ := bind_eq_ok_iff.1 hb
    cases hc
    rw [hget]

theorem mapM_eq_ok_iff {f : α → Except ε β} {xs : List α} {ys : List β} :
    xs.mapM f = .ok ys ↔ List.Forall₂ (fun x y => f x = .ok y) xs ys := by
  induction xs generalizing ys with
  | nil =>
    rw [List.mapM_nil, List.forall₂_nil_left_iff]
    exact ⟨fun h => by cases h; rfl, fun h => h ▸ rfl⟩
  | cons x xs ih =>
    rw [List.mapM_cons, bind_eq_ok_iff]
    constructor
    · rintro ⟨y, hy, h⟩
      obtain ⟨zs, hzs, h⟩ := bind_eq_ok_iff.1 h
      cases h
      exact .cons hy (ih.1 hzs)
    · intro h
      cases h with
      | cons hy hrest => exact ⟨_, hy, bind_eq_ok_iff.2 ⟨_, ih.2 hrest, rfl⟩⟩

theorem mapM_eq_ok_map {f : α → Except ε β} {g : α → β} {xs : List α}
    (h : ∀ x ∈ xs, f x = .ok (g x)) : xs.mapM f = .ok (xs.map g) := by
  rw [mapM_eq_ok_iff, List.forall₂_map_right_iff, List.forall₂_same]
  exact h

/-- Steps that succeed under a condition, each with an answer of its own. -/
theorem mapM_eq_ok_map_iff {f : α → Except ε β} {P : α → Prop} {g : α → β}
    (hf : ∀ x y, f x = .ok y ↔ P x ∧ y = g x) {xs : List α} {ys : List β} :
    xs.mapM f = .ok ys ↔ (∀ x ∈ xs, P x) ∧ ys = xs.map g := by
  induction xs generalizing ys with
  | nil =>
    rw [List.mapM_nil]
    exact ⟨fun h => by cases h; simp, fun h => h.2 ▸ rfl⟩
  | cons x xs ih =>
    rw [List.mapM_cons, bind_eq_ok_iff, List.forall_mem_cons, List.map_cons]
    constructor
    · rintro ⟨y, hy, h⟩
      obtain ⟨zs, hzs, h⟩ := bind_eq_ok_iff.1 h
      cases h
      obtain ⟨hx, rfl⟩ := (hf x y).1 hy
      obtain ⟨hxs, rfl⟩ := ih.1 hzs
      exact ⟨⟨hx, hxs⟩, rfl⟩
    · rintro ⟨⟨hx, hxs⟩, rfl⟩
      exact ⟨g x, (hf x _).2 ⟨hx, rfl⟩, bind_eq_ok_iff.2 ⟨_, ih.2 ⟨hxs, rfl⟩, rfl⟩⟩

/-- Steps that are refused under a condition: the first refusal is that of the sequence. -/
theorem mapM_eq_find? {f : α → Except ε β} {p : α → Bool} {refusal : α → ε} {g : α → β}
    (hf : ∀ a, f a = if p a = true then .error (refusal a) else .ok (g a)) (xs : List α) :
    xs.mapM f = match xs.find? p with
      | some a => .error (refusal a)
      | none => .ok (xs.map g) := by
  induction xs with
  | nil => rfl
  | cons a xs ih =>
    rw [List.mapM_cons, List.find?_cons, hf]
    cases p a with
    | true => rfl
    | false =>
      rw [if_neg Bool.false_ne_true, ok_bind, ih]
      cases xs.find? p <;> rfl

theorem forall₂_imp_of_mem {R S : α → β → Prop} {xs : List α} {ys : List β} (h : List.Forall₂ R xs ys)
    (himp : ∀ x ∈ xs, ∀ y ∈ ys, R x y → S x y) : List.Forall₂ S xs ys := by
  induction h with
  | nil => exact .nil
  | cons hxy _ ih =>
    refine .cons (himp _ List.mem_cons_self _ List.mem_cons_self hxy) (ih fun x hx y hy => ?_)
    exact himp x (List.mem_cons_of_mem _ hx) y (List.mem_cons_of_mem _ hy)

theorem exists_of_mem_right {R : α → β → Prop} {xs : List α} {ys : List β} (h : List.Forall₂ R xs ys)
    {y : β} (hy : y ∈ ys) : ∃ x ∈ xs, R x y := by
  induction h with
  | nil => simp at hy
  | @cons x z xs zs hx _ ih =>
    rcases List.mem_cons.1 hy with rfl | hy
    · exact ⟨x, List.mem_cons_self, hx⟩
    · obtain ⟨x, hmem, hx⟩ := ih hy
      exact ⟨x, List.mem_cons_of_mem _ hmem, hx⟩

theorem exists_of_mem_left {R : α → β → Prop} {xs : List α} {ys : List β} (h : List.Forall₂ R xs ys)
    {x : α} (hx : x ∈ xs) : ∃ y ∈ ys, R x y := by
  have hflip : List.Forall₂ (flip R) ys xs := List.Forall₂.flip h
  exact exists_of_mem_right hflip hx

theorem exists_of_mem_mapM {f : α → Except ε β} {xs : List α} {ys : List β}
    (h : xs.mapM f = .ok ys) {y : β} (hy : y ∈ ys) : ∃ x ∈ xs, f x = .ok y :=
  exists_of_mem_right (mapM_eq_ok_iff.1 h) hy

theorem mapM_congr {f g : α → Except ε β} {xs : List α} (h : ∀ x ∈ xs, f x = g x) :
    xs.mapM f = xs.mapM g := by
  induction xs with
  | nil => rfl
  | cons x xs ih =>
    rw [List.mapM_cons, List.mapM_cons, h x List.mem_cons_self,
      ih fun y hy => h y (List.mem_cons_of_mem _ hy)]

theorem forM_eq_ok_iff {f : α → Except ε Unit} {xs : List α} :
    xs.forM f = .ok () ↔ ∀ x ∈ xs, f x = .ok () := by
  induction xs with
  | nil => exact ⟨fun _ => by simp, fun _ => rfl⟩
  | cons x xs ih =>
    rw [List.forall_mem_cons, ← ih]
    exact seq_eq_ok_iff

theorem foldlM_congr {f g : β → α → Except ε β} {xs : List α} (h : ∀ x ∈ xs, ∀ b, f b x = g b x) (b : β) :
    xs.foldlM f b = xs.foldlM g b := by
  induction xs generalizing b with
  | nil => rfl
  | cons x xs ih =>
    rw [List.foldlM_cons, List.foldlM_cons, h x List.mem_cons_self]
    exact bind_congr fun c => ih (fun y hy => h y (List.mem_cons_of_mem _ hy)) c

/-- A fold comes to an end when every step does, wherever it starts. -/
theorem exists_foldlM {f : β → α → Except ε β} {xs : List α} (h : ∀ x ∈ xs, ∀ b, ∃ c, f b x = .ok c) (b : β) :
    ∃ b', xs.foldlM f b = .ok b' := by
  induction xs generalizing b with
  | nil => exact ⟨b, rfl⟩
  | cons x xs ih =>
    obtain ⟨c, hc⟩ := h x List.mem_cons_self b
    obtain ⟨b', hb'⟩ := ih (fun y hy => h y (List.mem_cons_of_mem _ hy)) c
    exact ⟨b', by rw [List.foldlM_cons, hc]; exact hb'⟩

/-- What every step keeps holds at the end. -/
theorem foldlM_keeps {P : β → Prop} {f : β → α → Except ε β} {xs : List α} {b b' : β}
    (hstep : ∀ x ∈ xs, ∀ c c', P c → f c x = .ok c' → P c') (hb : P b) (h : xs.foldlM f b = .ok b') :
    P b' := by
  induction xs generalizing b with
  | nil =>
    cases h
    exact hb
  | cons x xs ih =>
    rw [List.foldlM_cons] at h
    obtain ⟨c, hc, h⟩ := bind_eq_ok_iff.1 h
    exact ih (fun y hy => hstep y (List.mem_cons_of_mem _ hy)) (hstep x List.mem_cons_self b c hb hc) h

/-- A fold that comes to an end has taken a step for every item. -/
theorem exists_step_of_foldlM {f : β → α → Except ε β} {xs : List α} {b b' : β} (h : xs.foldlM f b = .ok b')
    {x : α} (hx : x ∈ xs) : ∃ c c', f c x = .ok c' := by
  induction xs generalizing b with
  | nil => cases hx
  | cons y xs ih =>
    rw [List.foldlM_cons] at h
    obtain ⟨c, hc, h⟩ := bind_eq_ok_iff.1 h
    rcases List.mem_cons.1 hx with rfl | hx
    · exact ⟨b, c, hc⟩
    · exact ih h hx

/-! ## Failures -/

def Fails (x : Except ε α) : Prop := ∃ e, x = .error e

theorem not_fails_ok (a : α) : ¬Fails (.ok a : Except ε α) := by
  rintro ⟨e, h⟩
  cases h

theorem fails_unit_iff {x : Except ε Unit} : Fails x ↔ x ≠ .ok () := by
  cases x with
  | error e => exact iff_of_true ⟨e, rfl⟩ nofun
  | ok u => exact iff_of_false (not_fails_ok u) fun h => h rfl

/-- A step that is only taken if another one succeeds: either of them may fail. -/
theorem fails_seq_iff {x : Except ε Unit} {y : Except ε α} : Fails (x >>= fun _ => y) ↔ Fails x ∨ Fails y := by
  cases x with
  | error e => exact iff_of_true ⟨e, rfl⟩ (Or.inl ⟨e, rfl⟩)
  | ok u => exact (or_iff_right (not_fails_ok u)).symm

/-- What cannot fail after all checks but the last have passed adds no failure to theirs. -/
theorem fails_checked_iff {x y z : Except ε Unit} {w : Except ε α}
    (h : x = .ok () → y = .ok () → ¬Fails w) :
    Fails (x >>= fun _ => y >>= fun _ => z >>= fun _ => w) ↔ Fails x ∨ Fails y ∨ Fails z := by
  rw [fails_seq_iff, fails_seq_iff, fails_seq_iff]
  by_cases hx : Fails x
  · exact iff_of_true (Or.inl hx) (Or.inl hx)
  · by_cases hy : Fails y
    · exact iff_of_true (Or.inr (Or.inl hy)) (Or.inr (Or.inl hy))
    · have hw : ¬Fails w := h (not_not.1 (mt fails_unit_iff.2 hx)) (not_not.1 (mt fails_unit_iff.2 hy))
      rw [or_iff_left hw]

theorem fails_forM_iff {f : α → Except ε Unit} {xs : List α} : Fails (xs.forM f) ↔ ∃ x ∈ xs, Fails (f x) := by
  rw [fails_unit_iff, ne_eq, forM_eq_ok_iff]
  simp only [not_forall, exists_prop, fails_unit_iff, ne_eq]

/-- Nothing but errors of the given kind can come out. -/
def FailsAs (E : ε → Prop) (x : Except ε α) : Prop := ∀ e, x = .error e → E e

variable {E : ε → Prop}

theorem failsAs_ok (a : α) : FailsAs E (.ok a) := by
  intro e h
  cases h

theorem failsAs_error {e : ε} (h : E e) : FailsAs E (.error e : Except ε α) := by
  intro e' h'
  cases h'
  exact h

theorem FailsAs.bind {x : Except ε α} {f : α → Except ε β} (hx : FailsAs E x) (hf : ∀ a, FailsAs E (f a)) :
    FailsAs E (x >>= f) := by
  cases x with
  | error e => exact failsAs_error (hx e rfl)
  | ok a => exact hf a

theorem FailsAs.ite {p : Prop} [Decidable p] {x y : Except ε α} (hx : FailsAs E x) (hy : FailsAs E y) :
    FailsAs E (if p then x else y) := by
  split
  · exact hx
  · exact hy

theorem FailsAs.guard {p : Prop} [Decidable p] {e : ε} {k : α → Except ε β} {x : Except ε β} (he : E e)
    (hx : FailsAs E x) : FailsAs E (if p then throw e >>= k else x) :=
  .ite (failsAs_error he) hx

theorem failsAs_mapM {f : α → Except ε β} {xs : List α} (h : ∀ x ∈ xs, FailsAs E (f x)) :
    FailsAs E (xs.mapM f) := by
  induction xs with
  | nil => exact failsAs_ok []
  | cons x xs ih =>
    rw [List.mapM_cons]
    refine (h x List.mem_cons_self).bind fun y => ?_
    exact (ih fun z hz => h z (List.mem_cons_of_mem _ hz)).bind fun ys => failsAs_ok _

end QueryLayer.Outcome
