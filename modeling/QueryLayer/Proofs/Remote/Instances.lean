import QueryLayer.Proofs.Action.Yields
import QueryLayer.Remote.Instances

/-! # Instances by digest

A digest has a slot once its cell holds an instance. Asking for an instance leaves the slots of other
digests alone, finds the one that is there, and fills one if there is none and the creation succeeds:
`resolved_resolve`.
-/
namespace QueryLayer.Instances

variable {ι : Type} {s : Instances ι} {key other : String} {cell : Nat}

/-! ## Cells -/

@[simp] theorem cellOf?_set (s : Instances ι) (cell : Nat) (i : ι) (key : String) :
    (s.set cell i).cellOf? key = s.cellOf? key := rfl

theorem cellOf?_reserve_self (h : s.cellOf? key = none) :
    (s.reserve key).cellOf? key = some s.cells.length := by
  have hnone : (s.index.find? fun e => e.1 = key) = none := Option.map_eq_none_iff.1 h
  simp [cellOf?, reserve, List.find?_append, hnone]

theorem cellOf?_reserve_of_ne (h : other ≠ key) : (s.reserve key).cellOf? other = s.cellOf? other := by
  simp [cellOf?, reserve, List.find?_append, Ne.symm h]

theorem cellOf?_release_of_ne (h : other ≠ key) : (s.release key).cellOf? other = s.cellOf? other := by
  unfold release
  split
  · split
    · rfl
    · have hboth : ∀ e : String × Nat, (e.1 ≠ key ∧ e.1 = other) ↔ e.1 = other :=
        fun e => ⟨And.right, fun he => ⟨he ▸ h, he⟩⟩
      simp only [cellOf?, List.find?_filter, decide_eq_true_eq, hboth]
  · rfl

/-- Only an empty cell is given up. -/
theorem cellOf?_release_self (s : Instances ι) (key : String) :
    (s.release key).cellOf? key = (s.cellOf? key).filter fun cell => (s.get? cell).isSome := by
  unfold release
  cases hcell : s.cellOf? key with
  | none => simp [hcell]
  | some cell =>
    cases hfilled : (s.get? cell).isSome with
    | true => simp [hcell, hfilled, Option.filter]
    | false => simp [cellOf?, List.find?_filter, hfilled, Option.filter]

@[simp] theorem get?_reserve (s : Instances ι) (key : String) (cell : Nat) :
    (s.reserve key).get? cell = s.get? cell := by
  rcases Nat.lt_trichotomy cell s.cells.length with h | rfl | h
  · simp [get?, reserve, List.getElem?_append_left h]
  · simp [get?, reserve]
  · have hbeyond : (s.cells ++ [none]).length ≤ cell := by
      rw [List.length_append]
      exact h
    simp [get?, reserve, List.getElem?_eq_none hbeyond, List.getElem?_eq_none (Nat.le_of_lt h)]

@[simp] theorem cells_release (s : Instances ι) (key : String) : (s.release key).cells = s.cells := by
  unfold release
  split
  · split <;> rfl
  · rfl

@[simp] theorem get?_release (s : Instances ι) (key : String) (cell : Nat) :
    (s.release key).get? cell = s.get? cell := by
  rw [get?, cells_release, get?]

theorem get?_set_self (h : cell < s.cells.length) (i : ι) : (s.set cell i).get? cell = some i := by
  simp [get?, set, h]

theorem get?_set_of_ne {other : Nat} (h : other ≠ cell) (i : ι) :
    (s.set cell i).get? other = s.get? other := by
  simp [get?, set, List.getElem?_set_ne (Ne.symm h)]

/-! ## Slots -/

/-- The cell of a digest and the instance that it holds. -/
def slot? (s : Instances ι) (key : String) : Option (Nat × ι) :=
  (s.cellOf? key).bind fun cell => (s.get? cell).map fun i => (cell, i)

theorem slot?_eq_some_iff {i : ι} :
    s.slot? key = some (cell, i) ↔ s.cellOf? key = some cell ∧ s.get? cell = some i := by
  simp only [slot?, Option.bind_eq_some_iff, Option.map_eq_some_iff, Prod.mk.injEq]
  constructor
  · rintro ⟨c, hc, j, hj, rfl, rfl⟩
    exact ⟨hc, hj⟩
  · rintro ⟨hc, hi⟩
    exact ⟨cell, hc, i, hi, rfl, rfl⟩

theorem slot?_congr {t : Instances ι} (hcell : t.cellOf? key = s.cellOf? key)
    (hget : ∀ cell ∈ s.cellOf? key, t.get? cell = s.get? cell) : t.slot? key = s.slot? key := by
  unfold slot?
  rw [hcell]
  exact Option.bind_congr fun cell h => by rw [hget cell h]

/-- Every digest that has a cell has one of its own. -/
structure Sound (s : Instances ι) : Prop where
  lt : ∀ {key cell}, s.cellOf? key = some cell → cell < s.cells.length
  inj : ∀ {key other cell}, s.cellOf? key = some cell → s.cellOf? other = some cell → key = other

theorem sound_empty : (empty : Instances ι).Sound := ⟨nofun, nofun⟩

theorem Sound.set (h : s.Sound) (cell : Nat) (i : ι) : (s.set cell i).Sound where
  lt hcell := by
    rw [Instances.set, List.length_set]
    exact h.lt hcell
  inj := h.inj

theorem Sound.reserve (h : s.Sound) (hnone : s.cellOf? key = none) : (s.reserve key).Sound := by
  have hlength : (s.reserve key).cells.length = s.cells.length + 1 := by simp [Instances.reserve]
  have hcases : ∀ {k cell}, (s.reserve key).cellOf? k = some cell →
      (k = key ∧ cell = s.cells.length) ∨ s.cellOf? k = some cell := by
    intro k cell hk
    by_cases hkey : k = key
    · subst hkey
      rw [cellOf?_reserve_self hnone] at hk
      exact Or.inl ⟨rfl, (Option.some.inj hk).symm⟩
    · rw [cellOf?_reserve_of_ne hkey] at hk
      exact Or.inr hk
  constructor
  · intro k cell hk
    rcases hcases hk with ⟨_, rfl⟩ | hk
    · omega
    · have := h.lt hk
      omega
  · intro k k' cell hk hk'
    rcases hcases hk with ⟨rfl, rfl⟩ | hold <;> rcases hcases hk' with ⟨rfl, hcell⟩ | hold'
    · rfl
    · exact absurd (h.lt hold') (Nat.lt_irrefl _)
    · exact absurd (hcell ▸ h.lt hold) (Nat.lt_irrefl _)
    · exact h.inj hold hold'

theorem Sound.release (h : s.Sound) (key : String) : (s.release key).Sound := by
  have hsub : ∀ {k cell}, (s.release key).cellOf? k = some cell → s.cellOf? k = some cell := by
    intro k cell hk
    by_cases hkey : k = key
    · subst hkey
      rw [cellOf?_release_self, Option.filter_eq_some_iff] at hk
      exact hk.1
    · rwa [cellOf?_release_of_ne hkey] at hk
  exact ⟨fun hk => cells_release s key ▸ h.lt (hsub hk), fun hk hk' => h.inj (hsub hk) (hsub hk')⟩

/-! ## Asking for an instance -/

/-- The cell that a call looks for, a new one where the digest has none. -/
def claim (s : Instances ι) (key : String) : Nat × Instances ι :=
  match s.cellOf? key with
  | some cell => (cell, s)
  | none => (s.cells.length, s.reserve key)

theorem step_started (key : String) (attempt : Except Error ι) (s : Instances ι) :
    step key attempt .started s = (.waiting (s.claim key).1, (s.claim key).2) := by
  cases hcell : s.cellOf? key <;> simp [step, claim, hcell]

theorem step_waiting_of_some (key : String) (attempt : Except Error ι) {i : ι}
    (h : s.get? cell = some i) : step key attempt (.waiting cell) s = (.finished (.ok cell), s) := by
  simp [step, h]

theorem step_waiting_of_none (key : String) (attempt : Except Error ι) (h : s.get? cell = none) :
    step key attempt (.waiting cell) s = (.creating cell, s) := by
  simp [step, h]

@[simp] theorem get?_claim (s : Instances ι) (key : String) (cell : Nat) :
    (s.claim key).2.get? cell = s.get? cell := by
  unfold claim
  cases s.cellOf? key with
  | some cell => rfl
  | none => exact get?_reserve ..

theorem cellOf?_claim_self (s : Instances ι) (key : String) :
    (s.claim key).2.cellOf? key = some (s.claim key).1 := by
  unfold claim
  cases h : s.cellOf? key with
  | some cell => exact h
  | none => exact cellOf?_reserve_self h

theorem cellOf?_claim_of_ne (h : other ≠ key) : (s.claim key).2.cellOf? other = s.cellOf? other := by
  unfold claim
  cases s.cellOf? key with
  | some cell => rfl
  | none => exact cellOf?_reserve_of_ne h

theorem Sound.claim (h : s.Sound) (key : String) : (s.claim key).2.Sound := by
  unfold Instances.claim
  cases hcell : s.cellOf? key with
  | some cell => exact h
  | none => exact h.reserve hcell

/-- What a call that nothing interrupts comes to. -/
theorem runOn_resolve (definition : Value) (attempt : Except Error ι) (s : Instances ι) :
    (resolve definition attempt).runOn s =
      let (cell, t) := s.claim definition.digest
      if (t.get? cell).isSome then (.ok cell, t)
      else match attempt with
        | .ok i => (.ok cell, t.set cell i)
        | .error e => (.error e, t.release definition.digest) := by
  rw [resolve, Action.runOn_updating]
  simp only [steps, step_started]
  rcases s.claim definition.digest with ⟨cell, t⟩
  cases hfilled : (t.get? cell).isSome with
  | true => simp [step, hfilled]
  | false => cases attempt <;> simp [step, hfilled]

/-- How a call ends: with the instance in the slot, with a new one, or with a failed creation. -/
inductive Resolves (key : String) (attempt : Except Error ι) (s : Instances ι) :
    Except Error Nat → Instances ι → Prop
  | found {cell : Nat} {i : ι} {t : Instances ι} : s.slot? key = some (cell, i) →
    t.slot? key = some (cell, i) → Resolves key attempt s (.ok cell) t
  | built {cell : Nat} {i : ι} {t : Instances ι} : s.slot? key = none → attempt = .ok i →
    t.slot? key = some (cell, i) → Resolves key attempt s (.ok cell) t
  | refused {e : Error} {t : Instances ι} : s.slot? key = none → attempt = .error e →
    t.slot? key = none → Resolves key attempt s (.error e) t

/-- What asking for the instance of a digest does. -/
structure Resolved (key : String) (attempt : Except Error ι) (s : Instances ι)
    (r : Except Error Nat × Instances ι) : Prop where
  sound : r.2.Sound
  others : ∀ other, other ≠ key → r.2.slot? other = s.slot? other
  outcome : Resolves key attempt s r.1 r.2

theorem slot?_claim (s : Instances ι) (key : String) :
    s.slot? key = (s.get? (s.claim key).1).map fun i => ((s.claim key).1, i) := by
  unfold slot? claim
  cases s.cellOf? key with
  | some cell => rfl
  | none =>
    have hempty : s.get? s.cells.length = none := by simp [get?]
    simp [hempty]

/-- Filling the cell of a digest changes no other slot. -/
theorem Sound.slot?_set_of_ne (h : s.Sound) (hcell : s.cellOf? key = some cell) (hne : other ≠ key)
    (i : ι) : (s.set cell i).slot? other = s.slot? other := by
  refine slot?_congr (cellOf?_set ..) fun c hc => get?_set_of_ne ?_ i
  rintro rfl
  exact hne (h.inj hc hcell)

theorem Sound.slot?_set_self (h : s.Sound) (hcell : s.cellOf? key = some cell) (i : ι) :
    (s.set cell i).slot? key = some (cell, i) :=
  slot?_eq_some_iff.2 ⟨hcell, get?_set_self (h.lt hcell) i⟩

theorem slot?_release_of_ne (hne : other ≠ key) : (s.release key).slot? other = s.slot? other :=
  slot?_congr (cellOf?_release_of_ne hne) fun cell _ => get?_release s key cell

theorem slot?_release_self (hcell : s.cellOf? key = some cell) (hempty : s.get? cell = none) :
    (s.release key).slot? key = none := by
  have hgiven : (s.release key).cellOf? key = none := by
    rw [cellOf?_release_self, hcell]
    simp [Option.filter, hempty]
  rw [slot?, hgiven, Option.bind_none]

theorem resolved_resolve (h : s.Sound) (definition : Value) (attempt : Except Error ι) :
    Resolved definition.digest attempt s ((resolve definition attempt).runOn s) := by
  have hslot := s.slot?_claim definition.digest
  have hsound := h.claim definition.digest
  have hself := s.cellOf?_claim_self definition.digest
  have hget := s.get?_claim definition.digest
  have hothers : ∀ other, other ≠ definition.digest →
      (s.claim definition.digest).2.slot? other = s.slot? other :=
    fun other hne => slot?_congr (cellOf?_claim_of_ne hne) fun cell _ => hget cell
  rw [runOn_resolve]
  rw [← hget] at hslot
  generalize definition.digest = key at *
  generalize s.claim key = claimed at *
  obtain ⟨cell, t⟩ := claimed
  simp only at *
  cases hfilled : t.get? cell with
  | some i =>
    rw [hfilled] at hslot
    exact ⟨hsound, hothers, .found hslot (slot?_eq_some_iff.2 ⟨hself, hfilled⟩)⟩
  | none =>
    rw [hfilled] at hslot
    cases attempt with
    | ok i =>
      refine ⟨hsound.set cell i, fun other hne => ?_, .built hslot rfl (hsound.slot?_set_self hself i)⟩
      exact (hsound.slot?_set_of_ne hself hne i).trans (hothers other hne)
    | error e =>
      refine ⟨hsound.release key, fun other hne => ?_, .refused hslot rfl ?_⟩
      · exact (slot?_release_of_ne hne).trans (hothers other hne)
      · exact slot?_release_self hself hfilled

end QueryLayer.Instances
