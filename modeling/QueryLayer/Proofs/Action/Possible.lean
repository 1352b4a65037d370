import QueryLayer.Proofs.Action.Yields

/-! # What actions can end with

`act.CanEnd r`: from some state, and whatever others do to the state while it waits, the action comes to the
outcome `r`. What an action yields holds of all that it can end with, and nothing more can be said without an
invariant: `Action.yields_canEnd`.
-/
namespace QueryLayer

namespace Progress

variable {σ α β : Type}

inductive CanEnd (r : Except Error α) : Progress σ α → Prop
  | ended (s : σ) : CanEnd r (ended r s)
  | resumed {s : σ} {ready : σ → Bool} {abandon : σ → σ} {resume : σ → Progress σ α} (t : σ) :
    CanEnd r (resume t) → CanEnd r (waiting s ready abandon resume)

theorem canEnd_finish (p : Progress σ α) : p.CanEnd p.finish.1 := by
  induction p with
  | ended r s => exact .ended s
  | waiting s ready abandon resume ih => exact .resumed s (ih s)

theorem CanEnd.of_yields {r : Except Error α} {P : α → Prop} {E : Error → Prop} {p : Progress σ α}
    (h : p.CanEnd r) (hp : p.Yields (fun _ => True) P E) :
    (∀ a, r = .ok a → P a) ∧ ∀ e, r = .error e → E e := by
  induction h with
  | ended s => exact (Yields.finish hp).2
  | resumed t _ ih => exact ih (hp.2.2 t trivial)

theorem yields_canEnd (p : Progress σ α) :
    p.Yields (fun _ => True) (fun a => p.CanEnd (.ok a)) fun e => p.CanEnd (.error e) := by
  induction p with
  | ended r s =>
    cases r with
    | ok a => exact ⟨trivial, .ended s⟩
    | error e => exact ⟨trivial, .ended s⟩
  | waiting s ready abandon resume ih =>
    exact ⟨trivial, fun _ _ => trivial, fun t _ => (ih t).mono (fun _ h => .resumed t h) fun _ h => .resumed t h⟩

theorem bind_congr_of_canEnd {p : Progress σ α} {f g : α → σ → Progress σ β}
    (h : ∀ a, p.CanEnd (.ok a) → ∀ s, f a s = g a s) : p.bind f = p.bind g := by
  induction p with
  | ended r s =>
    cases r with
    | ok a => exact h a (.ended s) s
    | error e => rfl
  | waiting s ready abandon resume ih =>
    refine congrArg (waiting s ready abandon) (funext fun t => ?_)
    exact ih t fun a ha => h a (.resumed t ha)

end Progress

namespace Action

variable {σ α β : Type} {act : Action σ α}

def CanEnd (act : Action σ α) (r : Except Error α) : Prop := ∃ s, (act s).CanEnd r

theorem canEnd_runOn (act : Action σ α) (s : σ) : act.CanEnd (act.runOn s).1 := ⟨s, (act s).canEnd_finish⟩

theorem CanEnd.ok_of_yields {P : α → Prop} {E : Error → Prop} {a : α} (h : act.CanEnd (.ok a))
    (hact : act.Yields (fun _ => True) P E) : P a := by
  obtain ⟨s, h⟩ := h
  exact (h.of_yields (hact s trivial)).1 a rfl

theorem CanEnd.error_of_yields {P : α → Prop} {E : Error → Prop} {e : Error} (h : act.CanEnd (.error e))
    (hact : act.Yields (fun _ => True) P E) : E e := by
  obtain ⟨s, h⟩ := h
  exact (h.of_yields (hact s trivial)).2 e rfl

theorem yields_canEnd (act : Action σ α) :
    act.Yields (fun _ => True) (fun a => act.CanEnd (.ok a)) fun e => act.CanEnd (.error e) :=
  fun s _ => (act s).yields_canEnd.mono (fun _ h => ⟨s, h⟩) fun _ h => ⟨s, h⟩

/-- What comes after an action matters for the answers only that it can give. -/
theorem bind_congr_of_canEnd {f g : α → Action σ β} (h : ∀ a, act.CanEnd (.ok a) → f a = g a) :
    act >>= f = act >>= g :=
  funext fun s => Progress.bind_congr_of_canEnd fun a ha => congrFun (h a ⟨s, ha⟩)

end Action

end QueryLayer
