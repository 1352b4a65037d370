import QueryLayer.Action.Progress

/-! # Actions

An operation on a state, which may wait for others that run beside it. An action that fails may still
have changed the state, which is therefore kept beside the error.
-/
namespace QueryLayer

/-- An operation on a state; the state survives a failure. -/
def Action (σ α : Type) : Type := σ → Progress σ α

namespace Action

variable {σ τ α β : Type}

instance : Monad (Action σ) where
  pure a := fun s => .ended (.ok a) s
  bind act next := fun s => (act s).bind next

theorem map_id (act : Action σ α) : id <$> act = act := by
  funext s
  exact (congrArg (act s).andThen Progress.onSuccess_ended).trans (Progress.andThen_ended _)

theorem bind_bind {γ : Type} (act : Action σ α) (f : α → Action σ β) (g : β → Action σ γ) :
    act >>= f >>= g = act >>= fun a => f a >>= g := by
  funext s
  refine (Progress.andThen_assoc _ _ _).trans (congrArg (act s).andThen ?_)
  funext r t
  cases r <;> rfl

instance : LawfulMonad (Action σ) := .mk' _ map_id (fun _ _ => rfl) bind_bind

def ofExcept (e : Except Error α) : Action σ α := fun s => .ended e s

instance : MonadLift (Except Error) (Action σ) := ⟨ofExcept⟩

/-- The outcome of an action as its answer. -/
def attempt (act : Action σ α) : Action σ (Except Error α) := fun s =>
  (act s).andThen fun r s => .ended (.ok r) s

instance : MonadExceptOf Error (Action σ) where
  throw e := ofExcept (.error e)
  tryCatch act handler := do
    match ← act.attempt with
    | .ok a => pure a
    | .error e => handler e

/-- The outcome of an action that runs alone, and the state after it. -/
def runOn (act : Action σ α) (s : σ) : Except Error α × σ := (act s).finish

/-- Reads the state without changing it. -/
def reading (f : σ → Except Error α) : Action σ α := fun s => .ended (f s) s

/-- Answers from the state and replaces it. -/
def updating (f : σ → Except Error α × σ) : Action σ α := fun s => .ended (f s).1 (f s).2

/-- Runs an action on a part of the state. -/
def zoom (l : Lens σ τ) (act : Action τ α) : Action σ α := fun s => (act (l.get s)).zoom l s

@[simp] theorem runOn_reading (f : σ → Except Error α) (s : σ) :
    (reading f).runOn s = (f s, s) := rfl

@[simp] theorem runOn_updating (f : σ → Except Error α × σ) (s : σ) :
    (updating f).runOn s = f s := rfl

@[simp] theorem runOn_ofExcept (e : Except Error α) (s : σ) :
    (ofExcept e : Action σ α).runOn s = (e, s) := rfl

@[simp] theorem runOn_pure (a : α) (s : σ) : (pure a : Action σ α).runOn s = (.ok a, s) := rfl

@[simp] theorem runOn_throw (e : Error) (s : σ) :
    (throw e : Action σ α).runOn s = (.error e, s) := rfl

/-- A failure ends a sequence of actions; the state is that of the last action that ran. -/
theorem runOn_bind (act : Action σ α) (next : α → Action σ β) (s : σ) :
    (act >>= next).runOn s =
      match act.runOn s with
      | (.ok a, t) => (next a).runOn t
      | (.error e, t) => (.error e, t) := by
  refine (Progress.finish_andThen _ _).trans ?_
  change _ = match (act s).finish with | (.ok a, t) => _ | (.error e, t) => _
  rcases (act s).finish with ⟨_ | _, t⟩ <;> rfl

theorem runOn_attempt (act : Action σ α) (s : σ) :
    act.attempt.runOn s = (.ok (act.runOn s).1, (act.runOn s).2) :=
  Progress.finish_andThen _ _

theorem runOn_zoom {l : Lens σ τ} (h : l.Lawful) (act : Action τ α) (s : σ) :
    (act.zoom l).runOn s = ((act.runOn (l.get s)).1, l.set (act.runOn (l.get s)).2 s) :=
  Progress.finish_zoom h s _

/-- An action that never waits. -/
def IsPrompt (act : Action σ α) : Prop := ∀ s, act s = .ended (act.runOn s).1 (act.runOn s).2

theorem isPrompt_pure (a : α) : IsPrompt (pure a : Action σ α) := fun _ => rfl

theorem isPrompt_ofExcept (e : Except Error α) : IsPrompt (ofExcept e : Action σ α) := fun _ => rfl

theorem isPrompt_reading (f : σ → Except Error α) : IsPrompt (reading f) := fun _ => rfl

theorem isPrompt_updating (f : σ → Except Error α × σ) : IsPrompt (updating f) := fun _ => rfl

theorem IsPrompt.bind {act : Action σ α} {next : α → Action σ β} (h : act.IsPrompt)
    (hnext : ∀ a, (next a).IsPrompt) : (act >>= next).IsPrompt := by
  intro s
  rw [runOn_bind]
  change (act s).bind next = _
  rw [h s]
  rcases act.runOn s with ⟨e | a, t⟩
  · rfl
  · exact hnext a t

end Action

end QueryLayer
