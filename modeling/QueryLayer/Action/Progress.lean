import QueryLayer.Action.Lens
import QueryLayer.Error

/-! # Progress of actions

What an action has come to when it is run for a while: it has ended, or it waits. What waits can go
on, be given up, or be joined with others in rounds, in each of which everything that is ready goes
on once. `finish_andThen` says that waiting changes no outcome of an action that runs alone.
-/
namespace QueryLayer

/-- An action that has ended, or one that waits: `ready` says in which states it can go on, `abandon`
what giving it up does, and `resume` how it goes on. -/
inductive Progress (σ α : Type) where
  | ended (result : Except Error α) (state : σ)
  | waiting (state : σ) (ready : σ → Bool) (abandon : σ → σ) (resume : σ → Progress σ α)

namespace Progress

variable {σ τ α β : Type}

/-- The state that an action left when it ended or began to wait. -/
def state : Progress σ α → σ
  | ended _ s => s
  | waiting s .. => s

def hasFailed : Progress σ α → Bool
  | ended (.error _) _ => true
  | _ => false

/-- The outcome of an action that runs alone, and the state after it. -/
def finish : Progress σ α → Except Error α × σ
  | ended r s => (r, s)
  | waiting s _ _ resume => (resume s).finish

/-- Goes on with an outcome once there is one. -/
def andThen (p : Progress σ α) (next : Except Error α → σ → Progress σ β) : Progress σ β :=
  match p with
  | ended r s => next r s
  | waiting s ready abandon resume => waiting s ready abandon fun s => (resume s).andThen next

/-- What comes after a success; a failure ends everything. -/
def onSuccess (next : α → σ → Progress σ β) : Except Error α → σ → Progress σ β
  | .ok a, s => next a s
  | .error e, s => ended (.error e) s

def bind (p : Progress σ α) (next : α → σ → Progress σ β) : Progress σ β :=
  p.andThen (onSuccess next)

def map (f : α → β) (p : Progress σ α) : Progress σ β := p.bind fun a s => ended (.ok (f a)) s

/-- Changes the state at the end, and also when the action is given up. -/
def ensuring (release : σ → σ) : Progress σ α → Progress σ α
  | ended r s => ended r (release s)
  | waiting s ready abandon resume =>
    waiting s ready (fun s => release (abandon s)) fun s => (resume s).ensuring release

/-- The progress of an action on a part of a larger state, which is `t` now. -/
def zoom (l : Lens τ σ) (t : τ) : Progress σ α → Progress τ α
  | ended r s => ended r (l.set s t)
  | waiting s ready abandon resume =>
    waiting (l.set s t) (fun t => ready (l.get t)) (fun t => l.set (abandon (l.get t)) t)
      fun t => (resume (l.get t)).zoom l t

/-- The same progress after others have changed the state. -/
def now (s : σ) : Progress σ α → Progress σ α
  | ended r _ => ended r s
  | waiting _ ready abandon resume => waiting s ready abandon resume

/-- The state after an action was given up. -/
def giveUp (s : σ) : Progress σ α → σ
  | ended _ _ => s
  | waiting _ _ abandon _ => abandon s

/-- What an action comes to when it goes on once more. -/
inductive Follows : Progress σ α → Progress σ α → Prop
  | resume (s : σ) (ready : σ → Bool) (abandon : σ → σ) (resume : σ → Progress σ α) (t : σ) :
    Follows (resume t) (waiting s ready abandon resume)

theorem follows_wellFounded : WellFounded (Follows (σ := σ) (α := α)) := by
  refine ⟨fun p => ?_⟩
  induction p with
  | ended r s => exact ⟨_, fun q h => nomatch h⟩
  | waiting s ready abandon resume ih =>
    refine ⟨_, fun q h => ?_⟩
    cases h
    exact ih _

instance : WellFoundedRelation (Progress σ α) := ⟨Follows, follows_wellFounded⟩

/-- Two actions side by side. In a round the first goes on if it is ready, and then the second. A
failure of the first ends both at once, and so does a failure of the second where that is `eager`;
otherwise it counts when the first has ended. If neither is ready, the first goes on. -/
def join (eager : Bool) (s : σ) (p : Progress σ α) (q : Progress σ β) : Progress σ (α × β) :=
  match p, q with
  | ended (.ok a) _, q => (q.now s).map fun b => (a, b)
  | ended (.error e) _, q => ended (.error e) (q.giveUp s)
  | waiting _ ready abandon resume, ended (.ok b) _ =>
    (waiting s ready abandon resume).map fun a => (a, b)
  | waiting _ ready abandon resume, ended (.error e) _ =>
    if eager then ended (.error e) (abandon s)
    else (waiting s ready abandon resume).bind fun _ s => ended (.error e) s
  | waiting t ready abandon resume, waiting u ready' abandon' resume' =>
    waiting s (fun s => ready s || ready' s) (fun s => abandon' (abandon s)) fun s =>
      if ready s || !ready' s then
        let p := resume s
        let s := p.state
        if p.hasFailed || !ready' s then join eager s p (waiting u ready' abandon' resume')
        else
          let q := resume' s
          join eager q.state p q
      else
        let q := resume' s
        join eager q.state (waiting t ready abandon resume) q
termination_by (p, q)
decreasing_by
  · exact Prod.Lex.left _ _ (.resume ..)
  · exact Prod.Lex.left _ _ (.resume ..)
  · exact Prod.Lex.right _ (.resume ..)

@[simp] theorem finish_ended (r : Except Error α) (s : σ) : (ended r s).finish = (r, s) := rfl

theorem andThen_ended (p : Progress σ α) : p.andThen ended = p := by
  induction p with
  | ended r s => rfl
  | waiting s ready abandon resume ih => simp [andThen, ih]

theorem andThen_assoc {γ : Type} (p : Progress σ α) (f : Except Error α → σ → Progress σ β)
    (g : Except Error β → σ → Progress σ γ) :
    (p.andThen f).andThen g = p.andThen fun r s => (f r s).andThen g := by
  induction p with
  | ended r s => rfl
  | waiting s ready abandon resume ih => simp [andThen, ih]

theorem onSuccess_ended : onSuccess (fun a s => ended (.ok a) s) = ended (σ := σ) (α := α) := by
  funext r s
  cases r <;> rfl

theorem finish_andThen (p : Progress σ α) (next : Except Error α → σ → Progress σ β) :
    (p.andThen next).finish = (next p.finish.1 p.finish.2).finish := by
  induction p with
  | ended r s => rfl
  | waiting s ready abandon resume ih => exact ih s

theorem finish_ensuring (release : σ → σ) (p : Progress σ α) :
    (p.ensuring release).finish = (p.finish.1, release p.finish.2) := by
  induction p with
  | ended r s => rfl
  | waiting s ready abandon resume ih => exact ih s

theorem finish_zoom {l : Lens τ σ} (h : l.Lawful) (t : τ) (p : Progress σ α) :
    (p.zoom l t).finish = (p.finish.1, l.set p.finish.2 t) := by
  induction p generalizing t with
  | ended r s => rfl
  | waiting s ready abandon resume ih =>
    simp only [zoom, finish]
    rw [ih, h.get_set, h.set_set]

end Progress

end QueryLayer
