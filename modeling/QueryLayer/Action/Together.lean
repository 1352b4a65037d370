import QueryLayer.Action.Basic

/-! # Actions that run together

Actions on one state begin in order and then go on in rounds. Where only one of them may be under way,
they take turns in the order in which they asked. Actions that never wait simply run one after the
other: `together_eq_mapM`.
-/
namespace QueryLayer.Action

variable {σ α β : Type}

/-- Lets the others go on. -/
def pause : Action σ Unit := fun s => .waiting s (fun _ => true) id fun s => .ended (.ok ()) s

def waitUntil (ready : σ → Bool) : Action σ Unit := fun s =>
  if ready s then .ended (.ok ()) s else .waiting s ready id fun s => .ended (.ok ()) s

/-- The number of the next one in a queue. -/
def nextTicket (queue : List Nat) : Nat := (queue.getLast?.map (· + 1)).getD 0

/-- Runs an action when all that asked before have left the queue; it leaves the queue at its end or
when it is given up. -/
def inTurn (queue : Lens σ (List Nat)) (act : Action σ α) : Action σ α := fun s =>
  let ticket := nextTicket (queue.get s)
  let inLine : Action σ α := do
    waitUntil fun s => (queue.get s).head? = some ticket
    act
  (inLine (queue.set (queue.get s ++ [ticket]) s)).ensuring fun s =>
    queue.set ((queue.get s).erase ticket) s

/-- An action that runs alone gets its turn at once, whoever is in the queue. -/
theorem runOn_inTurn (l : Lens σ (List Nat)) (act : Action σ α) (s : σ) :
    (act.inTurn l).runOn s =
      ((act.runOn (l.set (l.get s ++ [nextTicket (l.get s)]) s)).1,
        l.set ((l.get (act.runOn (l.set (l.get s ++ [nextTicket (l.get s)]) s)).2).erase
          (nextTicket (l.get s))) (act.runOn (l.set (l.get s ++ [nextTicket (l.get s)]) s)).2) := by
  have hwait : ∀ (ready : σ → Bool) (t : σ), (waitUntil ready).runOn t = (.ok (), t) := by
    intro ready t
    cases hready : ready t <;> simp [waitUntil, runOn, hready, Progress.finish]
  have hline : ∀ (ready : σ → Bool) (t : σ), (waitUntil ready >>= fun _ => act).runOn t = act.runOn t := by
    intro ready t
    rw [runOn_bind, hwait]
  refine (Progress.finish_ensuring _ _).trans ?_
  change (Prod.fst (runOn _ _), l.set ((l.get (Prod.snd (runOn _ _))).erase _) (Prod.snd (runOn _ _))) = _
  rw [hline]

/-- Two actions side by side, the first one first. -/
def both (eager : Bool) (first : Action σ α) (second : Action σ β) : Action σ (α × β) := fun s =>
  match first s with
  | .ended (.ok a) s => (second s).map fun b => (a, b)
  | .ended (.error e) s => .ended (.error e) s
  | .waiting s ready abandon resume =>
    let q := second s
    .join eager q.state (.waiting s ready abandon resume) q

/-- The answers of actions that run side by side, the last one first. -/
def joined (eager : Bool) (acts : List (Action σ α)) : Action σ (List α) :=
  acts.foldl (fun done act => (fun e => e.2 :: e.1) <$> both eager done act) (pure [])

/-- More actions than this report their failures in order. -/
def eagerLimit : Nat := 30

/-- The answers of actions that run together. A failure ends them all, at once if they are few. -/
def together (acts : List (Action σ α)) : Action σ (List α) :=
  List.reverse <$> joined (acts.length ≤ eagerLimit) acts

/-- The outcomes of actions that run together. -/
def gather (acts : List (Action σ α)) : Action σ (List (Except Error α)) :=
  together (acts.map attempt)

theorem both_eq_of_isPrompt {first : Action σ α} (h : first.IsPrompt) (eager : Bool)
    (second : Action σ β) :
    both eager first second = (do let a ← first; let b ← second; pure (a, b)) := by
  funext s
  simp only [both]
  change _ = (first s).bind _
  rw [h s]
  rcases first.runOn s with ⟨e | a, t⟩ <;> rfl

theorem isPrompt_both {first : Action σ α} {second : Action σ β} (h : first.IsPrompt)
    (hsecond : second.IsPrompt) (eager : Bool) : (both eager first second).IsPrompt := by
  rw [both_eq_of_isPrompt h]
  exact h.bind fun a => hsecond.bind fun b => isPrompt_pure (a, b)

theorem foldl_both_eq {acts : List (Action σ α)} (h : ∀ act ∈ acts, act.IsPrompt) (eager : Bool)
    {done : Action σ (List α)} (hdone : done.IsPrompt) :
    acts.foldl (fun done act => (fun e => e.2 :: e.1) <$> both eager done act) done =
      (do let before ← done; let answers ← acts.mapM id; pure (answers.reverse ++ before)) := by
  induction acts generalizing done with
  | nil => simp
  | cons act rest ih =>
    have hact := h act (by simp)
    have step : ((fun e => e.2 :: e.1) <$> both eager done act : Action σ (List α)).IsPrompt := by
      rw [map_eq_pure_bind]
      exact (isPrompt_both hdone hact eager).bind fun e => isPrompt_pure _
    rw [List.foldl_cons, ih (fun act hmem => h act (by simp [hmem])) step,
      both_eq_of_isPrompt hdone]
    simp

/-- Actions that never wait run one after the other. -/
theorem together_eq_mapM {acts : List (Action σ α)} (h : ∀ act ∈ acts, act.IsPrompt) :
    together acts = acts.mapM id := by
  rw [together, joined, foldl_both_eq h _ (isPrompt_pure [])]
  simp

end QueryLayer.Action
