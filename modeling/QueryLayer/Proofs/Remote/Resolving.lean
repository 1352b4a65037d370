import QueryLayer.Proofs.Remote.Instances
import QueryLayer.Value.Order

/-! # Overlapping calls for one definition

Calls for one definition that overlap end with the same instance, provided that no cell is filled
after it was given up. That can happen: a call that fails gives up a cell in which another one has
begun to create already, and once the instance is there, nobody finds it any more. Main statement:
`ResolveRace.shares_run`.
-/
namespace QueryLayer

variable {ι : Type}

/-- What happens in a race: a call begins, or one goes on; `attempt` is what a creation gives then. -/
inductive ResolveMove (ι : Type) where
  | join
  | advance (call : Nat) (attempt : Except Error ι)

/-- The cell that a call has to do with. -/
def ResolveStage.cell? : ResolveStage → Option Nat
  | waiting cell | creating cell | finished (.ok cell) => some cell
  | started | failed _ | finished (.error _) => none

namespace ResolveRace

/-- No call has begun yet. -/
def start (s : Instances ι) : ResolveRace ι := ⟨s, []⟩

def next (key : String) (r : ResolveRace ι) : ResolveMove ι → ResolveRace ι
  | .join => r.join
  | .advance call attempt => r.advance key attempt call

def run (key : String) (r : ResolveRace ι) (moves : List (ResolveMove ι)) : ResolveRace ι :=
  moves.foldl (next key) r

/-- The calls that have ended with an instance have all ended with the same one. -/
def Shares (r : ResolveRace ι) : Prop :=
  ∀ c c', .finished (.ok c) ∈ r.calls → .finished (.ok c') ∈ r.calls → c = c'

/-- The cell that a move fills. -/
def fills? (r : ResolveRace ι) : ResolveMove ι → Option Nat
  | .advance call (.ok _) =>
    match r.calls[call]? with
    | some (.creating cell) => some cell
    | _ => none
  | .join | .advance _ (.error _) => none

/-- No cell is filled after it was given up. -/
def orderly (key : String) (r : ResolveRace ι) : List (ResolveMove ι) → Bool
  | [] => true
  | m :: moves => ((r.fills? m).all fun cell => r.state.cellOf? key = some cell) &&
      orderly key (r.next key m) moves

/-! ## One move -/

variable {key : String} {r r' : ResolveRace ι} {m : ResolveMove ι}

/-- What a move can do. -/
inductive Moved (key : String) (r : ResolveRace ι) : ResolveMove ι → ResolveRace ι → Prop
  | stuck {m : ResolveMove ι} : Moved key r m r
  | joined : Moved key r .join ⟨r.state, r.calls ++ [.started]⟩
  | looked {call : Nat} {attempt : Except Error ι} : r.calls[call]? = some .started →
    Moved key r (.advance call attempt)
      ⟨(r.state.claim key).2, r.calls.set call (.waiting (r.state.claim key).1)⟩
  | found {call cell : Nat} {attempt : Except Error ι} : r.calls[call]? = some (.waiting cell) →
    (r.state.get? cell).isSome = true →
    Moved key r (.advance call attempt) ⟨r.state, r.calls.set call (.finished (.ok cell))⟩
  | began {call cell : Nat} {attempt : Except Error ι} : r.calls[call]? = some (.waiting cell) →
    r.state.get? cell = none → (∀ c, .creating c ∈ r.calls → c ≠ cell) →
    Moved key r (.advance call attempt) ⟨r.state, r.calls.set call (.creating cell)⟩
  | filled {call cell : Nat} {i : ι} : r.calls[call]? = some (.creating cell) →
    Moved key r (.advance call (.ok i)) ⟨r.state.set cell i, r.calls.set call (.finished (.ok cell))⟩
  | failed {call cell : Nat} {e : Error} : r.calls[call]? = some (.creating cell) →
    Moved key r (.advance call (.error e)) ⟨r.state, r.calls.set call (.failed e)⟩
  | gaveUp {call : Nat} {e : Error} {attempt : Except Error ι} : r.calls[call]? = some (.failed e) →
    Moved key r (.advance call attempt)
      ⟨r.state.release key, r.calls.set call (.finished (.error e))⟩

/-- A call that can go on takes its next step. -/
theorem next_of_canAdvance {call : Nat} {stage : ResolveStage} (hcall : r.calls[call]? = some stage)
    (hcan : r.canAdvance call = true) (attempt : Except Error ι) :
    r.next key (.advance call attempt) =
      ⟨(Instances.step key attempt stage r.state).2,
        r.calls.set call (Instances.step key attempt stage r.state).1⟩ := by
  simp [next, advance, hcall, hcan]

theorem next_stuck {call : Nat} (hcan : r.canAdvance call = false) (attempt : Except Error ι) :
    r.next key (.advance call attempt) = r := by
  unfold next advance
  simp only
  split
  · exact if_neg (ne_true_of_eq_false hcan)
  · rfl

/-- A call waits for its turn in its cell. -/
theorem ne_of_canAdvance_waiting {call cell : Nat} (hcall : r.calls[call]? = some (.waiting cell))
    (hcan : r.canAdvance call = true) {c : Nat} (hc : .creating c ∈ r.calls) : c ≠ cell := by
  rintro rfl
  rw [canAdvance, hcall] at hcan
  have hnone : r.calls.any (isCreating c) = false := Bool.not_eq_true' _ ▸ hcan
  exact List.any_eq_false.1 hnone _ hc (decide_eq_true rfl)

theorem moved_next (key : String) (r : ResolveRace ι) (m : ResolveMove ι) :
    Moved key r m (r.next key m) := by
  cases m with
  | join => exact .joined
  | advance call attempt =>
    cases hcan : r.canAdvance call with
    | false =>
      rw [next_stuck hcan]
      exact .stuck
    | true =>
      cases hcall : r.calls[call]? with
      | none =>
        rw [canAdvance, hcall] at hcan
        exact absurd hcan Bool.false_ne_true
      | some stage =>
        rw [next_of_canAdvance hcall hcan]
        cases stage with
        | started =>
          rw [Instances.step_started]
          exact .looked hcall
        | waiting cell =>
          cases hget : r.state.get? cell with
          | some i =>
            rw [Instances.step_waiting_of_some key attempt hget]
            exact .found hcall (Option.isSome_iff_exists.2 ⟨i, hget⟩)
          | none =>
            rw [Instances.step_waiting_of_none key attempt hget]
            exact .began hcall hget fun _ hc => ne_of_canAdvance_waiting hcall hcan hc
        | creating cell =>
          cases attempt with
          | ok i => exact .filled hcall
          | error e => exact .failed hcall
        | failed e => exact .gaveUp hcall
        | finished outcome =>
          rw [canAdvance, hcall] at hcan
          exact absurd hcan Bool.false_ne_true

/-- What every move keeps, a run keeps. -/
theorem run_keeps (key : String) {P : ResolveRace ι → Prop}
    (hstep : ∀ r r' m, P r → Moved key r m r' → P r') (moves : List (ResolveMove ι)) (h : P r) :
    P (r.run key moves) := by
  induction moves generalizing r with
  | nil => exact h
  | cons m moves ih => exact ih (hstep r _ m h (moved_next key r m))

theorem fills?_eq_some_iff {cell : Nat} : r.fills? m = some cell ↔
    ∃ call i, m = .advance call (.ok i) ∧ r.calls[call]? = some (.creating cell) := by
  constructor
  · intro h
    unfold fills? at h
    split at h
    · next call i =>
      split at h
      · next found hcall =>
        obtain rfl := Option.some.inj h
        exact ⟨call, i, rfl, hcall⟩
      · cases h
    · cases h
    · cases h
  · rintro ⟨call, i, rfl, hcall⟩
    rw [fills?, hcall]

/-! ## Cells of a race -/

/-- Cells that calls know of exist, those of ended calls are filled, and a cell in which a call
creates is empty and is that call's alone. -/
structure Fits (r : ResolveRace ι) : Prop where
  sound : r.state.Sound
  known : ∀ stage ∈ r.calls, ∀ c ∈ stage.cell?, c < r.state.cells.length
  filled : ∀ c, .finished (.ok c) ∈ r.calls → (r.state.get? c).isSome
  empty : ∀ c, .creating c ∈ r.calls → r.state.get? c = none
  alone : ∀ call other c : Nat, r.calls[call]? = some (.creating c) →
    r.calls[other]? = some (.creating c) → call = other

theorem fits_start {s : Instances ι} (h : s.Sound) : (start s).Fits where
  sound := h
  known _ h := nomatch h
  filled _ h := nomatch h
  empty _ h := nomatch h
  alone _ _ _ h := nomatch h

/-- Where calls stand after one of them has moved. -/
theorem getElem?_set_cases {calls : List ResolveStage} {call other : Nat} {new stage : ResolveStage}
    (h : (calls.set call new)[other]? = some stage) :
    call = other ∧ stage = new ∨ call ≠ other ∧ calls[other]? = some stage := by
  rw [List.getElem?_set] at h
  split at h
  · next heq =>
    split at h
    · exact .inl ⟨heq, (Option.some.inj h).symm⟩
    · exact nomatch h
  · next hne => exact .inr ⟨hne, h⟩

theorem mem_set_cases {calls : List ResolveStage} {call : Nat} {new stage : ResolveStage}
    (h : stage ∈ calls.set call new) : stage = new ∨ stage ∈ calls :=
  (List.mem_or_eq_of_mem_set h).symm

theorem mem_join {calls : List ResolveStage} {stage : ResolveStage} (h : stage ∈ calls ++ [.started])
    (hne : stage ≠ .started) : stage ∈ calls := by
  rcases List.mem_append.1 h with h | h
  · exact h
  · exact absurd (List.mem_singleton.1 h) hne

theorem Fits.known_next (h : r.Fits) (hm : Moved key r m r') :
    ∀ stage ∈ r'.calls, ∀ c ∈ stage.cell?, c < r'.state.cells.length := by
  intro stage hstage c hc
  cases hm with
  | stuck => exact h.known stage hstage c hc
  | joined =>
    refine h.known stage (mem_join hstage ?_) c hc
    rintro rfl
    cases hc
  | looked =>
    have hlength : r.state.cells.length ≤ (r.state.claim key).2.cells.length := by
      unfold Instances.claim
      cases r.state.cellOf? key <;> simp [Instances.reserve]
    rcases mem_set_cases hstage with rfl | hstage
    · obtain rfl := Option.some.inj hc
      exact (h.sound.claim key).lt (r.state.cellOf?_claim_self key)
    · exact Nat.lt_of_lt_of_le (h.known stage hstage c hc) hlength
  | found hcall _ | began hcall _ _ =>
    rcases mem_set_cases hstage with rfl | hstage
    · exact h.known _ (List.mem_of_getElem? hcall) c hc
    · exact h.known stage hstage c hc
  | @filled _ cell i hcall =>
    have hlength : (r.state.set cell i).cells.length = r.state.cells.length := List.length_set
    rw [hlength]
    rcases mem_set_cases hstage with rfl | hstage
    · exact h.known _ (List.mem_of_getElem? hcall) c hc
    · exact h.known stage hstage c hc
  | failed _ =>
    rcases mem_set_cases hstage with rfl | hstage
    · cases hc
    · exact h.known stage hstage c hc
  | gaveUp _ =>
    have hcells : (r.state.release key).cells = r.state.cells := Instances.cells_release _ _
    rw [hcells]
    rcases mem_set_cases hstage with rfl | hstage
    · cases hc
    · exact h.known stage hstage c hc

theorem Fits.filled_next (h : r.Fits) (hm : Moved key r m r') :
    ∀ c, .finished (.ok c) ∈ r'.calls → (r'.state.get? c).isSome := by
  intro c hc
  cases hm with
  | stuck => exact h.filled c hc
  | joined => exact h.filled c (mem_join hc (by simp))
  | looked hcall =>
    rw [Instances.get?_claim]
    exact h.filled c ((mem_set_cases hc).resolve_left (by simp))
  | found hcall hfilled =>
    rcases mem_set_cases hc with heq | hc
    · cases heq
      exact hfilled
    · exact h.filled c hc
  | began _ _ _ | failed _ => exact h.filled c ((mem_set_cases hc).resolve_left (by simp))
  | @filled _ cell i hcall =>
    have hcell : cell < r.state.cells.length := h.known _ (List.mem_of_getElem? hcall) cell rfl
    by_cases hsame : c = cell
    · rw [hsame, Instances.get?_set_self hcell]
      rfl
    · rw [Instances.get?_set_of_ne hsame]
      refine h.filled c ((mem_set_cases hc).resolve_left fun heq => ?_)
      cases heq
      exact hsame rfl
  | gaveUp _ =>
    rw [Instances.get?_release]
    exact h.filled c ((mem_set_cases hc).resolve_left (by simp))

/-- A cell in which a call creates is not that of a call that has just been filled. -/
theorem Fits.empty_next (h : r.Fits) (hm : Moved key r m r') :
    ∀ c, .creating c ∈ r'.calls → r'.state.get? c = none := by
  intro c hc
  cases hm with
  | stuck => exact h.empty c hc
  | joined => exact h.empty c (mem_join hc (by simp))
  | looked hcall =>
    rw [Instances.get?_claim]
    exact h.empty c ((mem_set_cases hc).resolve_left (by simp))
  | found _ _ | failed _ => exact h.empty c ((mem_set_cases hc).resolve_left (by simp))
  | began _ hempty _ =>
    rcases mem_set_cases hc with heq | hc
    · cases heq
      exact hempty
    · exact h.empty c hc
  | @filled call cell i hcall =>
    obtain ⟨other, hother⟩ := List.getElem?_of_mem hc
    rcases getElem?_set_cases hother with ⟨_, heq⟩ | ⟨hne, hother⟩
    · exact nomatch heq
    · have hdiffer : c ≠ cell := fun heq => hne (h.alone call other c (heq ▸ hcall) hother)
      rw [Instances.get?_set_of_ne hdiffer]
      exact h.empty c (List.mem_of_getElem? hother)
  | gaveUp _ =>
    rw [Instances.get?_release]
    exact h.empty c ((mem_set_cases hc).resolve_left (by simp))

theorem Fits.alone_next (h : r.Fits) (hm : Moved key r m r') : ∀ call other c : Nat,
    r'.calls[call]? = some (.creating c) → r'.calls[other]? = some (.creating c) → call = other := by
  intro first second c hfirst hsecond
  have hcreating : ∀ {call other : Nat} {new : ResolveStage}, new ≠ .creating c →
      (r.calls.set call new)[other]? = some (.creating c) → r.calls[other]? = some (.creating c) := by
    intro call other new hnew hother
    rcases getElem?_set_cases hother with ⟨_, heq⟩ | ⟨_, hother⟩
    · exact absurd heq.symm hnew
    · exact hother
  cases hm with
  | stuck => exact h.alone first second c hfirst hsecond
  | joined =>
    have hold : ∀ {call : Nat}, (r.calls ++ [ResolveStage.started])[call]? = some (.creating c) →
        r.calls[call]? = some (.creating c) := by
      intro call hcall
      rw [List.getElem?_append] at hcall
      split at hcall
      · exact hcall
      · exact nomatch List.mem_singleton.1 (List.mem_of_getElem? hcall)
    exact h.alone first second c (hold hfirst) (hold hsecond)
  | looked _ | found _ _ | filled _ | failed _ | gaveUp _ =>
    exact h.alone first second c (hcreating (by simp) hfirst) (hcreating (by simp) hsecond)
  | @began call cell _ _ _ hother =>
    rcases getElem?_set_cases hfirst with ⟨rfl, heq⟩ | ⟨_, hold⟩ <;>
      rcases getElem?_set_cases hsecond with ⟨rfl, heq'⟩ | ⟨_, hold'⟩
    · rfl
    · cases heq
      exact absurd rfl (hother c (List.mem_of_getElem? hold'))
    · cases heq'
      exact absurd rfl (hother c (List.mem_of_getElem? hold))
    · exact h.alone first second c hold hold'

theorem Fits.sound_next (h : r.Fits) (hm : Moved key r m r') : r'.state.Sound := by
  cases hm with
  | stuck | joined | found _ _ | began _ _ _ | failed _ => exact h.sound
  | looked _ => exact h.sound.claim key
  | filled _ => exact h.sound.set _ _
  | gaveUp _ => exact h.sound.release key

theorem Fits.moved (h : r.Fits) (hm : Moved key r m r') : r'.Fits :=
  ⟨h.sound_next hm, h.known_next hm, h.filled_next hm, h.empty_next hm, h.alone_next hm⟩

theorem Fits.run (h : r.Fits) (key : String) (moves : List (ResolveMove ι)) : (r.run key moves).Fits :=
  run_keeps key (fun _ _ _ h hm => h.moved hm) moves h

/-- What was put into a cell stays there. -/
theorem Fits.get?_moved (h : r.Fits) (hm : Moved key r m r') {c : Nat} {i : ι}
    (hget : r.state.get? c = some i) : r'.state.get? c = some i := by
  cases hm with
  | stuck | joined | found _ _ | began _ _ _ | failed _ => exact hget
  | looked _ => rwa [Instances.get?_claim]
  | gaveUp _ => rwa [Instances.get?_release]
  | @filled _ cell _ hcall =>
    have hempty : r.state.get? cell = none := h.empty cell (List.mem_of_getElem? hcall)
    have hne : c ≠ cell := by
      rintro rfl
      exact nomatch hempty.symm.trans hget
    rwa [Instances.get?_set_of_ne hne]

theorem Fits.get?_run (h : r.Fits) (key : String) (moves : List (ResolveMove ι)) {c : Nat} {i : ι}
    (hget : r.state.get? c = some i) : (r.run key moves).state.get? c = some i := by
  have hkeeps := run_keeps key (P := fun r => r.Fits ∧ r.state.get? c = some i)
    (fun _ _ _ h hm => ⟨h.1.moved hm, h.1.get?_moved hm h.2⟩) moves ⟨h, hget⟩
  exact hkeeps.2

/-! ## Cells that were given up -/

/-- Every filled cell that a call knows is that of the definition. -/
def Registered (key : String) (r : ResolveRace ι) : Prop :=
  ∀ stage ∈ r.calls, ∀ c ∈ stage.cell?, (r.state.get? c).isSome → r.state.cellOf? key = some c

theorem Registered.shares (h : r.Registered key) (hfits : r.Fits) : r.Shares := by
  intro c c' hc hc'
  have hcell := h _ hc c rfl (hfits.filled c hc)
  have hcell' := h _ hc' c' rfl (hfits.filled c' hc')
  exact Option.some.inj (hcell.symm.trans hcell')

theorem Registered.moved (h : r.Registered key) (hm : Moved key r m r')
    (horderly : ∀ c ∈ r.fills? m, r.state.cellOf? key = some c) : r'.Registered key := by
  intro stage hstage c hc hfilled
  cases hm with
  | stuck => exact h stage hstage c hc hfilled
  | joined =>
    refine h stage (mem_join hstage ?_) c hc hfilled
    rintro rfl
    cases hc
  | looked _ =>
    rw [Instances.get?_claim] at hfilled
    rcases mem_set_cases hstage with rfl | hstage
    · obtain rfl := Option.some.inj hc
      exact r.state.cellOf?_claim_self key
    · -- where a call knows a filled cell, the definition has it, and no new one is made
      have hcell := h stage hstage c hc hfilled
      rw [Instances.claim, hcell]
      exact hcell
  | found hcall _ | began hcall _ _ =>
    rcases mem_set_cases hstage with rfl | hstage
    · exact h _ (List.mem_of_getElem? hcall) c hc hfilled
    · exact h stage hstage c hc hfilled
  | @filled call cell i hcall =>
    have hcell : r.state.cellOf? key = some cell :=
      horderly cell (fills?_eq_some_iff.2 ⟨call, i, rfl, hcall⟩)
    by_cases hsame : c = cell
    · rw [hsame]
      exact hcell
    · rw [Instances.get?_set_of_ne hsame] at hfilled
      rcases mem_set_cases hstage with rfl | hstage
      · exact absurd (Option.some.inj hc).symm hsame
      · exact h stage hstage c hc hfilled
  | failed _ =>
    rcases mem_set_cases hstage with rfl | hstage
    · cases hc
    · exact h stage hstage c hc hfilled
  | gaveUp _ =>
    rw [Instances.get?_release] at hfilled
    rcases mem_set_cases hstage with rfl | hstage
    · cases hc
    · -- only an empty cell is given up
      have hcell := h stage hstage c hc hfilled
      rw [Instances.cellOf?_release_self, hcell, Option.filter_some, if_pos hfilled]

theorem Registered.run (h : r.Registered key) {moves : List (ResolveMove ι)}
    (horderly : r.orderly key moves = true) : (r.run key moves).Registered key := by
  induction moves generalizing r with
  | nil => exact h
  | cons m moves ih =>
    rw [orderly, Bool.and_eq_true] at horderly
    refine ih (h.moved (moved_next key r m) fun c hc => ?_) horderly.2
    exact of_decide_eq_true ((Option.all_eq_true _ _).1 horderly.1 c hc)

/-- A call has ended with an instance that later calls do not find. -/
def Lost (key : String) (r : ResolveRace ι) : Prop :=
  ∃ c, .finished (.ok c) ∈ r.calls ∧ r.state.cellOf? key ≠ some c

theorem mem_set_of_ne {calls : List ResolveStage} {call : Nat} {old new stage : ResolveStage}
    (hcall : calls[call]? = some old) (hmem : stage ∈ calls) (hne : stage ≠ old) :
    stage ∈ calls.set call new := by
  obtain ⟨other, hother⟩ := List.getElem?_of_mem hmem
  have hdiffer : call ≠ other := by
    rintro rfl
    exact hne (Option.some.inj (hother.symm.trans hcall))
  exact List.mem_of_getElem? ((List.getElem?_set_ne hdiffer).trans hother)

/-- A cell that was given up never gets its name back. -/
theorem Lost.moved (h : r.Lost key) (hfits : r.Fits) (hm : Moved key r m r') : r'.Lost key := by
  obtain ⟨c, hc, hne⟩ := h
  cases hm with
  | stuck => exact ⟨c, hc, hne⟩
  | joined => exact ⟨c, List.mem_append_left _ hc, hne⟩
  | looked hcall =>
    refine ⟨c, mem_set_of_ne hcall hc (by simp), fun hcell => ?_⟩
    -- the number of a new cell is one that no call knows
    have hlt : c < r.state.cells.length := hfits.known _ hc c rfl
    rw [Instances.cellOf?_claim_self] at hcell
    unfold Instances.claim at hcell
    split at hcell
    · next found hfound => exact hne (hfound.trans hcell)
    · exact absurd (Option.some.inj hcell) (Nat.ne_of_gt hlt)
  | found hcall _ | began hcall _ _ | filled hcall | failed hcall =>
    exact ⟨c, mem_set_of_ne hcall hc (by simp), hne⟩
  | gaveUp hcall =>
    refine ⟨c, mem_set_of_ne hcall hc (by simp), fun hcell => ?_⟩
    rw [Instances.cellOf?_release_self, Option.filter_eq_some_iff] at hcell
    exact hne hcell.1

theorem Lost.run (h : r.Lost key) (hfits : r.Fits) (moves : List (ResolveMove ι)) :
    (r.run key moves).Lost key := by
  have hkeeps := run_keeps key (P := fun r => r.Fits ∧ r.Lost key)
    (fun _ _ _ h hm => ⟨h.1.moved hm, h.2.moved h.1 hm⟩) moves ⟨hfits, h⟩
  exact hkeeps.2

theorem next_creating {call cell : Nat} (hcall : r.calls[call]? = some (.creating cell)) (i : ι) :
    r.next key (.advance call (.ok i)) =
      ⟨r.state.set cell i, r.calls.set call (.finished (.ok cell))⟩ :=
  next_of_canAdvance hcall (by rw [canAdvance, hcall]) (.ok i)

theorem lost_of_fills {cell : Nat} (hfills : r.fills? m = some cell)
    (hcell : r.state.cellOf? key ≠ some cell) : (r.next key m).Lost key := by
  obtain ⟨call, i, rfl, hcall⟩ := fills?_eq_some_iff.1 hfills
  rw [next_creating hcall]
  have hlt : call < r.calls.length := (List.getElem?_eq_some_iff.1 hcall).1
  exact ⟨cell, List.mem_set hlt _, hcell⟩

theorem lost_of_not_orderly (hfits : r.Fits) {moves : List (ResolveMove ι)}
    (h : r.orderly key moves = false) : (r.run key moves).Lost key := by
  induction moves generalizing r with
  | nil => exact nomatch h
  | cons m moves ih =>
    have hnext := hfits.moved (moved_next key r m)
    rw [orderly, Bool.and_eq_false_iff] at h
    rcases h with h | h
    · cases hfills : r.fills? m with
      | none =>
        rw [hfills] at h
        exact nomatch h
      | some cell =>
        rw [hfills] at h
        exact (lost_of_fills hfills (of_decide_eq_false h)).run hnext moves
    · exact ih hnext h

/-- The last call takes its next step. -/
theorem next_last (t : Instances ι) (calls : List ResolveStage) (stage : ResolveStage)
    (hcan : canAdvance ⟨t, calls ++ [stage]⟩ calls.length = true) (key : String)
    (attempt : Except Error ι) :
    next key ⟨t, calls ++ [stage]⟩ (.advance calls.length attempt) =
      ⟨(Instances.step key attempt stage t).2, calls ++ [(Instances.step key attempt stage t).1]⟩ := by
  rw [next_of_canAdvance List.getElem?_concat_length hcan]
  simp

/-- No call creates in the cell that a new one finds, unless it does so in that of the definition. -/
theorem ne_claim (hfits : r.Fits) {c : Nat} (hc : .creating c ∈ r.calls)
    (hfree : r.state.cellOf? key ≠ some c) : c ≠ (r.state.claim key).1 := by
  have hlt : c < r.state.cells.length := hfits.known _ hc c rfl
  unfold Instances.claim
  cases hcell : r.state.cellOf? key with
  | some cell => exact fun heq => hfree (heq ▸ hcell)
  | none => exact Nat.ne_of_lt hlt

theorem canAdvance_waiting_last (t : Instances ι) {calls : List ResolveStage} {cell : Nat}
    (h : ∀ c, .creating c ∈ calls → c ≠ cell) :
    canAdvance ⟨t, calls ++ [.waiting cell]⟩ calls.length = true := by
  have hnone : (calls ++ [ResolveStage.waiting cell]).any (isCreating cell) = false := by
    rw [List.any_append, Bool.or_eq_false_iff, List.any_eq_false]
    refine ⟨fun stage hstage hcreating => ?_, rfl⟩
    cases stage with
    | creating c => exact h c hstage (of_decide_eq_true hcreating)
    | started | waiting _ | failed _ | finished _ => exact Bool.false_ne_true hcreating
  rw [canAdvance, List.getElem?_concat_length]
  simp only [hnone, Bool.not_false]

/-- A new call that nobody keeps waiting goes on to the end. -/
theorem exists_found_of_free (hfits : r.Fits) (key : String) (i : ι)
    (hfree : ∀ c, .creating c ∈ r.calls → r.state.cellOf? key ≠ some c) :
    ∃ more c, .finished (.ok c) ∈ (r.run key more).calls ∧
      (r.run key more).state.cellOf? key = some c := by
  have hself := r.state.cellOf?_claim_self key
  have hjoin : r.next key .join = ⟨r.state, r.calls ++ [.started]⟩ := rfl
  have hlook := next_last r.state r.calls .started (by simp [canAdvance]) key (.ok i)
  rw [Instances.step_started] at hlook
  have hcan := canAdvance_waiting_last (r.state.claim key).2 fun c hc => ne_claim hfits hc (hfree c hc)
  have hwait := next_last _ _ _ hcan key (.ok i)
  generalize (r.state.claim key).1 = cell at *
  generalize (r.state.claim key).2 = t at *
  cases hget : t.get? cell with
  | some found =>
    rw [Instances.step_waiting_of_some key (.ok i) hget] at hwait
    refine ⟨[.join, .advance r.calls.length (.ok i), .advance r.calls.length (.ok i)], cell, ?_⟩
    simp only [run, List.foldl_cons, List.foldl_nil, hjoin, hlook, hwait]
    exact ⟨List.mem_append_right _ List.mem_cons_self, hself⟩
  | none =>
    rw [Instances.step_waiting_of_none key (.ok i) hget] at hwait
    have hcreate := next_last t r.calls (.creating cell) (by simp [canAdvance]) key (.ok i)
    refine ⟨[.join, .advance r.calls.length (.ok i), .advance r.calls.length (.ok i),
      .advance r.calls.length (.ok i)], cell, ?_⟩
    simp only [run, List.foldl_cons, List.foldl_nil, hjoin, hlook, hwait, hcreate]
    exact ⟨List.mem_append_right _ List.mem_cons_self, hself⟩

/-- A new call can always come to an end, and finds the cell of the definition. -/
theorem exists_found (hfits : r.Fits) (key : String) (i : ι) :
    ∃ more c, .finished (.ok c) ∈ (r.run key more).calls ∧
      (r.run key more).state.cellOf? key = some c := by
  by_cases hbusy : ∃ c, .creating c ∈ r.calls ∧ r.state.cellOf? key = some c
  · obtain ⟨c, hc, hcell⟩ := hbusy
    obtain ⟨call, hcall⟩ := List.getElem?_of_mem hc
    refine ⟨[.advance call (.ok i)], c, ?_, ?_⟩
    · rw [run, List.foldl_cons, List.foldl_nil, next_creating hcall]
      exact List.mem_set (List.getElem?_eq_some_iff.1 hcall).1 _
    · rw [run, List.foldl_cons, List.foldl_nil, next_creating hcall]
      exact hcell
  · exact exists_found_of_free hfits key i fun c hc hcell => hbusy ⟨c, hc, hcell⟩

theorem Lost.exists_not_shares (h : r.Lost key) (hfits : r.Fits) (i : ι) :
    ∃ more, ¬(r.run key more).Shares := by
  obtain ⟨more, found, hfound, hcell⟩ := exists_found hfits key i
  obtain ⟨c, hc, hne⟩ := h.run hfits more
  exact ⟨more, fun hshares => hne (hshares found c hfound hc ▸ hcell)⟩

/-! ## Races in which no creation fails -/

/-- The calls that know a cell know that of the definition, and none has failed. -/
def Steady (key : String) (r : ResolveRace ι) : Prop :=
  ∀ stage ∈ r.calls, (∀ e, stage ≠ .failed e) ∧ ∀ c ∈ stage.cell?, r.state.cellOf? key = some c

theorem Steady.moved (h : r.Steady key) (hm : Moved key r m r')
    (hnone : ∀ call e, m ≠ .advance call (.error e)) : r'.Steady key := by
  intro stage hstage
  cases hm with
  | stuck => exact h stage hstage
  | joined =>
    rcases List.mem_append.1 hstage with hstage | hstage
    · exact h stage hstage
    · obtain rfl := List.mem_singleton.1 hstage
      exact ⟨by simp, by simp [ResolveStage.cell?]⟩
  | looked _ =>
    rcases mem_set_cases hstage with rfl | hstage
    · refine ⟨by simp, fun c hc => ?_⟩
      obtain rfl := Option.some.inj hc
      exact r.state.cellOf?_claim_self key
    · obtain ⟨hfailed, hcell⟩ := h stage hstage
      refine ⟨hfailed, fun c hc => ?_⟩
      rw [Instances.claim, hcell c hc]
      exact hcell c hc
  | found hcall _ | began hcall _ _ | filled hcall =>
    rcases mem_set_cases hstage with rfl | hstage
    · exact ⟨by simp, (h _ (List.mem_of_getElem? hcall)).2⟩
    · exact h stage hstage
  | failed _ => exact absurd rfl (hnone _ _)
  | gaveUp hcall => exact absurd rfl ((h _ (List.mem_of_getElem? hcall)).1 _)

theorem Steady.orderly (h : r.Steady key) {moves : List (ResolveMove ι)}
    (hnone : ∀ m ∈ moves, ∀ call e, m ≠ .advance call (.error e)) : r.orderly key moves = true := by
  induction moves generalizing r with
  | nil => rfl
  | cons m moves ih =>
    obtain ⟨hm, hmoves⟩ := List.forall_mem_cons.1 hnone
    rw [ResolveRace.orderly, Bool.and_eq_true, Option.all_eq_true]
    refine ⟨fun c hc => decide_eq_true ?_, ih (h.moved (moved_next key r m) hm) hmoves⟩
    obtain ⟨call, i, -, hcall⟩ := fills?_eq_some_iff.1 hc
    exact (h _ (List.mem_of_getElem? hcall)).2 c rfl

/-! ## All races -/

/-- The calls of a race share one instance for good if no cell is filled after it was given up, so
in particular if no creation fails; once it has happened, there are calls to come that get another
instance. -/
theorem shares_run {s : Instances ι} (h : s.Sound) (key : String) (moves : List (ResolveMove ι)) :
    ((start s).orderly key moves = true → ((start s).run key moves).Shares) ∧
    ((start s).orderly key moves = false → ∃ more, ¬((start s).run key (moves ++ more)).Shares) ∧
    ((∀ call e, .advance call (.error e) ∉ moves) → (start s).orderly key moves = true) ∧
    ∀ c, .finished (.ok c) ∈ ((start s).run key moves).calls →
      ∃ i, ∀ more, ((start s).run key (moves ++ more)).state.get? c = some i := by
  have hfits := (fits_start h).run key moves
  have happend : ∀ more, (start s).run key (moves ++ more) = ((start s).run key moves).run key more :=
    fun _ => List.foldl_append
  have hheld : ∀ c, .finished (.ok c) ∈ ((start s).run key moves).calls →
      ∃ i, ((start s).run key moves).state.get? c = some i :=
    fun c hc => Option.isSome_iff_exists.1 (hfits.filled c hc)
  refine ⟨fun horderly => ?_, fun horderly => ?_, fun hnone => ?_, fun c hc => ?_⟩
  · have hstart : (start s).Registered key := fun _ hstage => nomatch hstage
    exact (hstart.run horderly).shares hfits
  · have hlost := lost_of_not_orderly (fits_start h) horderly
    obtain ⟨c, hc, -⟩ := id hlost
    obtain ⟨i, -⟩ := hheld c hc
    obtain ⟨more, hmore⟩ := hlost.exists_not_shares hfits i
    exact ⟨more, happend more ▸ hmore⟩
  · have hstart : (start s).Steady key := fun _ hstage => nomatch hstage
    exact hstart.orderly fun m hm call e heq => hnone call e (heq ▸ hm)
  · obtain ⟨i, hget⟩ := hheld c hc
    exact ⟨i, fun more => happend more ▸ hfits.get?_run key more hget⟩

/-! ## A failure that is over, and one that is not -/

def goOn (call : Nat) : ResolveMove Nat := .advance call (.ok call)

def fail (call : Nat) : ResolveMove Nat := .advance call (.error (.other "no source"))

/-- A call fails and gives its cell up before two others begin. -/
def oneByOne : List (ResolveMove Nat) :=
  [.join, goOn 0, goOn 0, fail 0, goOn 0, .join, .join, goOn 1, goOn 2, goOn 1, goOn 1, goOn 2]

theorem shares_run_oneByOne :
    (Instances.empty : Instances Nat).Sound ∧ (start .empty).orderly "d" oneByOne = true ∧
      ((start .empty).run "d" oneByOne).calls =
        [.finished (.error (.other "no source")), .finished (.ok 1), .finished (.ok 1)] ∧
      ((start .empty).run "d" oneByOne).Shares := by
  have hsound : (Instances.empty : Instances Nat).Sound := Instances.sound_empty
  have horderly : (start .empty).orderly "d" oneByOne = true := by decide
  exact ⟨hsound, horderly, rfl, (shares_run hsound "d" oneByOne).1 horderly⟩

/-- A call fails, and another one begins to create in its cell before it gives the cell up. A third
call does not find what the second one has made. -/
def overlapping : List (ResolveMove Nat) :=
  [.join, .join, goOn 0, goOn 1, goOn 0, fail 0, goOn 1, goOn 0, goOn 1, .join, goOn 2, goOn 2, goOn 2]

/-- Numbers of one size that are written differently. -/
def scaled (x : Binary64) : Value := .object [("scale", .number (.double x)), ("type", .text "memory")]

/-- The cells of two definitions, asked for one after the other. -/
def cellsOf (d e : Value) : Action (Instances Nat) (Nat × Nat) := do
  let first ← Instances.resolve d (.ok 0)
  let second ← Instances.resolve e (.ok 1)
  pure (first, second)

/-- Calls for one definition may end with two instances: where they overlap and one of them fails, and
without any overlap where the definition is written with the other zero. -/
theorem not_shares_run :
    (¬∀ (ι : Type) (s : Instances ι) (key : String) (moves : List (ResolveMove ι)), s.Sound →
      ((start s).run key moves).Shares) ∧
    (scaled .zero).alike (scaled .negativeZero) = true ∧
    ((cellsOf (scaled .zero) (scaled .negativeZero)).runOn .empty).1.toOption = some (0, 1) := by
  refine ⟨fun h => ?_, by decide +kernel, by decide +kernel⟩
  have hcalls : ((start .empty).run "d" overlapping).calls =
      [.finished (.error (.other "no source")), .finished (.ok 0), .finished (.ok 1)] := rfl
  have hsame := h Nat .empty "d" overlapping Instances.sound_empty 0 1 (by simp [hcalls])
    (by simp [hcalls])
  exact absurd hsame (by decide)

end ResolveRace

end QueryLayer
