import QueryLayer.Cache.Source
import QueryLayer.Proofs.Cache.SyncLog

/-! # Overlapping syncs take turns

Whatever the order in which calls of `sync` begin, go on and fail, and whatever others do to the
origin meanwhile, a turn of one call is over before the next one begins. `Rightful` says of each
event of the log what has happened before it; `SyncRun.Fits` ties the log to the state of the race
and is kept by every move.
-/
namespace QueryLayer

variable {ω : Type}

namespace Cache

/-- What the next step of a call amounts to. -/
def stepEvent (c : Cache ω) (call : Nat) : SyncStage → CacheState ω → Option SyncEvent
  | .queued observed, s =>
    some (if s.generation = observed then .asked call s.cursor else .skipped call)
  | .fetching, s =>
    match ((c.origin.listChanges s.cursor).runOn s.origin).1 with
    | .ok set => some (.answered call s.cursor set)
    | .error e => some (.refused call s.cursor e)
  | .applying _ (write :: _), s =>
    match ((write.apply c.database).runOn s.replica).1 with
    | .ok () => some (.wrote call write)
    | .error e => some (.failed call write e)
  | .applying cursor [], _ => some (.moved call cursor)
  | .finished _, _ => none

end Cache

namespace SyncRace

def event? (c : Cache ω) (r : SyncRace ω) (call : Nat) : Option SyncEvent :=
  if r.canAdvance call then r.calls[call]?.bind fun stage => c.stepEvent call stage r.state else none

end SyncRace

/-- A race together with its log. -/
structure SyncRun (ω : Type) where
  race : SyncRace ω
  log : SyncLog

namespace SyncRun

/-- No call has begun yet. -/
def start (replica : Store) (origin : ω) : SyncRun ω := ⟨⟨Cache.start replica origin, []⟩, []⟩

def next (c : Cache ω) (r : SyncRun ω) : SyncMove ω → SyncRun ω
  | .join => ⟨r.race.join, r.log ++ [.began r.race.calls.length]⟩
  | .advance call => ⟨r.race.advance c call, r.log ++ (r.race.event? c call).toList⟩
  | .others change =>
    ⟨{ r.race with state := { r.race.state with origin := change r.race.state.origin } }, r.log⟩

def run (c : Cache ω) (replica : Store) (origin : ω) (moves : List (SyncMove ω)) : SyncRun ω :=
  moves.foldl (next c) (start replica origin)

end SyncRun

namespace SyncLog

/-- A call that waits: how many syncs had completed when it began. -/
def Waiting (log : SyncLog) (call observed : Nat) : Prop :=
  ∃ before after, log = before ++ .began call :: after ∧ (SyncLog.marks before).generation = observed

/-- Since the call began no sync has completed. -/
def Unmoved (log : SyncLog) (call : Nat) : Prop :=
  ∃ before after, log = before ++ .began call :: after ∧ log.marks = SyncLog.marks before

/-- Since the call began another one has completed. -/
def Overlapped (log : SyncLog) (call : Nat) : Prop :=
  ∃ before after other cursor, log = before ++ .began call :: after ∧ .moved other cursor ∈ after

/-- The call was answered a change set and has applied these writes, one after the other; since then
nothing else has happened, other calls beginning apart. -/
def Applied (log : SyncLog) (call : Nat) (set : ChangeSet) (done : List ReplicaWrite) : Prop :=
  ∃ before given after, log = before ++ .answered call given set :: after ∧
    (after.filter fun e => !e.isBeginning) = done.map (.wrote call)

/-- All of a change set has been written. -/
def Delivered (log : SyncLog) (call : Nat) (set : ChangeSet) : Prop :=
  log.Applied call set set.writes ∧
    (∀ change ∈ set.changes,
      .wrote call (.put change.collection (set.recordsOf change.collection)) ∈ log) ∧
    ∀ deletion ∈ set.deletions, .wrote call (.remove deletion.collection deletion.id) ∈ log

end SyncLog

/-- What has happened before an event. The origin is asked by one call at a time and given the
cursor of the last set that was wholly applied; a write is one that the replica takes; what a sync
moves is moved once all of its set is written; a call that fails has moved nothing and has seen
nothing move; and one that has nothing left to do has seen another one complete. -/
def Rightful (db : Database) (start : Store) (log : SyncLog) : SyncEvent → Prop
  | .began _ => True
  | .skipped call => log.Overlapped call
  | .asked _ cursor => log.inFlight = [] ∧ cursor = log.marks.cursor
  | .answered call cursor _ => log.inFlight = [call] ∧ cursor = log.marks.cursor
  | .refused call cursor _ => log.inFlight = [call] ∧ cursor = log.marks.cursor ∧ log.Unmoved call
  | .wrote _ write => ((write.apply db).runOn (log.replica db start)).1 = .ok ()
  | .failed call write error =>
    ((write.apply db).runOn (log.replica db start)).1 = .error error ∧ log.Unmoved call
  | .moved call cursor => ∃ set, set.cursor = cursor ∧ log.Delivered call set

namespace SyncLog

variable {log : SyncLog} {call : Nat} {e : SyncEvent}

theorem Waiting.concat {observed : Nat} (h : log.Waiting call observed) :
    SyncLog.Waiting (log ++ [e]) call observed := by
  obtain ⟨before, after, rfl, hobserved⟩ := h
  exact ⟨before, after ++ [e], by simp, hobserved⟩

theorem Unmoved.concat (h : log.Unmoved call) (he : ∀ marks : SyncMarks, e.mark marks = marks) :
    SyncLog.Unmoved (log ++ [e]) call := by
  obtain ⟨before, after, rfl, hmarks⟩ := h
  refine ⟨before, after ++ [e], by simp, ?_⟩
  rw [marks_concat, he, hmarks]

theorem Waiting.unmoved {observed : Nat} (h : log.Waiting call observed)
    (hgeneration : log.marks.generation = observed) : log.Unmoved call := by
  obtain ⟨before, after, rfl, hobserved⟩ := h
  exact ⟨before, after, rfl, marks_append_of_generation (hgeneration.trans hobserved.symm)⟩

theorem Waiting.overlapped {observed : Nat} (h : log.Waiting call observed)
    (hgeneration : log.marks.generation ≠ observed) : log.Overlapped call := by
  obtain ⟨before, after, rfl, hobserved⟩ := h
  have hmarks : marks (before ++ .began call :: after) ≠ marks before := by
    intro heq
    rw [heq] at hgeneration
    exact hgeneration hobserved
  obtain ⟨other, cursor, hmem⟩ := exists_moved_of_marks_ne hmarks
  rcases List.mem_cons.1 hmem with heq | hmem
  · cases heq
  · exact ⟨before, after, other, cursor, rfl, hmem⟩

theorem Applied.began {set : ChangeSet} {done : List ReplicaWrite} (h : log.Applied call set done)
    (other : Nat) : SyncLog.Applied (log ++ [.began other]) call set done := by
  obtain ⟨before, given, after, rfl, hdone⟩ := h
  refine ⟨before, given, after ++ [.began other], by simp, ?_⟩
  rw [List.filter_append, hdone]
  simp [SyncEvent.isBeginning]

theorem Applied.wrote {set : ChangeSet} {done : List ReplicaWrite} (h : log.Applied call set done)
    (write : ReplicaWrite) : SyncLog.Applied (log ++ [.wrote call write]) call set (done ++ [write]) := by
  obtain ⟨before, given, after, rfl, hdone⟩ := h
  refine ⟨before, given, after ++ [.wrote call write], by simp, ?_⟩
  rw [List.filter_append, hdone]
  simp [SyncEvent.isBeginning]

/-- Where all writes of a set were applied, every change and every deletion was. -/
theorem Applied.delivered {set : ChangeSet} (h : log.Applied call set set.writes) :
    log.Delivered call set := by
  have hwrote : ∀ write ∈ set.writes, .wrote call write ∈ log := by
    obtain ⟨before, given, after, rfl, hdone⟩ := h
    intro write hmem
    have hafter : .wrote call write ∈ after.filter fun e => !e.isBeginning := by
      rw [hdone]
      exact List.mem_map_of_mem hmem
    exact List.mem_append_right _ (List.mem_cons_of_mem _ (List.mem_filter.1 hafter).1)
  refine ⟨h, fun change hmem => hwrote _ (ChangeSet.put_mem_writes hmem), fun deletion hmem => ?_⟩
  exact hwrote _ (ChangeSet.remove_mem_writes hmem)

end SyncLog

/-- No call but this one is under way. -/
def OnlyBusy (calls : List SyncStage) (call : Nat) : Prop :=
  ∀ other stage, calls[other]? = some stage → stage.isBusy = true → other = call

section

variable {calls : List SyncStage} {call : Nat}

theorem onlyBusy_of_free (h : calls.any SyncStage.isBusy = false) : OnlyBusy calls call := by
  intro other stage hplace hbusy
  have hidle := List.any_eq_false.1 h stage (List.mem_of_getElem? hplace)
  exact absurd hbusy hidle

theorem OnlyBusy.set (h : OnlyBusy calls call) (next : SyncStage) :
    OnlyBusy (calls.set call next) call := by
  intro other stage hplace hbusy
  by_cases hother : other = call
  · exact hother
  · rw [List.getElem?_set_ne (Ne.symm hother)] at hplace
    exact h other stage hplace hbusy

theorem OnlyBusy.free (h : OnlyBusy calls call) {next : SyncStage} (hnext : next.isBusy = false) :
    (calls.set call next).any SyncStage.isBusy = false := by
  refine List.any_eq_false.2 fun stage hmem hbusy => ?_
  obtain ⟨other, hplace⟩ := List.mem_iff_getElem?.1 hmem
  obtain rfl := h.set next other stage hplace hbusy
  rw [List.getElem?_set_self'] at hplace
  obtain ⟨_, _, rfl⟩ := Option.map_eq_some_iff.1 hplace
  exact Bool.false_ne_true (hnext.symm.trans hbusy)

theorem OnlyBusy.join (h : OnlyBusy calls call) (observed : Nat) :
    OnlyBusy (calls ++ [.queued observed]) call := by
  intro other stage hplace hbusy
  rcases List.mem_append.1 (List.mem_of_getElem? hplace) with hmem | hmem
  · rcases Nat.lt_or_ge other calls.length with hlt | hge
    · rw [List.getElem?_append_left hlt] at hplace
      exact h other stage hplace hbusy
    · rw [List.getElem?_append_right hge] at hplace
      cases List.mem_singleton.1 (List.mem_of_getElem? hplace)
      exact absurd hbusy Bool.false_ne_true
  · cases List.mem_singleton.1 hmem
    exact absurd hbusy Bool.false_ne_true

end

/-- At most one call is under way, and the log says how far it has come. -/
inductive Turn (calls : List SyncStage) (log : SyncLog) : Prop
  | idle (free : calls.any SyncStage.isBusy = false) (quiet : log.inFlight = [])
  | fetching (call : Nat) (place : calls[call]? = some .fetching) (alone : OnlyBusy calls call)
      (flight : log.inFlight = [call]) (unmoved : log.Unmoved call)
  | applying (call : Nat) (set : ChangeSet) (done rest : List ReplicaWrite)
      (place : calls[call]? = some (.applying set.cursor rest)) (alone : OnlyBusy calls call)
      (quiet : log.inFlight = []) (unmoved : log.Unmoved call)
      (parts : done ++ rest = set.writes) (applied : log.Applied call set done)

namespace Turn

variable {calls : List SyncStage} {log : SyncLog} {call : Nat}

theorem of_free (h : Turn calls log) (hfree : calls.any SyncStage.isBusy = false) :
    log.inFlight = [] := by
  have hidle : ∀ {place : Nat} {stage : SyncStage}, calls[place]? = some stage →
      ¬ stage.isBusy = true :=
    fun hplace => List.any_eq_false.1 hfree _ (List.mem_of_getElem? hplace)
  cases h with
  | idle _ quiet => exact quiet
  | fetching _ place => exact absurd rfl (hidle place)
  | applying _ _ _ _ place => exact absurd rfl (hidle place)

theorem of_fetching (h : Turn calls log) (hplace : calls[call]? = some .fetching) :
    OnlyBusy calls call ∧ log.inFlight = [call] ∧ log.Unmoved call := by
  cases h with
  | idle free =>
    exact absurd rfl (List.any_eq_false.1 free _ (List.mem_of_getElem? hplace))
  | fetching other _ alone flight unmoved =>
    obtain rfl := alone call _ hplace rfl
    exact ⟨alone, flight, unmoved⟩
  | applying other _ _ _ place alone =>
    obtain rfl := alone call _ hplace rfl
    rw [hplace] at place
    cases place

theorem of_applying {cursor : String} {rest : List ReplicaWrite} (h : Turn calls log)
    (hplace : calls[call]? = some (.applying cursor rest)) :
    OnlyBusy calls call ∧ log.inFlight = [] ∧ log.Unmoved call ∧ ∃ set done,
      set.cursor = cursor ∧ done ++ rest = set.writes ∧ log.Applied call set done := by
  cases h with
  | idle free =>
    exact absurd rfl (List.any_eq_false.1 free _ (List.mem_of_getElem? hplace))
  | fetching other place alone =>
    obtain rfl := alone call _ hplace rfl
    rw [hplace] at place
    cases place
  | applying other set done rest place alone quiet unmoved parts applied =>
    obtain rfl := alone call _ hplace rfl
    rw [hplace] at place
    cases place
    exact ⟨alone, quiet, unmoved, set, done, rfl, parts, applied⟩

theorem join (h : Turn calls log) (observed other : Nat) :
    Turn (calls ++ [.queued observed]) (log ++ [.began other]) := by
  have hplace : ∀ {call : Nat} {stage : SyncStage}, calls[call]? = some stage →
      (calls ++ [.queued observed])[call]? = some stage := fun hplace => by
    rw [List.getElem?_append_left (List.getElem?_eq_some_iff.1 hplace).1, hplace]
  cases h with
  | idle free quiet =>
    refine .idle ?_ ((SyncLog.inFlight_concat _ _).trans quiet)
    rw [List.any_append, free]
    rfl
  | fetching call place alone flight unmoved =>
    exact .fetching call (hplace place) (alone.join observed)
      ((SyncLog.inFlight_concat _ _).trans flight) (unmoved.concat fun _ => rfl)
  | applying call set done rest place alone quiet unmoved parts applied =>
    exact .applying call set done rest (hplace place) (alone.join observed)
      ((SyncLog.inFlight_concat _ _).trans quiet) (unmoved.concat fun _ => rfl) parts
      (applied.began other)

end Turn

/-- How a call ended that stands there. -/
def SyncStage.outcome? : SyncStage → Option (Except Error Unit)
  | finished outcome => some outcome
  | _ => none

theorem SyncRace.outcome?_eq (r : SyncRace ω) (call : Nat) :
    r.outcome? call = r.calls[call]?.bind SyncStage.outcome? := by
  rw [outcome?]
  cases r.calls[call]? with
  | none => rfl
  | some stage => cases stage <;> rfl

namespace SyncRun

/-- The log of a run tells the state of its race. -/
structure Fits (c : Cache ω) (replica : Store) (r : SyncRun ω) : Prop where
  rightful : ∀ before e after, r.log = before ++ e :: after → Rightful c.database replica before e
  marks : r.race.state.marks = r.log.marks
  replica : r.race.state.replica = r.log.replica c.database replica
  outcomes : ∀ call outcome, r.race.outcome? call = some outcome ↔
    ∃ e ∈ r.log, e.ending? = some (call, outcome)
  waiting : ∀ call observed, r.race.calls[call]? = some (.queued observed) →
    r.log.Waiting call observed
  turn : Turn r.race.calls r.log

theorem fits_start (c : Cache ω) (replica : Store) (origin : ω) :
    (start replica origin).Fits c replica where
  rightful before e after h := by simp [start] at h
  marks := rfl
  replica := rfl
  outcomes call outcome := by simp [start, SyncRace.outcome?]
  waiting call observed h := by simp [start] at h
  turn := .idle rfl rfl

variable {c : Cache ω} {replica : Store} {r : SyncRun ω}

theorem rightful_concat {db : Database} {log : SyncLog} {e : SyncEvent}
    (h : ∀ before e after, log = before ++ e :: after → Rightful db replica before e)
    (he : Rightful db replica log e) (before : SyncLog) (f : SyncEvent) (after : SyncLog)
    (hsplit : log ++ [e] = before ++ f :: after) : Rightful db replica before f := by
  rcases List.eq_nil_or_concat after with rfl | ⟨after, last, rfl⟩
  · obtain ⟨rfl, hlast⟩ := List.append_inj' hsplit rfl
    cases hlast
    exact he
  · rw [List.concat_eq_append, ← List.cons_append, ← List.append_assoc] at hsplit
    obtain ⟨rfl, -⟩ := List.append_inj' hsplit rfl
    exact h before f after rfl

theorem Fits.others (h : r.Fits c replica) (change : ω → ω) :
    (r.next c (.others change)).Fits c replica :=
  ⟨h.rightful, h.marks, h.replica, h.outcomes, h.waiting, h.turn⟩

theorem Fits.join (h : r.Fits c replica) : (r.next c .join).Fits c replica where
  rightful := rightful_concat h.rightful trivial
  marks := by
    rw [next, SyncLog.marks_concat]
    exact h.marks
  replica := by
    rw [next, SyncLog.replica_concat]
    exact h.replica
  outcomes call outcome := by
    have hsame : r.race.join.outcome? call = r.race.outcome? call := by
      rw [SyncRace.outcome?_eq, SyncRace.outcome?_eq, SyncRace.join]
      rcases Nat.lt_or_ge call r.race.calls.length with hlt | hge
      · rw [List.getElem?_append_left hlt]
      · rw [List.getElem?_append_right hge, List.getElem?_eq_none hge]
        cases call - r.race.calls.length <;> rfl
    simpa [next, hsame, SyncEvent.ending?] using h.outcomes call outcome
  waiting call observed hplace := by
    rw [next, SyncRace.join] at hplace
    rcases Nat.lt_or_ge call r.race.calls.length with hlt | hge
    · rw [List.getElem?_append_left hlt] at hplace
      exact (h.waiting call observed hplace).concat
    · rw [List.getElem?_append_right hge, List.getElem?_singleton] at hplace
      split at hplace
      · next hlast =>
        cases hplace
        obtain rfl : call = r.race.calls.length := by omega
        exact ⟨r.log, [], rfl, congrArg SyncMarks.generation h.marks.symm⟩
      · cases hplace
  turn := h.turn.join _ _

/-- A step of a call, with the event that it is. -/
structure Step (c : Cache ω) (replica : Store) (r : SyncRun ω) (call : Nat) (next : SyncStage)
    (state : CacheState ω) (e : SyncEvent) : Prop where
  rightful : Rightful c.database replica r.log e
  marks : state.marks = e.mark r.race.state.marks
  replica : state.replica = e.replay c.database r.race.state.replica
  ending : e.ending? = next.outcome?.map fun outcome => (call, outcome)
  waits : ∀ observed, next ≠ .queued observed
  turn : Turn (r.race.calls.set call next) (r.log ++ [e])

variable {call : Nat}

theorem Fits.step {stage next : SyncStage} {state : CacheState ω} {e : SyncEvent}
    (h : r.Fits c replica) (hplace : r.race.calls[call]? = some stage) (hstage : stage.outcome? = none)
    (hs : Step c replica r call next state e) :
    SyncRun.Fits c replica ⟨⟨state, r.race.calls.set call next⟩, r.log ++ [e]⟩ := by
  have hset : (r.race.calls.set call next)[call]? = some next :=
    List.getElem?_set_self (List.getElem?_eq_some_iff.1 hplace).1
  refine ⟨rightful_concat h.rightful hs.rightful, ?_, ?_, ?_, ?_, hs.turn⟩
  · rw [SyncLog.marks_concat, ← h.marks]
    exact hs.marks
  · rw [SyncLog.replica_concat, ← h.replica]
    exact hs.replica
  · intro other outcome
    have hold : (∃ f ∈ r.log, f.ending? = some (other, outcome)) ↔ r.race.outcome? other = some outcome :=
      (h.outcomes other outcome).symm
    simp only [List.mem_append, List.mem_singleton, or_and_right, exists_or, exists_eq_left, hold,
      hs.ending, SyncRace.outcome?_eq]
    by_cases hother : call = other
    · subst hother
      simp [hset, hplace, hstage]
    · rw [List.getElem?_set_ne hother]
      simp [hother]
  · intro other observed hqueued
    have hother : call ≠ other := by
      rintro rfl
      exact hs.waits observed (Option.some.inj (hset.symm.trans hqueued))
    rw [List.getElem?_set_ne hother] at hqueued
    exact (h.waiting other observed hqueued).concat

section

variable (h : r.Fits c replica)
include h

theorem Fits.step_queued {observed : Nat} (hplace : r.race.calls[call]? = some (.queued observed))
    (hfree : r.race.calls.any SyncStage.isBusy = false) :
    ∃ e, c.stepEvent call (.queued observed) r.race.state = some e ∧
      Step c replica r call (c.step (.queued observed) r.race.state).1
        (c.step (.queued observed) r.race.state).2 e := by
  have hwaiting := h.waiting call observed hplace
  have hquiet := h.turn.of_free hfree
  have hgeneration : r.log.marks.generation = r.race.state.generation :=
    congrArg SyncMarks.generation h.marks.symm
  have hcursor : r.race.state.cursor = r.log.marks.cursor := congrArg SyncMarks.cursor h.marks
  by_cases hobserved : r.race.state.generation = observed
  · refine ⟨.asked call r.race.state.cursor, by rw [Cache.stepEvent, if_pos hobserved], ?_⟩
    rw [Cache.step, if_pos hobserved]
    refine ⟨⟨hquiet, hcursor⟩, rfl, rfl, rfl, fun _ => SyncStage.noConfusion, ?_⟩
    refine .fetching call (List.getElem?_set_self (List.getElem?_eq_some_iff.1 hplace).1)
      ((onlyBusy_of_free hfree).set _) ?_ ?_
    · rw [SyncLog.inFlight_concat, hquiet]
      rfl
    · exact (hwaiting.unmoved (hgeneration.trans hobserved)).concat fun _ => rfl
  · refine ⟨.skipped call, by rw [Cache.stepEvent, if_neg hobserved], ?_⟩
    rw [Cache.step, if_neg hobserved]
    refine ⟨?_, rfl, rfl, rfl, fun _ => SyncStage.noConfusion, ?_⟩
    · exact hwaiting.overlapped (hgeneration ▸ hobserved)
    · refine .idle ((onlyBusy_of_free hfree).free rfl) ?_
      rw [SyncLog.inFlight_concat, hquiet]
      rfl

theorem Fits.step_fetching (hplace : r.race.calls[call]? = some .fetching) :
    ∃ e, c.stepEvent call .fetching r.race.state = some e ∧
      Step c replica r call (c.step .fetching r.race.state).1 (c.step .fetching r.race.state).2 e := by
  obtain ⟨halone, hflight, hunmoved⟩ := h.turn.of_fetching hplace
  have hcursor : r.race.state.cursor = r.log.marks.cursor := congrArg SyncMarks.cursor h.marks
  have hset {next : SyncStage} : (r.race.calls.set call next)[call]? = some next :=
    List.getElem?_set_self (List.getElem?_eq_some_iff.1 hplace).1
  rcases hanswer : (c.origin.listChanges r.race.state.cursor).runOn r.race.state.origin with
    ⟨error | set, origin⟩
  · refine ⟨.refused call r.race.state.cursor error, by simp [Cache.stepEvent, hanswer], ?_⟩
    simp only [Cache.step, hanswer]
    refine ⟨⟨hflight, hcursor, hunmoved⟩, rfl, rfl, rfl, fun _ => SyncStage.noConfusion, ?_⟩
    refine .idle (halone.free rfl) ?_
    rw [SyncLog.inFlight_concat, hflight]
    exact List.erase_cons_head ..
  · refine ⟨.answered call r.race.state.cursor set, by simp [Cache.stepEvent, hanswer], ?_⟩
    simp only [Cache.step, hanswer]
    refine ⟨⟨hflight, hcursor⟩, rfl, rfl, rfl, fun _ => SyncStage.noConfusion, ?_⟩
    refine .applying call set [] set.writes hset (halone.set _) ?_ (hunmoved.concat fun _ => rfl) rfl
      ⟨r.log, _, [], rfl, rfl⟩
    rw [SyncLog.inFlight_concat, hflight]
    exact List.erase_cons_head ..

theorem Fits.step_applying {cursor : String} {writes : List ReplicaWrite}
    (hplace : r.race.calls[call]? = some (.applying cursor writes)) :
    ∃ e, c.stepEvent call (.applying cursor writes) r.race.state = some e ∧
      Step c replica r call (c.step (.applying cursor writes) r.race.state).1
        (c.step (.applying cursor writes) r.race.state).2 e := by
  obtain ⟨halone, hquiet, hunmoved, set, done, rfl, hparts, happlied⟩ := h.turn.of_applying hplace
  have hset {next : SyncStage} : (r.race.calls.set call next)[call]? = some next :=
    List.getElem?_set_self (List.getElem?_eq_some_iff.1 hplace).1
  cases writes with
  | nil =>
    rw [List.append_nil] at hparts
    refine ⟨.moved call set.cursor, rfl, ⟨set, rfl, (hparts ▸ happlied).delivered⟩, rfl, rfl, rfl,
      fun _ => SyncStage.noConfusion, .idle (halone.free rfl) ?_⟩
    exact (SyncLog.inFlight_concat _ _).trans hquiet
  | cons write rest =>
    rcases houtcome : (write.apply c.database).runOn r.race.state.replica with ⟨error | _, written⟩
    · refine ⟨.failed call write error, by simp [Cache.stepEvent, houtcome], ?_⟩
      simp only [Cache.step, houtcome]
      refine ⟨⟨?_, hunmoved⟩, rfl, ?_, rfl, fun _ => SyncStage.noConfusion, .idle (halone.free rfl) ?_⟩
      · rw [← h.replica, houtcome]
      · exact (congrArg Prod.snd houtcome).symm
      · exact (SyncLog.inFlight_concat _ _).trans hquiet
    · refine ⟨.wrote call write, by simp [Cache.stepEvent, houtcome], ?_⟩
      simp only [Cache.step, houtcome]
      refine ⟨?_, rfl, ?_, rfl, fun _ => SyncStage.noConfusion, ?_⟩
      · rw [Rightful, ← h.replica, houtcome]
      · exact (congrArg Prod.snd houtcome).symm
      · refine .applying call set (done ++ [write]) rest hset (halone.set _) ?_
          (hunmoved.concat fun _ => rfl) ?_ (happlied.wrote write)
        · exact (SyncLog.inFlight_concat _ _).trans hquiet
        · rw [List.append_assoc, List.singleton_append, hparts]

theorem Fits.advance (call : Nat) : (r.next c (.advance call)).Fits c replica := by
  rw [next, SyncRace.advance, SyncRace.event?]
  cases hplace : r.race.calls[call]? with
  | none => simpa using h
  | some stage =>
    by_cases hcan : r.race.canAdvance call = true
    · have hstep : stage.outcome? = none ∧ ∃ e, c.stepEvent call stage r.race.state = some e ∧
          Step c replica r call (c.step stage r.race.state).1 (c.step stage r.race.state).2 e := by
        rw [SyncRace.canAdvance, hplace] at hcan
        cases stage with
        | queued observed => exact ⟨rfl, h.step_queued hplace (by simpa using hcan)⟩
        | fetching => exact ⟨rfl, h.step_fetching hplace⟩
        | applying cursor writes => exact ⟨rfl, h.step_applying hplace⟩
        | finished outcome => exact absurd hcan Bool.false_ne_true
      obtain ⟨hstage, e, he, hs⟩ := hstep
      simpa [hcan, he] using h.step hplace hstage hs
    · simpa [hcan] using h

end

theorem Fits.next (h : r.Fits c replica) (move : SyncMove ω) : (r.next c move).Fits c replica := by
  cases move with
  | join => exact h.join
  | advance call => exact h.advance call
  | others change => exact h.others change

theorem Fits.run (h : r.Fits c replica) (moves : List (SyncMove ω)) :
    SyncRun.Fits c replica (moves.foldl (SyncRun.next c) r) := by
  induction moves generalizing r with
  | nil => exact h
  | cons move rest ih => exact ih (h.next move)

/-- Every event of every run is rightful, and the state is what the log says: one call at a time is
fetching, the cursor, the number of completed syncs and the flag are those of the events that move
them, the replica is that of the writes, and the calls end as the log says. -/
theorem rightful_run (c : Cache ω) (replica : Store) (origin : ω) (moves : List (SyncMove ω)) :
    (∀ before e after, (run c replica origin moves).log = before ++ e :: after →
      Rightful c.database replica before e) ∧
    (∀ call other : Nat, (run c replica origin moves).race.calls[call]? = some SyncStage.fetching →
      (run c replica origin moves).race.calls[other]? = some SyncStage.fetching → other = call) ∧
    (run c replica origin moves).race.state.marks = (run c replica origin moves).log.marks ∧
    (run c replica origin moves).race.state.replica =
      (run c replica origin moves).log.replica c.database replica ∧
    ∀ call outcome, (run c replica origin moves).race.outcome? call = some outcome ↔
      ∃ e ∈ (run c replica origin moves).log, e.ending? = some (call, outcome) := by
  have h := (fits_start c replica origin).run moves
  refine ⟨h.rightful, fun call other hcall hother => ?_, h.marks, h.replica, h.outcomes⟩
  exact (h.turn.of_fetching hcall).1 other _ hother rfl

end SyncRun

end QueryLayer
