import QueryLayer.Cache.Source

/-! # Creations that others come between

A creation in a cache makes sure that the replica may be read, hands its records to the origin one
at a time, syncs, and reads back what the origin stored. Its syncs are calls like any other of a
race, so that whatever other calls do may happen before each of its steps.
-/
namespace QueryLayer

/-- Where a creation stands. -/
inductive CreationStage where
  /-- Its first sync, the call at this place, has to end. -/
  | opening (call : Nat) (records : List Record)
  | sending (rest stored : List Record)
  /-- Its second sync, the call at this place, has to end. -/
  | closing (call : Nat) (stored : List Record)
  | finished (outcome : Except Error (List Record))

/-- A creation and the calls of `sync` around it. -/
structure CreationRace (ω : Type) where
  race : SyncRace ω
  stage : CreationStage

namespace CreationRace

variable {ω : Type}

/-- A creation in a member of the replica begins. -/
def start (c : Cache ω) (replica : Collection (CacheState ω)) (records : List Record)
    (race : SyncRace ω) : CreationRace ω :=
  if c.options.syncOnRead then ⟨race.join, .opening race.calls.length records⟩
  else if race.state.synced then ⟨race, .sending records []⟩
  else ⟨race, .finished (.error (.notSynced replica.name))⟩

/-- Another call of `sync` begins or goes on. -/
def interleave (f : SyncRace ω → SyncRace ω) (r : CreationRace ω) : CreationRace ω :=
  { r with race := f r.race }

/-- One step of the creation; while one of its syncs is under way it stays where it is. -/
def resume (c : Cache ω) (replica : Collection (CacheState ω)) (caller : Caller)
    (r : CreationRace ω) : CreationRace ω :=
  match r.stage with
  | .opening call records =>
    match r.race.outcome? call with
    | some (.ok ()) => { r with stage := .sending records [] }
    | some (.error e) => { r with stage := .finished (.error e) }
    | none => r
  | .sending (record :: rest) stored =>
    match (c.send replica record).runOn r.race.state with
    | (.ok answer, state) => ⟨{ r.race with state }, .sending rest (stored ++ [answer])⟩
    | (.error e, state) => ⟨{ r.race with state }, .finished (.error e)⟩
  | .sending [] stored => ⟨r.race.join, .closing r.race.calls.length stored⟩
  | .closing call stored =>
    match r.race.outcome? call with
    | some (.ok ()) =>
      let (outcome, state) := (Cache.readBack replica caller stored).runOn r.race.state
      ⟨{ r.race with state }, .finished outcome⟩
    | some (.error e) => { r with stage := .finished (.error e) }
    | none => r
  | .finished _ => r

end CreationRace

end QueryLayer
