import QueryLayer.Action.Together
import QueryLayer.Cache.Origin
import QueryLayer.Source.Memory.Basic

/-! # Synchronisation of a cache

A cache keeps a replica of its origin and pulls change sets into it. A call of `sync` goes through
stages: it waits for its turn, fetches a change set, applies the writes one by one, and only then
moves the cursor. Calls may overlap; one at a time fetches and applies, and a call that waited while
another one completed has nothing left to do.
-/
namespace QueryLayer

structure CacheOptions where
  /-- Whether every read is preceded by a sync. -/
  syncOnRead : Bool
  /-- Seconds between syncs in the background. -/
  syncInterval : Option Nat
deriving DecidableEq

def CacheOptions.default : CacheOptions := ⟨true, none⟩

instance : Inhabited CacheOptions := ⟨.default⟩

/-- The fixed part of a cache. -/
structure Cache (ω : Type) where
  database : Database
  origin : Origin ω
  options : CacheOptions

structure CacheState (ω : Type) where
  replica : Store
  /-- Where the next change set starts. -/
  cursor : Option String
  /-- The number of completed syncs. -/
  generation : Nat
  synced : Bool
  origin : ω
  /-- The calls of `sync` that have begun; the first one is under way. -/
  queue : List Nat

/-- A step of applying a change set to the replica. -/
inductive ReplicaWrite where
  | put (collection : String) (records : List Record)
  | remove (collection : String) (id : CompositeId)

/-- Adds a record to those of its collection. -/
def RecordChange.collect (changes : Dict (List Record)) (c : RecordChange) : Dict (List Record) :=
  changes.insert c.collection (((changes.get? c.collection).getD []) ++ [c.record])

/-- The changed records collection by collection, in name order, and then the deletions. -/
def ChangeSet.writes (s : ChangeSet) : List ReplicaWrite :=
  ((s.changes.foldl RecordChange.collect ∅).entries.map fun e => .put e.1 e.2) ++
    s.deletions.map fun d => .remove d.collection d.id

/-- Deletes the record with an id, if there is one. -/
def Database.removeId (db : Database) (collection : String) (id : CompositeId) : Action Store Unit := do
  match db.schemas.get? collection with
  | some schema =>
    let target ← Condition.matchIds schema [id]
    Memory.delete db collection schema (.ofCondition target)
  | none => throw (.setup (.collectionNotFound collection))

def ReplicaWrite.apply (db : Database) : ReplicaWrite → Action Store Unit
  | put collection records => Memory.replaceRecords db collection records
  | remove collection id => db.removeId collection id

/-- Where a call of `sync` stands. -/
inductive SyncStage where
  /-- Waits for its turn; `observed` is the number of completed syncs when the call began. -/
  | queued (observed : Nat)
  | fetching
  | applying (cursor : String) (writes : List ReplicaWrite)
  | finished (outcome : Except Error Unit)

namespace SyncStage

/-- Only one call at a time is in a busy stage. -/
def isBusy : SyncStage → Bool
  | fetching | applying _ _ => true
  | _ => false

def isFinished : SyncStage → Bool
  | finished _ => true
  | _ => false

end SyncStage

namespace Cache

variable {ω : Type}

/-- The next stage of a call whose turn it is. -/
def step (c : Cache ω) : SyncStage → CacheState ω → SyncStage × CacheState ω
  | .queued observed, s => (if s.generation = observed then .fetching else .finished (.ok ()), s)
  | .fetching, s =>
    match (c.origin.listChanges s.cursor).runOn s.origin with
    | (.ok set, origin) => (.applying set.cursor set.writes, { s with origin })
    | (.error e, origin) => (.finished (.error e), { s with origin })
  | .applying cursor (w :: rest), s =>
    match (w.apply c.database).runOn s.replica with
    | (.ok (), replica) => (.applying cursor rest, { s with replica })
    | (.error e, replica) => (.finished (.error e), { s with replica })
  | .applying cursor [], s =>
    (.finished (.ok ()),
      { s with cursor := some cursor, generation := s.generation + 1, synced := true })
  | .finished outcome, s => (.finished outcome, s)

/-- Applies writes one by one and then moves the cursor. -/
def runWrites (c : Cache ω) (cursor : String) :
    List ReplicaWrite → CacheState ω → Except Error Unit × CacheState ω
  | [], s =>
    (.ok (), { s with cursor := some cursor, generation := s.generation + 1, synced := true })
  | w :: rest, s =>
    match (w.apply c.database).runOn s.replica with
    | (.ok (), replica) => runWrites c cursor rest { s with replica }
    | (.error e, replica) => (.error e, { s with replica })

def runFetch (c : Cache ω) (s : CacheState ω) : Except Error Unit × CacheState ω :=
  match (c.origin.listChanges s.cursor).runOn s.origin with
  | (.ok set, origin) => c.runWrites set.cursor set.writes { s with origin }
  | (.error e, origin) => (.error e, { s with origin })

/-- A call that nothing interrupts, from a stage to its end. -/
def run (c : Cache ω) : SyncStage → CacheState ω → Except Error Unit × CacheState ω
  | .queued observed, s => if s.generation = observed then c.runFetch s else (.ok (), s)
  | .fetching, s => c.runFetch s
  | .applying cursor writes, s => c.runWrites cursor writes s
  | .finished outcome, s => (outcome, s)

/-- A step does not change where a call ends. -/
theorem run_step (c : Cache ω) (stage : SyncStage) (s : CacheState ω) :
    c.run (c.step stage s).1 (c.step stage s).2 = c.run stage s := by
  cases stage with
  | queued observed =>
    by_cases h : s.generation = observed <;> simp [step, run, h]
  | fetching =>
    rcases h : (c.origin.listChanges s.cursor).runOn s.origin with ⟨_ | _, origin⟩ <;>
      simp [step, run, runFetch, h]
  | applying cursor writes =>
    cases writes with
    | nil => rfl
    | cons w rest =>
      rcases h : (w.apply c.database).runOn s.replica with ⟨_ | _, replica⟩ <;>
        simp [step, run, runWrites, h]
  | finished outcome => rfl

/-- What a step does to the state: nothing, what the origin does as it answers, what the replica does as a write
is applied to it, or, once nothing is left to write, it moves the cursor. -/
theorem state_step_cases (c : Cache ω) (stage : SyncStage) (s : CacheState ω) :
    (c.step stage s).2 = s ∨
    (stage = .fetching ∧
      (c.step stage s).2 = { s with origin := ((c.origin.listChanges s.cursor).runOn s.origin).2 }) ∨
    (∃ cursor write rest, stage = .applying cursor (write :: rest) ∧
      (c.step stage s).2 = { s with replica := ((write.apply c.database).runOn s.replica).2 }) ∨
    ∃ cursor, stage = .applying cursor [] ∧ (c.step stage s).2 =
      { s with cursor := some cursor, generation := s.generation + 1, synced := true } := by
  cases stage with
  | queued observed => exact Or.inl rfl
  | fetching =>
    refine Or.inr (Or.inl ⟨rfl, ?_⟩)
    rcases h : (c.origin.listChanges s.cursor).runOn s.origin with ⟨_ | _, origin⟩ <;> simp [step, h]
  | applying cursor writes =>
    cases writes with
    | nil => exact Or.inr (Or.inr (Or.inr ⟨cursor, rfl, rfl⟩))
    | cons w rest =>
      refine Or.inr (Or.inr (Or.inl ⟨cursor, w, rest, rfl, ?_⟩))
      rcases h : (w.apply c.database).runOn s.replica with ⟨_ | _, replica⟩ <;> simp [step, h]
  | finished outcome => exact Or.inl rfl

def replicaLens : Lens (CacheState ω) Store := ⟨CacheState.replica, fun replica s => { s with replica }⟩

def originLens : Lens (CacheState ω) ω := ⟨CacheState.origin, fun origin s => { s with origin }⟩

def queueLens : Lens (CacheState ω) (List Nat) := ⟨CacheState.queue, fun queue s => { s with queue }⟩

theorem replicaLens_lawful : (replicaLens (ω := ω)).Lawful := ⟨fun _ _ => rfl, fun _ _ _ => rfl⟩

theorem originLens_lawful : (originLens (ω := ω)).Lawful := ⟨fun _ _ => rfl, fun _ _ _ => rfl⟩

/-- Applies a change set and then moves the cursor. -/
def applySet (c : Cache ω) (set : ChangeSet) : Action (CacheState ω) Unit := do
  forM set.writes fun w => (w.apply c.database).zoom replicaLens
  .updating fun s =>
    (.ok (), { s with cursor := some set.cursor, generation := s.generation + 1, synced := true })

/-- Fetches a change set and applies it. -/
def pull (c : Cache ω) : Action (CacheState ω) Unit := do
  let cursor ← .reading fun s => .ok s.cursor
  let set ← (c.origin.listChanges cursor).zoom originLens
  c.applySet set

/-- A sync that began when `observed` syncs had completed. -/
def syncAfter (c : Cache ω) (observed : Nat) : Action (CacheState ω) Unit :=
  .inTurn queueLens do
    let generation ← .reading fun s => .ok s.generation
    if generation = observed then c.pull

/-- Pulls what changed at the origin into the replica. -/
def sync (c : Cache ω) : Action (CacheState ω) Unit := do
  let observed ← .reading fun s => .ok s.generation
  c.syncAfter observed

theorem runOn_applySet (c : Cache ω) (set : ChangeSet) (s : CacheState ω) :
    (c.applySet set).runOn s = c.runWrites set.cursor set.writes s := by
  rw [applySet]
  induction set.writes generalizing s with
  | nil => rfl
  | cons w rest ih =>
    rw [List.forM_cons, bind_assoc, Action.runOn_bind, Action.runOn_zoom replicaLens_lawful, runWrites]
    rcases h : (w.apply c.database).runOn s.replica with ⟨e | _, replica⟩
    · simp [replicaLens, h]
    · simpa [replicaLens, h] using ih { s with replica }

theorem runOn_pull (c : Cache ω) (s : CacheState ω) : c.pull.runOn s = c.runFetch s := by
  rw [pull, Action.runOn_bind, Action.runOn_reading]
  simp only []
  rw [Action.runOn_bind, Action.runOn_zoom originLens_lawful, runFetch]
  rcases h : (c.origin.listChanges s.cursor).runOn s.origin with ⟨e | set, origin⟩
  · simp [originLens, h]
  · simpa [originLens, h] using runOn_applySet c set { s with origin }

theorem runWrites_queue (c : Cache ω) (cursor : String) (writes : List ReplicaWrite)
    (s : CacheState ω) (queue : List Nat) :
    c.runWrites cursor writes { s with queue } =
      ((c.runWrites cursor writes s).1, { (c.runWrites cursor writes s).2 with queue }) := by
  induction writes generalizing s with
  | nil => rfl
  | cons w rest ih =>
    rw [runWrites, runWrites]
    rcases (w.apply c.database).runOn s.replica with ⟨e | _, replica⟩
    · rfl
    · exact ih { s with replica }

/-- A fetch does not look at the queue. -/
theorem runFetch_queue (c : Cache ω) (s : CacheState ω) (queue : List Nat) :
    c.runFetch { s with queue } = ((c.runFetch s).1, { (c.runFetch s).2 with queue }) := by
  rw [runFetch, runFetch]
  rcases (c.origin.listChanges s.cursor).runOn s.origin with ⟨e | set, origin⟩
  · rfl
  · exact runWrites_queue c set.cursor set.writes { s with origin } queue

end Cache

/-- Calls of `sync` that overlap. -/
structure SyncRace (ω : Type) where
  state : CacheState ω
  calls : List SyncStage

namespace SyncRace

variable {ω : Type}

/-- One more call begins. -/
def join (r : SyncRace ω) : SyncRace ω :=
  { r with calls := r.calls ++ [.queued r.state.generation] }

/-- How a call ended, once it has. -/
def outcome? (r : SyncRace ω) (i : Nat) : Option (Except Error Unit) :=
  match r.calls[i]? with
  | some (.finished outcome) => some outcome
  | _ => none

/-- Whether a call can go on: it is under way, or no other one is. -/
def canAdvance (r : SyncRace ω) (i : Nat) : Bool :=
  match r.calls[i]? with
  | some (.queued _) => !r.calls.any SyncStage.isBusy
  | some (.finished _) => false
  | some _ => true
  | none => false

/-- One step of a call, if it can go on. -/
def advance (c : Cache ω) (r : SyncRace ω) (i : Nat) : SyncRace ω :=
  match r.calls[i]? with
  | some stage =>
    if r.canAdvance i then
      let (next, state) := c.step stage r.state
      { state, calls := r.calls.set i next }
    else r
  | none => r

end SyncRace

end QueryLayer
