import QueryLayer.Cache.Feed
import QueryLayer.Proofs.Cache.Batches
import QueryLayer.Proofs.Cache.Turns
import QueryLayer.Proofs.Source.Calls

/-! # Before the first sync

A cache whose reads do not sync answers from its replica once a sync has succeeded. Until then, whatever
syncs have begun and failed and whatever calls were made, it refuses calls on a collection without a look
at the replica or the origin, and stays as it is. Actions and their forms are no calls of this kind: the
replica answers them at any time.
-/
namespace QueryLayer

variable {ω : Type}

/-- What can happen to a cache: syncs begin, go on and fail, others change the origin, and calls are
made on the cache. -/
inductive CacheMove (ω : Type) where
  | sync (move : SyncMove ω)
  | call (caller : Caller) (request : SourceCall)

namespace CacheMove

def next (c : Cache ω) (r : SyncRun ω) : CacheMove ω → SyncRun ω
  | sync move => r.next c move
  | call caller request =>
    let state := ((request.send c.source caller).runOn r.race.state).2
    { r with race := { r.race with state } }

def run (c : Cache ω) (replica : Store) (origin : ω) (moves : List (CacheMove ω)) : SyncRun ω :=
  moves.foldl (next c) (SyncRun.start replica origin)

end CacheMove

/-- No sync has succeeded. -/
def SyncLog.Unsynced (log : SyncLog) : Prop := ∀ call cursor, SyncEvent.moved call cursor ∉ log

/-- The call is for the records of the collection, and not for its actions. -/
def CollectionCall.OnRecords : CollectionCall → Prop
  | execute .. | getForm .. => False
  | _ => True

namespace Cache

variable {c : Cache ω} {s : CacheState ω}

section

variable (hread : c.options.syncOnRead = false) (hs : s.synced = false)
include hread hs

/-- Nothing comes after a replica was found not to be synced. -/
theorem ensureSynced_bind {α : Type} (name : String) (next : Unit → Action (CacheState ω) α) :
    (c.ensureSynced name >>= next) s = .ended (.error (.notSynced name)) s := by
  have hensure : c.ensureSynced name s = .ended (.error (.notSynced name)) s := by
    rw [ensureSynced, hread]
    simp only [Bool.false_eq_true, reduceIte, Action.reading, hs]
  change (c.ensureSynced name s).bind next = _
  rw [hensure]
  rfl

theorem send_onRecords (replica : Collection (CacheState ω)) (caller : Caller) {call : CollectionCall}
    (h : call.OnRecords) :
    call.send (c.collection replica) caller s = .ended (.error (.notSynced replica.name)) s := by
  have hrefused : ∀ {α : Type} (f : α → Answer) (next : Unit → Action (CacheState ω) α),
      (f <$> (c.ensureSynced replica.name >>= next)) s = .ended (.error (.notSynced replica.name)) s := by
    intro α f next
    rw [map_eq_pure_bind, bind_assoc]
    exact ensureSynced_bind hread hs replica.name _
  cases call with
  | list filter projection => exact hrefused _ _
  | create records => exact hrefused _ _
  | update filter patch => exact hrefused _ _
  | delete filter => exact hrefused _ _
  | aggregate filter aggregation limit => exact hrefused _ _
  | execute action values filter => exact h.elim
  | getForm action values filter => exact h.elim

end

/-- The replica of a collection. -/
def member (c : Cache ω) (name : String) (schema : CollectionSchema) : Collection (CacheState ω) :=
  (Memory.collection c.database name schema).zoom replicaLens

/-- The members of a cache are those of its replica. -/
theorem collection?_source (c : Cache ω) (name : String) :
    c.source.collection? name = (c.database.schemas.get? name).map fun schema =>
      c.collection (c.member name schema) := by
  have hcollections : c.source.collections = c.database.schemas.entries.map fun e =>
      c.collection ((Memory.collection c.database e.1 e.2).zoom replicaLens) := by
    simp only [source, Cache.replica, Source.zoom, Memory.source, List.map_map]
    rfl
  rw [Source.collection?, hcollections]
  exact Source.find?_named (fun _ => rfl) c.database.schemas.entries name

theorem collection_source_eq_ok_iff {name : String} {col : Collection (CacheState ω)} :
    c.source.collection name = .ok col ↔ ∃ schema, c.database.schemas.get? name = some schema ∧
      c.collection (c.member name schema) = col := by
  rw [Source.collection, collection?_source]
  cases c.database.schemas.get? name <;> simp

/-- The replica knows no actions, and answers so whether it was synced or not. -/
theorem send_execute (c : Cache ω) (name : String) (schema : CollectionSchema) (caller : Caller)
    (action : String) (values : Record) (filter : Filter) (s : CacheState ω) :
    (CollectionCall.execute action values filter).send (c.collection (c.member name schema)) caller s =
      .ended (.error (.setup (.unknownAction name action))) s := rfl

theorem send_getForm (c : Cache ω) (name : String) (schema : CollectionSchema) (caller : Caller)
    (action : String) (values : Option Record) (filter : Option Filter) (s : CacheState ω) :
    (CollectionCall.getForm action values filter).send (c.collection (c.member name schema)) caller s =
      .ended (.ok (.fields [])) s := rfl

theorem runOn_renderChart (c : Cache ω) (caller : Caller) (name : String) (s : CacheState ω) :
    ((c.source.renderChart caller name).runOn s).2 = s := by
  refine (congrArg Prod.snd (Action.runOn_zoom replicaLens_lawful _ s)).trans ?_
  have hstore : (((Memory.source c.database).renderChart caller name).runOn s.replica).2 = s.replica := by
    simp only [Memory.source]
    split <;> rfl
  simp only [replicaLens, hstore]

/-- No call changes a cache that was never synced. -/
theorem runOn_send_of_unsynced (hread : c.options.syncOnRead = false) (hs : s.synced = false)
    (caller : Caller) (request : SourceCall) : ((request.send c.source caller).runOn s).2 = s := by
  cases request with
  | on name call =>
    cases hcol : c.source.collection name with
    | error e =>
      rw [SourceCall.send, hcol]
      rfl
    | ok col =>
      obtain ⟨schema, -, rfl⟩ := collection_source_eq_ok_iff.1 hcol
      rw [SourceCall.send_on hcol]
      by_cases hcall : call.OnRecords
      · rw [Action.runOn, send_onRecords hread hs _ caller hcall]
        rfl
      · cases call with
        | execute action values filter => rfl
        | getForm action values filter => rfl
        | _ => exact absurd trivial hcall
  | renderChart name =>
    rw [SourceCall.send, Action.runOn_map]
    exact runOn_renderChart c caller name s

/-- A step of a sync completes it, or leaves the flag as it is. -/
theorem synced_step (c : Cache ω) (call : Nat) (stage : SyncStage) (s : CacheState ω) :
    (c.step stage s).2.synced = s.synced ∨
      ∃ cursor, c.stepEvent call stage s = some (.moved call cursor) := by
  rcases c.state_step_cases stage s with h | ⟨-, h⟩ | ⟨_, _, _, -, h⟩ | ⟨cursor, rfl, -⟩
  · exact Or.inl (by rw [h])
  · exact Or.inl (by rw [h])
  · exact Or.inl (by rw [h])
  · exact Or.inr ⟨cursor, rfl⟩

end Cache

namespace CacheMove

variable {c : Cache ω} {r : SyncRun ω}

/-- The flag is raised by a sync that succeeds, and by nothing else. -/
theorem synced_next (hread : c.options.syncOnRead = false)
    (h : r.race.state.synced = true → ¬ r.log.Unsynced) (move : CacheMove ω)
    (hsynced : (next c r move).race.state.synced = true) : ¬ (next c r move).log.Unsynced := by
  have hlonger : ∀ events, ¬ r.log.Unsynced → ¬ SyncLog.Unsynced (r.log ++ events) :=
    fun events hbefore hnone =>
      hbefore fun call cursor hmem => hnone call cursor (List.mem_append_left _ hmem)
  cases move with
  | sync move =>
    cases move with
    | join => exact hlonger _ (h hsynced)
    | others change => exact h hsynced
    | advance call =>
      simp only [next, SyncRun.next, SyncRace.advance, SyncRace.event?] at hsynced ⊢
      cases hplace : r.race.calls[call]? with
      | none =>
        rw [hplace] at hsynced
        exact hlonger _ (h hsynced)
      | some stage =>
        rw [hplace] at hsynced
        dsimp only at hsynced
        split at hsynced
        · next hcan =>
          rcases c.synced_step call stage r.race.state with hsame | ⟨cursor, hmoved⟩
          · exact hlonger _ (h (hsame ▸ hsynced))
          · intro hnone
            refine hnone call cursor (List.mem_append_right _ ?_)
            simp [hcan, hmoved]
        · exact hlonger _ (h hsynced)
  | call caller request =>
    refine h ?_
    by_contra hbefore
    rw [Bool.not_eq_true] at hbefore
    change ((request.send c.source caller).runOn r.race.state).2.synced = true at hsynced
    rw [Cache.runOn_send_of_unsynced hread hbefore, hbefore] at hsynced
    cases hsynced

/-- Once the flag is raised, the log tells of a sync that succeeded. -/
theorem not_unsynced_run (hread : c.options.syncOnRead = false) (replica : Store) (origin : ω)
    (moves : List (CacheMove ω)) (hsynced : (run c replica origin moves).race.state.synced = true) :
    ¬ (run c replica origin moves).log.Unsynced := by
  induction moves using List.reverseRecOn with
  | nil => cases hsynced
  | append_singleton moves move ih =>
    have hconcat : run c replica origin (moves ++ [move]) = next c (run c replica origin moves) move :=
      List.foldl_append
    rw [hconcat] at hsynced ⊢
    exact synced_next hread ih move hsynced

theorem synced_run (hread : c.options.syncOnRead = false) (replica : Store) (origin : ω)
    (moves : List (CacheMove ω)) (hnone : (run c replica origin moves).log.Unsynced) :
    (run c replica origin moves).race.state.synced = false :=
  Bool.eq_false_iff.2 fun hsynced => not_unsynced_run hread replica origin moves hsynced hnone

/-- As long as no sync has succeeded, exactly the calls on records are refused as not synced: at once, and
with nothing changed, at the origin, in the replica or in the queue. -/
theorem notSynced_iff_onRecords (hread : c.options.syncOnRead = false) {replica : Store} {origin : ω}
    {moves : List (CacheMove ω)} (hnone : (run c replica origin moves).log.Unsynced) {name : String}
    {col : Collection (CacheState ω)} (hcol : c.source.collection name = .ok col) (caller : Caller)
    (call : CollectionCall) :
    call.send col caller (run c replica origin moves).race.state =
        .ended (.error (.notSynced name)) (run c replica origin moves).race.state ↔
      call.OnRecords := by
  obtain ⟨schema, -, rfl⟩ := Cache.collection_source_eq_ok_iff.1 hcol
  constructor
  · intro h
    cases call with
    | execute action values filter =>
      rw [Cache.send_execute] at h
      cases h
    | getForm action values filter =>
      rw [Cache.send_getForm] at h
      cases h
    | _ => trivial
  · exact fun hcall => Cache.send_onRecords hread (synced_run hread replica origin moves hnone) _ caller hcall

/-- A sync fails, a list is refused, and so is a creation after it. -/
theorem notSynced_people :
    let c : Cache Feed := ⟨People.database, Feed.origin false, ⟨false, none⟩⟩
    let moves : List (CacheMove Feed) :=
      [.sync .join, .sync (.advance 0), .sync (.advance 0),
        .call default (.on "people" (.list .empty .empty))]
    let r := run c People.database.emptyStore { Feed.start 1 true with listFailure := some "down" } moves
    let col := c.collection (c.member "people" People.schema)
    (r.race.outcome? 0).map Except.toOption = some none ∧
      (CollectionCall.create [[("name", .text "Ada")]]).send col default r.race.state =
        .ended (.error (.notSynced "people")) r.race.state := by
  intro c moves r col
  have hnone : r.log.Unsynced :=
    SyncLog.not_moved_of_generation (m := ⟨none, 0, false⟩) (by decide +kernel)
  have hcol : c.source.collection "people" = .ok col :=
    Cache.collection_source_eq_ok_iff.2 ⟨People.schema, rfl, rfl⟩
  exact ⟨by decide +kernel, (notSynced_iff_onRecords rfl hnone hcol default _).2 trivial⟩

/-- A form is answered by a cache that was never synced. -/
theorem not_notSynced_getForm :
    ¬ ∀ (ω : Type) (c : Cache ω) (replica : Store) (origin : ω) (moves : List (CacheMove ω)) (name : String)
      (col : Collection (CacheState ω)) (caller : Caller) (call : CollectionCall),
      c.options.syncOnRead = false → (run c replica origin moves).log.Unsynced →
      c.source.collection name = .ok col →
      call.send col caller (run c replica origin moves).race.state =
        .ended (.error (.notSynced name)) (run c replica origin moves).race.state := by
  intro h
  let c : Cache Feed := ⟨People.database, Feed.origin false, ⟨false, none⟩⟩
  have hcol : c.source.collection "people" =
      .ok (c.collection (c.member "people" People.schema)) :=
    Cache.collection_source_eq_ok_iff.2 ⟨People.schema, rfl, rfl⟩
  have hform := h Feed c People.database.emptyStore (Feed.start 1 true) [] "people" _ default
    (.getForm "greet" none none) rfl (fun _ _ => List.not_mem_nil) hcol
  rw [Cache.send_getForm] at hform
  cases hform

end CacheMove

end QueryLayer
