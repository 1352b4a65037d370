import QueryLayer.Proofs.Cache.Turns
import QueryLayer.Proofs.Memory.ById

/-! # Replicas that follow a feed

An origin appends what happens to a feed, from which a change set is read off at a cursor. `Follows`
ties a race of syncs to the feed, and `Tracks` says of one entry what has become of it: once a cursor
is past the entry its record is in the replica, or a call is about to put it there. Both are kept by
every step of a race.
-/
namespace QueryLayer

variable {ω : Type}

inductive FeedEntry where
  | changed (change : RecordChange)
  | deleted (deletion : RecordDeletion)

/-- A collection, and how the feed of an origin and the places of cursors in it are read. -/
structure FeedView (ω : Type) where
  name : String
  schema : CollectionSchema
  feed : ω → List FeedEntry
  position : String → Nat

/-- The id of a record does not occur in an entry. -/
def FeedEntry.Spares (name : String) (schema : CollectionSchema) (record : Record) : FeedEntry → Prop
  | changed change => change.collection = name →
    sameId (change.record.key schema) (record.key schema) = false
  | deleted deletion => deletion.collection = name → sameId deletion.id (record.key schema) = false

namespace FeedView

/-- Where a cursor stands; without one everything is still to come. -/
def reach (v : FeedView ω) (cursor : Option String) : Nat := (cursor.map v.position).getD 0

/-- The origin appends what it creates to its feed, with an id that the feed does not know, and answers
everything in the feed from a cursor on. -/
structure Honest (v : FeedView ω) (origin : Origin ω) : Prop where
  listed : ∀ cursor o set o', (origin.listChanges cursor).runOn o = (.ok set, o') →
    v.feed o' = v.feed o ∧ v.position set.cursor = (v.feed o).length ∧
    (∀ change, .changed change ∈ (v.feed o).drop (v.reach cursor) → change ∈ set.changes) ∧
    ∀ deletion ∈ set.deletions, .deleted deletion ∈ v.feed o
  refused : ∀ cursor o error o', (origin.listChanges cursor).runOn o = (.error error, o') →
    v.feed o' = v.feed o
  created : ∀ record o stored o', (origin.create v.name record).runOn o = (.ok stored, o') →
    v.feed o' = v.feed o ++ [.changed ⟨v.name, stored⟩] ∧ (∀ value ∈ stored.key v.schema, value ≠ .null) ∧
    ∀ entry ∈ v.feed o, entry.Spares v.name v.schema stored
  rejected : ∀ record o error o', (origin.create v.name record).runOn o = (.error error, o') →
    v.feed o <+: v.feed o'

end FeedView

/-! ## Writes to the replica -/

namespace ReplicaWrite

variable {db : Database} {name : String} {schema : CollectionSchema} {store : Store} {record : Record}

/-- What a write makes of the rows of a collection: nothing new, or what replacing records or deleting
an id makes of them. -/
theorem rows_apply (hs : db.schemas.get? name = some schema) (write : ReplicaWrite) (store : Store) :
    ((write.apply db).runOn store).2.rows name = store.rows name ∨
      (∃ records, write = .put name records ∧ Memory.replaced (db.scope name schema) (store.rows name)
        records = .ok (((write.apply db).runOn store).2.rows name)) ∨
      ∃ id t, write = .remove name id ∧ Condition.matchIds schema [id] = .ok t ∧
        Memory.remaining db store name schema (.ofCondition t) =
          .ok (((write.apply db).runOn store).2.rows name) := by
  cases write with
  | put collection records =>
    simp only [apply, Memory.replaceRecords]
    cases hother : db.schemas.get? collection with
    | none => exact Or.inl rfl
    | some other =>
      simp only [Memory.runOn_writing]
      cases hrows : Memory.replaced (db.scope collection other) (store.rows collection) records with
      | error e => exact Or.inl rfl
      | ok rows =>
        by_cases hname : collection = name
        · subst hname
          rw [hs] at hother
          cases hother
          exact Or.inr (Or.inl ⟨records, rfl, by rw [hrows]; simp⟩)
        · exact Or.inl (Store.rows_setRows_of_ne _ hname _)
  | remove collection id =>
    simp only [apply, Database.removeId]
    cases hother : db.schemas.get? collection with
    | none => exact Or.inl rfl
    | some other =>
      simp only [Action.runOn_bind, Action.liftM_eq_ofExcept, Action.runOn_ofExcept]
      cases ht : Condition.matchIds other [id] with
      | error e => exact Or.inl rfl
      | ok t =>
        simp only [Memory.delete, Memory.runOn_writing]
        cases hrows : Memory.remaining db store collection other (.ofCondition t) with
        | error e => exact Or.inl rfl
        | ok rows =>
          by_cases hname : collection = name
          · subst hname
            rw [hs] at hother
            cases hother
            refine Or.inr (Or.inr ⟨id, t, rfl, ht, ?_⟩)
            simp only [bind, Except.bind, pure, Except.pure, Store.rows_setRows_self, hrows]
          · exact Or.inl (Store.rows_setRows_of_ne _ hname _)

theorem keyed_apply (hs : db.schemas.get? name = some schema) (write : ReplicaWrite)
    (h : Memory.Keyed schema (store.rows name)) :
    Memory.Keyed schema (((write.apply db).runOn store).2.rows name) := by
  have hscope : Memory.Keyed (db.scope name schema).schema (store.rows name) := h
  rcases rows_apply hs write store with hrows | ⟨records, -, hrows⟩ | ⟨id, t, -, -, hrows⟩
  · rw [hrows]
    exact h
  · exact Memory.keyed_replaced hscope hrows
  · exact Memory.keyed_remaining h hrows

/-- A row stays, or one with the same id, unless its id is deleted. -/
theorem hasRow_apply (hs : db.schemas.get? name = some schema) (hkeys : schema.UsableKeys)
    {write : ReplicaWrite}
    (hapart : ∀ id, write = .remove name id → sameId id (record.key schema) = false)
    (h : Memory.HasRow schema (store.rows name) record) :
    Memory.HasRow schema (((write.apply db).runOn store).2.rows name) record := by
  have hscope : Memory.HasRow (db.scope name schema).schema (store.rows name) record := h
  rcases rows_apply hs write store with hrows | ⟨records, -, hrows⟩ | ⟨id, t, hwrite, ht, hrows⟩
  · rw [hrows]
    exact h
  · exact hscope.replaced hrows
  · exact h.remaining hkeys ht hrows (hapart id hwrite)

theorem hasRow_put (hs : db.schemas.get? name = some schema) {records : List Record}
    (hmem : record ∈ records) (hpresent : ∀ v ∈ record.key schema, v ≠ .null)
    (hok : ((apply db (.put name records)).runOn store).1 = .ok ()) :
    Memory.HasRow schema (((apply db (.put name records)).runOn store).2.rows name) record := by
  simp only [apply, Memory.replaceRecords, hs, Memory.runOn_writing] at hok ⊢
  cases hrows : Memory.replaced (db.scope name schema) (store.rows name) records with
  | error e =>
    rw [hrows] at hok
    cases hok
  | ok rows =>
    have hscope : Memory.HasRow (db.scope name schema).schema rows record :=
      Memory.hasRow_replaced hmem hpresent hrows
    have hrow : Memory.HasRow schema rows record := hscope
    simpa [bind, Except.bind, pure, Except.pure] using hrow

end ReplicaWrite

/-! ## Races -/

theorem getElem?_set_cases {α : Type} {xs : List α} {i j : Nat} {a b : α}
    (h : (xs.set i a)[j]? = some b) : (i = j ∧ a = b) ∨ (i ≠ j ∧ xs[j]? = some b) := by
  by_cases hij : i = j
  · subst hij
    rw [List.getElem?_set_self'] at h
    obtain ⟨_, _, heq⟩ := Option.map_eq_some_iff.1 h
    exact Or.inl ⟨rfl, heq⟩
  · rw [List.getElem?_set_ne hij] at h
    exact Or.inr ⟨hij, h⟩

namespace SyncRace

/-- A call has these writes to apply and then moves to the cursor. -/
def Applying (r : SyncRace ω) (call : Nat) (cursor : String) (writes : List ReplicaWrite) : Prop :=
  r.calls[call]? = some (.applying cursor writes)

/-- The cursors of a race stand in the feed, and it deletes only what the feed says. -/
structure Follows (v : FeedView ω) (r : SyncRace ω) : Prop where
  keyed : Memory.Keyed v.schema (r.state.replica.rows v.name)
  cursor : v.reach r.state.cursor ≤ (v.feed r.state.origin).length
  ahead : ∀ call cursor writes, r.Applying call cursor writes →
    v.position cursor ≤ (v.feed r.state.origin).length
  removes : ∀ call cursor writes id, r.Applying call cursor writes → .remove v.name id ∈ writes →
    .deleted ⟨v.name, id⟩ ∈ v.feed r.state.origin

/-- A record that the feed tells of at a place, and deletes nowhere. It is in the replica if the cursor
is past the place, and will be once a call whose cursor is past it has written what it has to write. -/
structure Tracks (v : FeedView ω) (r : SyncRace ω) (record : Record) (place : Nat) : Prop where
  entry : (v.feed r.state.origin)[place]? = some (.changed ⟨v.name, record⟩)
  present : ∀ value ∈ record.key v.schema, value ≠ .null
  spared : ∀ id, .deleted ⟨v.name, id⟩ ∈ v.feed r.state.origin →
    sameId id (record.key v.schema) = false
  stored : place < v.reach r.state.cursor →
    Memory.HasRow v.schema (r.state.replica.rows v.name) record
  coming : ∀ call cursor writes, r.Applying call cursor writes → place < v.position cursor →
    Memory.HasRow v.schema (r.state.replica.rows v.name) record ∨
      ∃ records, .put v.name records ∈ writes ∧ record ∈ records

section

variable {c : Cache ω} {v : FeedView ω} {r : SyncRace ω} {record : Record} {place : Nat}

theorem Applying.of_join {call : Nat} {cursor : String} {writes : List ReplicaWrite}
    (h : r.join.Applying call cursor writes) : r.Applying call cursor writes := by
  rcases Nat.lt_or_ge call r.calls.length with hlt | hge
  · rwa [Applying, join, List.getElem?_append_left hlt] at h
  · rw [Applying, join, List.getElem?_append_right hge] at h
    cases List.mem_singleton.1 (List.mem_of_getElem? h)

/-- What a call applies after a step of one of them: what that one applies now, or what it did before. -/
theorem Applying.of_set {state : CacheState ω} {call other : Nat} {next : SyncStage} {cursor : String}
    {writes : List ReplicaWrite} (h : Applying ⟨state, r.calls.set call next⟩ other cursor writes) :
    (call = other ∧ next = .applying cursor writes) ∨ (call ≠ other ∧ r.Applying other cursor writes) :=
  getElem?_set_cases h

theorem Follows.join (h : r.Follows v) : r.join.Follows v :=
  ⟨h.keyed, h.cursor, fun call cursor writes hcall => h.ahead call cursor writes hcall.of_join,
    fun call cursor writes id hcall => h.removes call cursor writes id hcall.of_join⟩

theorem Tracks.join (h : r.Tracks v record place) : r.join.Tracks v record place :=
  ⟨h.entry, h.present, h.spared, h.stored, fun call cursor writes hcall =>
    h.coming call cursor writes hcall.of_join⟩

variable (hs : c.database.schemas.get? v.name = some v.schema) (hkeys : v.schema.UsableKeys)
  (hhonest : v.Honest c.origin)

section

include hhonest

/-- A step of a call leaves the feed as it is. -/
theorem feed_step (stage : SyncStage) (s : CacheState ω) :
    v.feed (c.step stage s).2.origin = v.feed s.origin := by
  rcases c.state_step_cases stage s with h | ⟨-, h⟩ | ⟨_, _, _, -, h⟩ | ⟨_, -, h⟩
  · rw [h]
  · rw [h]
    rcases hanswer : (c.origin.listChanges s.cursor).runOn s.origin with ⟨error | set, origin⟩
    · exact hhonest.refused _ _ _ _ hanswer
    · exact (hhonest.listed _ _ _ _ hanswer).1
  · rw [h]
  · rw [h]

end

theorem replica_step_applying (cursor : String) (write : ReplicaWrite) (rest : List ReplicaWrite)
    (s : CacheState ω) : (c.step (.applying cursor (write :: rest)) s).2.replica =
      ((write.apply c.database).runOn s.replica).2 := by
  rcases houtcome : (write.apply c.database).runOn s.replica with ⟨error | _, written⟩ <;>
    simp [Cache.step, houtcome]

/-- A step of a call leaves the replica as it is, or applies the first of its writes. -/
theorem replica_step (stage : SyncStage) (s : CacheState ω) :
    (c.step stage s).2.replica = s.replica ∨ ∃ cursor write rest,
      stage = .applying cursor (write :: rest) ∧
        (c.step stage s).2.replica = ((write.apply c.database).runOn s.replica).2 := by
  rcases c.state_step_cases stage s with h | ⟨-, h⟩ | ⟨cursor, write, rest, hstage, h⟩ | ⟨_, -, h⟩
  · exact Or.inl (by rw [h])
  · exact Or.inl (by rw [h])
  · exact Or.inr ⟨cursor, write, rest, hstage, congrArg CacheState.replica h⟩
  · exact Or.inl (by rw [h])

/-- The writes that a call has after a step: those of the set it was answered, or what was left. -/
theorem step_eq_applying {stage : SyncStage} {s : CacheState ω} {cursor : String}
    {writes : List ReplicaWrite} (h : (c.step stage s).1 = .applying cursor writes) :
    (∃ set, stage = .fetching ∧ set.cursor = cursor ∧ set.writes = writes ∧
      (c.origin.listChanges s.cursor).runOn s.origin = (.ok set, (c.step stage s).2.origin)) ∨
    ∃ write, stage = .applying cursor (write :: writes) ∧
      ((write.apply c.database).runOn s.replica).1 = .ok () := by
  cases stage with
  | queued observed =>
    by_cases hobserved : s.generation = observed <;> simp [Cache.step, hobserved] at h
  | fetching =>
    rcases hanswer : (c.origin.listChanges s.cursor).runOn s.origin with ⟨error | set, origin⟩
    · simp [Cache.step, hanswer] at h
    · simp only [Cache.step, hanswer] at h
      cases h
      refine Or.inl ⟨set, rfl, rfl, rfl, ?_⟩
      simp only [Cache.step, hanswer]
  | applying cursor writes =>
    cases writes with
    | nil => simp [Cache.step] at h
    | cons write rest =>
      rcases houtcome : (write.apply c.database).runOn s.replica with ⟨error | _, written⟩
      · simp [Cache.step, houtcome] at h
      · simp only [Cache.step, houtcome] at h
        cases h
        exact Or.inr ⟨write, rfl, congrArg Prod.fst houtcome⟩
  | finished outcome => simp [Cache.step] at h

/-- The cursor after a step: as it was, or that of a call that has nothing left to write. -/
theorem cursor_step (stage : SyncStage) (s : CacheState ω) :
    (c.step stage s).2.cursor = s.cursor ∨
      ∃ cursor, stage = .applying cursor [] ∧ (c.step stage s).2.cursor = some cursor := by
  rcases c.state_step_cases stage s with h | ⟨-, h⟩ | ⟨_, _, _, -, h⟩ | ⟨cursor, hstage, h⟩
  · exact Or.inl (by rw [h])
  · exact Or.inl (by rw [h])
  · exact Or.inl (by rw [h])
  · exact Or.inr ⟨cursor, hstage, congrArg CacheState.cursor h⟩

/-- A call that goes on, with the stage it goes on from. -/
def stepped (c : Cache ω) (r : SyncRace ω) (call : Nat) (stage : SyncStage) : SyncRace ω :=
  ⟨(c.step stage r.state).2, r.calls.set call (c.step stage r.state).1⟩

/-- Nothing happens, or a call takes a step, which is an event. -/
theorem advance_cases (c : Cache ω) (r : SyncRace ω) (call : Nat) :
    (r.advance c call = r ∧ r.event? c call = none) ∨
      ∃ stage e, r.calls[call]? = some stage ∧ r.advance c call = r.stepped c call stage ∧
        c.stepEvent call stage r.state = some e ∧ r.event? c call = some e := by
  rw [advance, event?]
  cases hplace : r.calls[call]? with
  | none => exact Or.inl ⟨rfl, by simp⟩
  | some stage =>
    by_cases hcan : r.canAdvance call = true
    · have hevent : ∃ e, c.stepEvent call stage r.state = some e := by
        rw [canAdvance, hplace] at hcan
        cases stage with
        | queued observed => exact ⟨_, rfl⟩
        | fetching =>
          rcases hanswer : ((c.origin.listChanges r.state.cursor).runOn r.state.origin).1 with error | set
          · exact ⟨.refused call r.state.cursor error, by simp [Cache.stepEvent, hanswer]⟩
          · exact ⟨.answered call r.state.cursor set, by simp [Cache.stepEvent, hanswer]⟩
        | applying cursor writes =>
          cases writes with
          | nil => exact ⟨_, rfl⟩
          | cons write rest =>
            rcases houtcome : ((write.apply c.database).runOn r.state.replica).1 with error | _
            · exact ⟨.failed call write error, by simp [Cache.stepEvent, houtcome]⟩
            · exact ⟨.wrote call write, by simp [Cache.stepEvent, houtcome]⟩
        | finished outcome => exact absurd hcan Bool.false_ne_true
      obtain ⟨e, he⟩ := hevent
      exact Or.inr ⟨stage, e, rfl, if_pos hcan, he, by simp [hcan, he]⟩
    · exact Or.inl ⟨if_neg hcan, if_neg hcan⟩

include hs

section

include hhonest

theorem Follows.stepped (h : r.Follows v) {call : Nat} {stage : SyncStage}
    (hplace : r.calls[call]? = some stage) : (r.stepped c call stage).Follows v := by
  have hfeed := feed_step hhonest stage r.state
  have hset : ∀ other cursor writes, (r.stepped c call stage).Applying other cursor writes →
      (v.position cursor ≤ (v.feed r.state.origin).length ∧
        ∀ id, .remove v.name id ∈ writes → .deleted ⟨v.name, id⟩ ∈ v.feed r.state.origin) := by
    intro other cursor writes hother
    rcases hother.of_set with ⟨rfl, hnext⟩ | ⟨-, hbefore⟩
    · rcases step_eq_applying hnext with ⟨set, rfl, rfl, rfl, hanswer⟩ | ⟨write, rfl, -⟩
      · obtain ⟨-, hposition, -, hdeletions⟩ := hhonest.listed _ _ _ _ hanswer
        refine ⟨Nat.le_of_eq hposition, fun id hmem => ?_⟩
        rcases List.mem_append.1 hmem with hmem | hmem
        · obtain ⟨e, -, heq⟩ := List.mem_map.1 hmem
          cases heq
        · obtain ⟨deletion, hdeletion, heq⟩ := List.mem_map.1 hmem
          obtain ⟨hname, rfl⟩ := ReplicaWrite.remove.inj heq
          rw [← hname]
          exact hdeletions deletion hdeletion
      · exact ⟨h.ahead call cursor _ hplace, fun id hmem =>
          h.removes call cursor _ id hplace (List.mem_cons_of_mem _ hmem)⟩
    · exact ⟨h.ahead other cursor writes hbefore, fun id => h.removes other cursor writes id hbefore⟩
  refine ⟨?_, ?_, fun other cursor writes hother => ?_, fun other cursor writes id hother hmem => ?_⟩
  · change Memory.Keyed v.schema ((c.step stage r.state).2.replica.rows v.name)
    rcases replica_step (c := c) stage r.state with hreplica | ⟨cursor, write, rest, -, hreplica⟩
    · rw [hreplica]
      exact h.keyed
    · rw [hreplica]
      exact ReplicaWrite.keyed_apply hs write h.keyed
  · change v.reach (c.step stage r.state).2.cursor ≤ (v.feed (c.step stage r.state).2.origin).length
    rw [hfeed]
    rcases cursor_step (c := c) stage r.state with hcursor | ⟨cursor, rfl, hcursor⟩
    · rw [hcursor]
      exact h.cursor
    · rw [hcursor]
      exact h.ahead call cursor [] hplace
  · change v.position cursor ≤ (v.feed (c.step stage r.state).2.origin).length
    rw [hfeed]
    exact (hset other cursor writes hother).1
  · change .deleted ⟨v.name, id⟩ ∈ v.feed (c.step stage r.state).2.origin
    rw [hfeed]
    exact (hset other cursor writes hother).2 id hmem

end

include hkeys

theorem Tracks.hasRow_stepped (hfollows : r.Follows v) (h : r.Tracks v record place) {call : Nat}
    {stage : SyncStage} (hplace : r.calls[call]? = some stage)
    (hrow : Memory.HasRow v.schema (r.state.replica.rows v.name) record) :
    Memory.HasRow v.schema ((r.stepped c call stage).state.replica.rows v.name) record := by
  change Memory.HasRow v.schema ((c.step stage r.state).2.replica.rows v.name) record
  rcases replica_step (c := c) stage r.state with hreplica | ⟨cursor, write, rest, rfl, hreplica⟩
  · rwa [hreplica]
  · rw [hreplica]
    refine ReplicaWrite.hasRow_apply hs hkeys (fun id hwrite => h.spared id ?_) hrow
    exact hfollows.removes call cursor _ id hplace (hwrite ▸ List.mem_cons_self)

include hhonest in
theorem Tracks.stepped (hfollows : r.Follows v) (h : r.Tracks v record place) {call : Nat}
    {stage : SyncStage} (hplace : r.calls[call]? = some stage) :
    (r.stepped c call stage).Tracks v record place := by
  have hfeed := feed_step hhonest stage r.state
  have hkeeps : Memory.HasRow v.schema (r.state.replica.rows v.name) record →
      Memory.HasRow v.schema ((c.step stage r.state).2.replica.rows v.name) record :=
    h.hasRow_stepped hs hkeys hfollows hplace
  refine ⟨?_, h.present, fun id hid => ?_, fun hlt => ?_, fun other cursor writes hother hlt => ?_⟩
  · change (v.feed (c.step stage r.state).2.origin)[place]? = _
    rw [hfeed]
    exact h.entry
  · refine h.spared id ?_
    rw [← hfeed]
    exact hid
  · change place < v.reach (c.step stage r.state).2.cursor at hlt
    rcases cursor_step (c := c) stage r.state with hcursor | ⟨cursor, rfl, hcursor⟩
    · rw [hcursor] at hlt
      exact hkeeps (h.stored hlt)
    · rw [hcursor] at hlt
      rcases h.coming call cursor [] hplace hlt with hrow | ⟨records, hmem, -⟩
      · exact hkeeps hrow
      · cases hmem
  · rcases hother.of_set with ⟨rfl, hnext⟩ | ⟨-, hbefore⟩
    · rcases step_eq_applying hnext with ⟨set, rfl, rfl, rfl, hanswer⟩ | ⟨write, rfl, hok⟩
      · obtain ⟨-, -, hchanges, -⟩ := hhonest.listed _ _ _ _ hanswer
        by_cases hreach : place < v.reach r.state.cursor
        · exact Or.inl (hkeeps (h.stored hreach))
        · have hdelivered : ⟨v.name, record⟩ ∈ set.changes := by
            refine hchanges _ (List.mem_of_getElem? (i := place - v.reach r.state.cursor) ?_)
            rw [List.getElem?_drop, Nat.add_sub_cancel' (Nat.le_of_not_lt hreach)]
            exact h.entry
          refine Or.inr ⟨_, ChangeSet.put_mem_writes hdelivered, ?_⟩
          exact List.mem_map_of_mem (List.mem_filter.2 ⟨hdelivered, decide_eq_true rfl⟩)
      · rcases h.coming call cursor _ hplace hlt with hrow | ⟨records, hmem, hrecord⟩
        · exact Or.inl (hkeeps hrow)
        · rcases List.mem_cons.1 hmem with rfl | hmem
          · have hput := ReplicaWrite.hasRow_put hs hrecord h.present hok
            rw [← replica_step_applying cursor _ writes r.state] at hput
            exact Or.inl hput
          · exact Or.inr ⟨records, hmem, hrecord⟩
    · rcases h.coming other cursor writes hbefore hlt with hrow | hput
      · exact Or.inl (hkeeps hrow)
      · exact Or.inr hput

end

/-! ## Creations at the origin -/

section

variable {v : FeedView ω} {r : SyncRace ω} {record : Record} {place : Nat} {o : ω}

/-- The same race once its origin has come to another state. -/
def withOrigin (r : SyncRace ω) (o : ω) : SyncRace ω := { r with state := { r.state with origin := o } }

theorem Follows.withOrigin (h : r.Follows v) (hfeed : v.feed r.state.origin <+: v.feed o) :
    (r.withOrigin o).Follows v :=
  ⟨h.keyed, Nat.le_trans h.cursor hfeed.length_le,
    fun call cursor writes hcall => Nat.le_trans (h.ahead call cursor writes hcall) hfeed.length_le,
    fun call cursor writes id hcall hmem => hfeed.subset (h.removes call cursor writes id hcall hmem)⟩

variable {stored : Record} (hfeed : v.feed o = v.feed r.state.origin ++ [.changed ⟨v.name, stored⟩])
include hfeed

theorem deleted_mem_of_created {id : CompositeId} (h : .deleted ⟨v.name, id⟩ ∈ v.feed o) :
    .deleted ⟨v.name, id⟩ ∈ v.feed r.state.origin := by
  rw [hfeed] at h
  rcases List.mem_append.1 h with h | h
  · exact h
  · cases List.mem_singleton.1 h

theorem Tracks.withOrigin (h : r.Tracks v record place) : (r.withOrigin o).Tracks v record place := by
  refine ⟨?_, h.present, fun id hid => h.spared id (deleted_mem_of_created hfeed hid), h.stored, h.coming⟩
  change (v.feed o)[place]? = _
  rw [hfeed, List.getElem?_append_left (List.getElem?_eq_some_iff.1 h.entry).1]
  exact h.entry

/-- What the origin has just created is tracked: no cursor is past it yet. -/
theorem tracks_created (h : r.Follows v) (hpresent : ∀ value ∈ stored.key v.schema, value ≠ .null)
    (hfresh : ∀ entry ∈ v.feed r.state.origin, entry.Spares v.name v.schema stored) :
    (r.withOrigin o).Tracks v stored (v.feed r.state.origin).length := by
  refine ⟨?_, hpresent, fun id hid => hfresh _ (deleted_mem_of_created hfeed hid) rfl, fun hlt => ?_,
    fun call cursor writes hcall hlt => ?_⟩
  · change (v.feed o)[_]? = _
    rw [hfeed]
    exact List.getElem?_concat_length
  · exact absurd hlt (Nat.not_lt.2 h.cursor)
  · exact absurd hlt (Nat.not_lt.2 (h.ahead call cursor writes hcall))

end

end SyncRace

end QueryLayer
