import Mathlib.Data.List.Induction
import QueryLayer.Cache.Archive
import QueryLayer.Proofs.Cache.Batches

/-! # What a replica misses

An origin stores records and tells, from sync to sync, what has happened to them. Within a window of its
feed the deletions are applied after all changes, whatever their order was. So a record that is deleted
and comes back within one window is missing, and this is all that is ever missing: the last window that
is about an id says what the replica has for it, and `Told` carries this along a run.
-/
namespace QueryLayer

open Memory (KeyedStore Keyed rowOf lastOf upsert upsertAll withDefaults hasId)

variable {ω : Type}

namespace FeedEntry

/-- The entry is about an id. -/
def concerns (name : String) (schema : CollectionSchema) (id : CompositeId) : FeedEntry → Bool
  | changed change => change.collection = name && sameId (change.record.key schema) id
  | deleted deletion => deletion.collection = name && sameId deletion.id id

def change? : FeedEntry → Option RecordChange
  | changed change => some change
  | deleted _ => none

def deletion? : FeedEntry → Option RecordDeletion
  | changed _ => none
  | deleted deletion => some deletion

def record? (entry : FeedEntry) : Option Record := entry.change?.map RecordChange.record

/-- The entry deletes an id. -/
def deletes (name : String) (schema : CollectionSchema) (id : CompositeId) (entry : FeedEntry) : Bool :=
  entry.concerns name schema id && entry.deletion?.isSome

/-- The records of a collection once the entry has happened. -/
def happen (name : String) (schema : CollectionSchema) (rows : List Record) : FeedEntry → List Record
  | changed change =>
    if change.collection = name then upsert schema change.record (change.record.key schema) rows else rows
  | deleted deletion =>
    if deletion.collection = name then rows.filter fun r => !sameId deletion.id (r.key schema) else rows

/-- A changed record has an id. -/
def Identified (name : String) (schema : CollectionSchema) : FeedEntry → Prop
  | changed change => change.collection = name → ∀ v ∈ change.record.key schema, v ≠ .null
  | deleted _ => True

end FeedEntry

/-- A set has the entries of a window, split into changes and deletions. -/
structure ChangeSet.Tells (set : ChangeSet) (window : List FeedEntry) : Prop where
  changes : set.changes = window.filterMap FeedEntry.change?
  deletions : set.deletions = window.filterMap FeedEntry.deletion?

/-- An origin and a cache that syncs with it from time to time, as far as one collection is concerned:
which windows of the feed were told by syncs that succeeded, and what is still outstanding. -/
inductive Fed (c : Cache ω) (name : String) (schema : CollectionSchema) (stored : ω → List Record) :
    List (List FeedEntry) → List FeedEntry → CacheState ω → Prop
  | start {o : ω} (empty : stored o = []) :
    Fed c name schema stored [] [] (Cache.start c.database.emptyStore o)
  | happened {told : List (List FeedEntry)} {outstanding : List FeedEntry} {s : CacheState ω}
    {entry : FeedEntry} {o : ω} (before : Fed c name schema stored told outstanding s)
    (identified : entry.Identified name schema)
    (applied : (stored o).Perm (entry.happen name schema (stored s.origin))) :
    Fed c name schema stored told (outstanding ++ [entry]) { s with origin := o }
  | synced {told : List (List FeedEntry)} {window rest : List FeedEntry} {s t : CacheState ω}
    {set : ChangeSet} {o : ω} (before : Fed c name schema stored told (window ++ rest) s)
    (answered : (c.origin.listChanges s.cursor).runOn s.origin = (.ok set, o))
    (tells : set.Tells window) (kept : (stored o).Perm (stored s.origin))
    (succeeded : c.sync.runOn s = (.ok (), t)) :
    Fed c name schema stored (told ++ [window]) rest t
  | failed {told : List (List FeedEntry)} {outstanding : List FeedEntry} {s t : CacheState ω} {e : Error}
    (before : Fed c name schema stored told outstanding s)
    (answered : ∀ set o, (c.origin.listChanges s.cursor).runOn s.origin = (.ok set, o) →
      ∃ window rest, outstanding = window ++ rest ∧ set.Tells window)
    (kept : (stored t.origin).Perm (stored s.origin))
    (failed : c.sync.runOn s = (.error e, t)) :
    Fed c name schema stored told outstanding t

namespace FeedEntry

variable {name : String} {schema : CollectionSchema} {id : CompositeId} {rows : List Record}
  {entry : FeedEntry}

theorem keyed_happen (hentry : entry.Identified name schema) (h : Keyed schema rows) :
    Keyed schema (entry.happen name schema rows) := by
  cases entry with
  | changed change =>
    simp only [happen]
    split
    · next hname => exact Memory.keyed_upsert (hentry hname) h
    · exact h
  | deleted deletion =>
    simp only [happen]
    split
    · exact h.filter _
    · exact h

/-- An entry decides about the ids that it is about, and about no others. -/
theorem rowOf_happen (h : Keyed schema rows) (id : CompositeId) (entry : FeedEntry) :
    rowOf schema (entry.happen name schema rows) id =
      if entry.concerns name schema id = true then entry.record? else rowOf schema rows id := by
  cases entry with
  | changed change =>
    by_cases hname : change.collection = name
    · simp only [happen, hname, if_true, Memory.rowOf_upsert h, concerns, decide_true, Bool.true_and]
      rfl
    · simp [happen, concerns, hname]
  | deleted deletion =>
    by_cases hname : deletion.collection = name
    · simp only [happen, hname, if_true, Memory.rowOf_filter_id, concerns, decide_true, Bool.true_and]
      rfl
    · simp [happen, concerns, hname]

end FeedEntry

/-! ## What entries come to -/

section

variable (name : String) (schema : CollectionSchema)

/-- The last one of the entries about an id. -/
def lastEntry (entries : List FeedEntry) (id : CompositeId) : Option FeedEntry :=
  entries.reverse.find? (FeedEntry.concerns name schema id)

/-- The last window that is about an id. -/
def lastWindow (told : List (List FeedEntry)) (id : CompositeId) : List FeedEntry :=
  (told.reverse.find? fun window => window.any (FeedEntry.concerns name schema id)).getD []

/-- The last window about an id deletes it, before or after its last change. -/
def lost (told : List (List FeedEntry)) (id : CompositeId) : Bool :=
  (lastWindow name schema told id).any (FeedEntry.deletes name schema id)

end

section

variable {name : String} {schema : CollectionSchema} {id : CompositeId}
  {entries others : List FeedEntry} {entry : FeedEntry} {told : List (List FeedEntry)}
  {window : List FeedEntry}

theorem lastEntry_concat : lastEntry name schema (entries ++ [entry]) id =
    if entry.concerns name schema id = true then some entry else lastEntry name schema entries id := by
  rw [lastEntry, List.reverse_append, List.reverse_singleton, List.singleton_append, List.find?_cons]
  cases entry.concerns name schema id <;> rfl

theorem lastEntry_append : lastEntry name schema (entries ++ others) id =
    (lastEntry name schema others id).or (lastEntry name schema entries id) := by
  rw [lastEntry, List.reverse_append, List.find?_append]
  rfl

theorem lastEntry_eq_none_iff :
    lastEntry name schema entries id = none ↔ entries.any (FeedEntry.concerns name schema id) = false := by
  simp [lastEntry]

/-- The last entry about an id is a change where none deletes it. -/
theorem record?_of_lastEntry (h : lastEntry name schema entries id = some entry)
    (hstays : entries.any (FeedEntry.deletes name schema id) = false) :
    ∃ record, entry.record? = some record := by
  have hmem : entry ∈ entries := List.mem_reverse.1 (List.mem_of_find?_eq_some h)
  have hconcerns : entry.concerns name schema id = true := List.find?_some h
  have hdeletes := List.any_eq_false.1 hstays entry hmem
  cases entry with
  | changed change => exact ⟨change.record, rfl⟩
  | deleted deletion => simp [FeedEntry.deletes, FeedEntry.deletion?, hconcerns] at hdeletes

theorem lastWindow_concat : lastWindow name schema (told ++ [window]) id =
    if window.any (FeedEntry.concerns name schema id) = true then window
    else lastWindow name schema told id := by
  rw [lastWindow, List.reverse_append, List.reverse_singleton, List.singleton_append, List.find?_cons]
  cases window.any (FeedEntry.concerns name schema id) <;> rfl

/-- The window in which the last entry about an id stands. -/
theorem lastEntry_flatten : lastEntry name schema told.flatten id =
    lastEntry name schema (lastWindow name schema told id) id := by
  induction told using List.reverseRecOn with
  | nil => rfl
  | append_singleton told window ih =>
    rw [List.flatten_append, List.flatten_singleton, lastEntry_append, lastWindow_concat]
    cases hwindow : window.any (FeedEntry.concerns name schema id) with
    | true =>
      rw [if_pos rfl]
      cases hlast : lastEntry name schema window id with
      | none =>
        rw [lastEntry_eq_none_iff.1 hlast] at hwindow
        cases hwindow
      | some entry => rfl
    | false =>
      rw [if_neg Bool.false_ne_true, lastEntry_eq_none_iff.2 hwindow, Option.none_or, ih]

theorem lastWindow_mem_or_nil (name : String) (schema : CollectionSchema) (told : List (List FeedEntry))
    (id : CompositeId) :
    lastWindow name schema told id ∈ told ∨ lastWindow name schema told id = [] := by
  cases hfound : told.reverse.find? fun window => window.any (FeedEntry.concerns name schema id) with
  | none => exact Or.inr (by rw [lastWindow, hfound]; rfl)
  | some window =>
    refine Or.inl ?_
    rw [lastWindow, hfound]
    exact List.mem_reverse.1 (List.mem_of_find?_eq_some hfound)

theorem concerns_congr {other : CompositeId} (h : sameId id other = true) :
    FeedEntry.concerns name schema id = FeedEntry.concerns name schema other := by
  funext entry
  cases entry <;> simp only [FeedEntry.concerns, sameId_congr_right h]

theorem lost_congr {other : CompositeId} (h : sameId id other = true) :
    lost name schema told id = lost name schema told other := by
  have hdeletes : FeedEntry.deletes name schema id = FeedEntry.deletes name schema other := by
    funext entry
    rw [FeedEntry.deletes, FeedEntry.deletes, concerns_congr h]
  rw [lost, lost, lastWindow, lastWindow, concerns_congr h, hdeletes]

/-! ## One window -/

namespace ChangeSet.Tells

variable {set : ChangeSet}

theorem change_mem (h : set.Tells window) {change : RecordChange} (hchange : change ∈ set.changes) :
    .changed change ∈ window := by
  rw [h.changes] at hchange
  obtain ⟨entry, hentry, heq⟩ := List.mem_filterMap.1 hchange
  cases entry with
  | changed other =>
    cases heq
    exact hentry
  | deleted deletion => cases heq

theorem deletion_mem (h : set.Tells window) {deletion : RecordDeletion} (hdeletion : deletion ∈ set.deletions) :
    .deleted deletion ∈ window := by
  rw [h.deletions] at hdeletion
  obtain ⟨entry, hentry, heq⟩ := List.mem_filterMap.1 hdeletion
  cases entry with
  | changed change => cases heq
  | deleted other =>
    cases heq
    exact hentry

theorem changed_mem_of_recordsOf (h : set.Tells window) {r : Record} (hr : r ∈ set.recordsOf name) :
    ∃ change, .changed change ∈ window ∧ change.collection = name ∧ change.record = r := by
  obtain ⟨change, hchange, rfl⟩ := List.mem_map.1 hr
  obtain ⟨hmem, hname⟩ := List.mem_filter.1 hchange
  exact ⟨change, h.change_mem hmem, of_decide_eq_true hname, rfl⟩

theorem hasId_deletedIds (h : set.Tells window) (name : String) (schema : CollectionSchema)
    (id : CompositeId) :
    hasId (set.deletedIds name) id = window.any (FeedEntry.deletes name schema id) := by
  rw [hasId, ChangeSet.deletedIds, h.deletions, List.any_map, List.any_filter, List.any_filterMap]
  refine congrArg window.any (funext fun entry => ?_)
  cases entry <;> simp [FeedEntry.deletes, FeedEntry.concerns, FeedEntry.deletion?]

/-- Where a window does not delete an id, its last entry about the id is the last change. -/
theorem lastOf_recordsOf (h : set.Tells window)
    (hstays : window.any (FeedEntry.deletes name schema id) = false) :
    lastOf schema (set.recordsOf name) id =
      (lastEntry name schema window id).bind FeedEntry.record? := by
  rw [ChangeSet.recordsOf, h.changes]
  clear h
  induction window using List.reverseRecOn with
  | nil => rfl
  | append_singleton window entry ih =>
    rw [List.any_append, Bool.or_eq_false_iff] at hstays
    rw [List.filterMap_append, lastEntry_concat]
    cases entry with
    | changed change =>
      by_cases hname : change.collection = name
      · simp [FeedEntry.change?, FeedEntry.concerns, hname, Memory.lastOf_concat, ih hstays.1]
        split <;> rfl
      · simpa [FeedEntry.change?, FeedEntry.concerns, hname] using ih hstays.1
    | deleted deletion =>
      have hother : FeedEntry.concerns name schema id (.deleted deletion) = false := by
        simpa [FeedEntry.deletes, FeedEntry.deletion?] using hstays.2
      have hnone : [FeedEntry.deleted deletion].filterMap FeedEntry.change? = [] := rfl
      rw [hnone, List.append_nil, hother]
      exact ih hstays.1

/-- What a window says about an id, for the replica. -/
theorem latest?_eq (h : set.Tells window) (hidentified : ∀ entry ∈ window, entry.Identified name schema)
    (hstays : window.any (FeedEntry.deletes name schema id) = false) :
    set.latest? schema name id =
      ((lastEntry name schema window id).bind FeedEntry.record?).map (withDefaults schema) := by
  rw [ChangeSet.latest?, Memory.lastOf_map fun r hr => ?_, h.lastOf_recordsOf hstays]
  obtain ⟨change, hmem, hname, rfl⟩ := h.changed_mem_of_recordsOf hr
  exact Record.key_withDefaults (hidentified _ hmem hname)

end ChangeSet.Tells

/-! ## Writes that are about other ids -/

/-- The write is not about an id of the collection. -/
def ReplicaWrite.Passes (name : String) (schema : CollectionSchema) (id : CompositeId) : ReplicaWrite → Prop
  | put collection records => collection = name →
    ∀ r ∈ records, sameId ((withDefaults schema r).key schema) id = false
  | remove collection other => collection = name → sameId other id = false

theorem ReplicaWrite.rowOf_apply {db : Database} {store : Store} {write : ReplicaWrite}
    (hplain : db.PlainKeys) (hs : db.schemas.get? name = some schema) (hstore : KeyedStore db store)
    (hpasses : write.Passes name schema id) :
    rowOf schema (((write.apply db).runOn store).2.rows name) id = rowOf schema (store.rows name) id := by
  rcases hrun : ((write.apply db).runOn store).1 with e | _
  · rw [runOn_apply_of_error hrun]
  · have hwrite := acceptable_of_runOn_apply hrun
    rw [runOn_apply_of_acceptable hplain hstore hwrite]
    dsimp only
    rw [rows_carry hs]
    split
    · next hname =>
      subst hname
      cases write with
      | put collection records =>
        have hpresent := Memory.present_withDefaults ((acceptable_put_iff hs).1 hwrite)
        have hnone : lastOf schema (records.map (withDefaults schema)) id = none :=
          Memory.lastOf_eq_none_iff.2 (List.forall_mem_map.2 (hpasses rfl))
        rw [effect, Memory.rowOf_upsertAll hpresent (hstore _ _ hs), hnone, Option.none_or]
      | remove collection other =>
        rw [effect, Memory.rowOf_filter_id, hpasses rfl]
        rfl
    · rfl

theorem ChangeSet.Tells.passes {set : ChangeSet} (h : set.Tells window)
    (hidentified : ∀ entry ∈ window, entry.Identified name schema)
    (hother : window.any (FeedEntry.concerns name schema id) = false) :
    ∀ write ∈ set.writes, write.Passes name schema id := by
  intro write hwrite
  rcases ChangeSet.writes_cases hwrite with ⟨first, -, rfl⟩ | ⟨deletion, hdeletion, rfl⟩
  · rintro rfl r hr
    obtain ⟨change, hmem, hname, rfl⟩ := h.changed_mem_of_recordsOf hr
    have hconcerns := List.any_eq_false.1 hother _ hmem
    rw [Record.key_withDefaults (hidentified _ hmem hname)]
    simpa [FeedEntry.concerns, hname] using hconcerns
  · rintro rfl
    have hconcerns := List.any_eq_false.1 hother _ (h.deletion_mem hdeletion)
    simpa [FeedEntry.concerns] using hconcerns

namespace Cache

variable {c : Cache ω} {s t : CacheState ω}

/-- What every write of a set keeps is kept by applying them, however far that comes. -/
theorem runWrites_keeps {P : Store → Prop} {writes : List ReplicaWrite}
    (hwrite : ∀ write ∈ writes, ∀ store, P store → P ((write.apply c.database).runOn store).2)
    (cursor : String) (hs : P s.replica) : P (c.runWrites cursor writes s).2.replica := by
  induction writes generalizing s with
  | nil => exact hs
  | cons write rest ih =>
    have hfirst := hwrite write List.mem_cons_self _ hs
    rw [runWrites]
    rcases happly : (write.apply c.database).runOn s.replica with ⟨e | _, replica⟩
    · rw [happly] at hfirst
      exact hfirst
    · rw [happly] at hfirst
      exact ih (s := { s with replica }) (fun w hw => hwrite w (List.mem_cons_of_mem _ hw)) hfirst

/-- What is kept by a sync, also by one that fails halfway. -/
theorem sync_keeps {P : Store → Prop}
    (hwrite : ∀ set o, (c.origin.listChanges s.cursor).runOn s.origin = (.ok set, o) →
      ∀ write ∈ set.writes, ∀ store, P store → P ((write.apply c.database).runOn store).2)
    (hs : P s.replica) : P (c.sync.runOn s).2.replica := by
  obtain ⟨queue, hsync⟩ := exists_runOn_sync c s
  rw [hsync]
  change P (c.runFetch s).2.replica
  rw [runFetch]
  rcases hanswer : (c.origin.listChanges s.cursor).runOn s.origin with ⟨e | set, o⟩
  · exact hs
  · exact runWrites_keeps (hwrite set o hanswer) set.cursor (s := { s with origin := o }) hs

end Cache

/-! ## Runs -/

/-- What the origin stores is what its last entries say, and the replica has the same of every id that is
not outstanding, unless it is lost. -/
structure Told (c : Cache ω) (name : String) (schema : CollectionSchema) (stored : ω → List Record)
    (told : List (List FeedEntry)) (outstanding : List FeedEntry) (s : CacheState ω) : Prop where
  identified : ∀ entry ∈ outstanding, entry.Identified name schema
  origin : Keyed schema (stored s.origin)
  stored : ∀ id, rowOf schema (stored s.origin) id =
    (lastEntry name schema (told.flatten ++ outstanding) id).bind FeedEntry.record?
  keyed : KeyedStore c.database s.replica
  replicated : ∀ id, outstanding.any (FeedEntry.concerns name schema id) = false →
    rowOf schema (s.replica.rows name) id =
      if lost name schema told id = true then none
      else ((lastEntry name schema told.flatten id).bind FeedEntry.record?).map (withDefaults schema)

namespace Told

variable {c : Cache ω} {stored : ω → List Record} {outstanding rest : List FeedEntry} {s t : CacheState ω}

theorem start {o : ω} (empty : stored o = []) :
    Told c name schema stored [] [] (Cache.start c.database.emptyStore o) where
  identified := by simp
  origin := by
    change Keyed schema (stored o)
    rw [empty]
    exact .nil
  stored id := by
    change rowOf schema (stored o) id = none
    rw [empty]
    rfl
  keyed := Memory.keyedStore_emptyStore c.database
  replicated id _ := by
    change rowOf schema (c.database.emptyStore.rows name) id = none
    rw [Memory.rows_emptyStore]
    rfl

theorem happened (h : Told c name schema stored told outstanding s) {o : ω}
    (identified : entry.Identified name schema)
    (applied : (stored o).Perm (entry.happen name schema (stored s.origin))) :
    Told c name schema stored told (outstanding ++ [entry]) { s with origin := o } where
  identified := by
    intro e he
    rcases List.mem_append.1 he with he | he
    · exact h.identified e he
    · cases List.mem_singleton.1 he
      exact identified
  origin := (Keyed.perm_iff applied).2 (FeedEntry.keyed_happen identified h.origin)
  stored id := by
    have hkeyed := (Keyed.perm_iff applied).2 (FeedEntry.keyed_happen identified h.origin)
    rw [← List.append_assoc, lastEntry_concat, hkeyed.rowOf_perm applied, FeedEntry.rowOf_happen h.origin,
      h.stored]
    split <;> rfl
  keyed := h.keyed
  replicated id hid := by
    rw [List.any_append, Bool.or_eq_false_iff] at hid
    exact h.replicated id hid.1

variable (hplain : c.database.PlainKeys) (hs : c.database.schemas.get? name = some schema)
include hplain hs

theorem synced {set : ChangeSet} {o : ω} (h : Told c name schema stored told (window ++ rest) s)
    (answered : (c.origin.listChanges s.cursor).runOn s.origin = (.ok set, o))
    (tells : set.Tells window) (kept : (stored o).Perm (stored s.origin))
    (succeeded : c.sync.runOn s = (.ok (), t)) :
    Told c name schema stored (told ++ [window]) rest t := by
  obtain ⟨given, o', queue, hgiven, hwrites, rfl⟩ := Cache.runOn_sync_eq_ok hplain h.keyed succeeded
  rw [answered] at hgiven
  cases hgiven
  have hwindow : ∀ entry ∈ window, entry.Identified name schema :=
    fun entry hentry => h.identified entry (List.mem_append_left _ hentry)
  have hsettles := fun name schema hschema =>
    ChangeSet.settles_applyTo hwrites hschema (h.keyed name schema hschema)
  have horigin := (Keyed.perm_iff kept).2 h.origin
  refine ⟨fun entry hentry => h.identified entry (List.mem_append_right _ hentry), horigin, fun id => ?_,
    fun name schema hschema => (hsettles name schema hschema).keyed, fun id hid => ?_⟩
  · rw [horigin.rowOf_perm kept, h.stored, List.flatten_append, List.flatten_singleton, List.append_assoc]
  · rw [(hsettles name schema hs).lookup, tells.hasId_deletedIds name schema, lost, lastWindow_concat,
      List.flatten_append, List.flatten_singleton, lastEntry_append]
    cases hconcerns : window.any (FeedEntry.concerns name schema id) with
    | true =>
      -- the window decides
      rw [if_pos rfl]
      cases hdeletes : window.any (FeedEntry.deletes name schema id) with
      | true => rfl
      | false =>
        rw [tells.latest?_eq hwindow hdeletes]
        cases hlast : lastEntry name schema window id with
        | none =>
          rw [lastEntry_eq_none_iff.1 hlast] at hconcerns
          cases hconcerns
        | some entry =>
          obtain ⟨record, hrecord⟩ := record?_of_lastEntry hlast hdeletes
          simp [hrecord]
    | false =>
      have hdeletes : window.any (FeedEntry.deletes name schema id) = false := by
        refine List.any_eq_false.2 fun entry hentry hdeleted => ?_
        exact List.any_eq_false.1 hconcerns entry hentry (Bool.and_eq_true_iff.1 hdeleted).1
      have hbefore := h.replicated id (by rw [List.any_append, hconcerns, hid]; rfl)
      rw [hdeletes, tells.latest?_eq hwindow hdeletes, lastEntry_eq_none_iff.2 hconcerns, hbefore]
      rfl

theorem failed {e : Error} (h : Told c name schema stored told outstanding s)
    (answered : ∀ set o, (c.origin.listChanges s.cursor).runOn s.origin = (.ok set, o) →
      ∃ window rest, outstanding = window ++ rest ∧ set.Tells window)
    (kept : (stored t.origin).Perm (stored s.origin)) (failed : c.sync.runOn s = (.error e, t)) :
    Told c name schema stored told outstanding t := by
  have horigin := (Keyed.perm_iff kept).2 h.origin
  have hreplica : t.replica = (c.sync.runOn s).2.replica := by rw [failed]
  have hstep : ∀ {store : Store} (write : ReplicaWrite), KeyedStore c.database store →
      KeyedStore c.database ((write.apply c.database).runOn store).2 :=
    fun write hstore name schema hschema => write.keyed_apply hschema (hstore name schema hschema)
  have hkeyed : KeyedStore c.database t.replica := by
    rw [hreplica]
    exact Cache.sync_keeps (fun _ _ _ write _ store hstore => hstep write hstore) h.keyed
  refine ⟨h.identified, horigin, fun id => ?_, hkeyed, fun id hid => ?_⟩
  · rw [horigin.rowOf_perm kept, h.stored]
  · have hrow : KeyedStore c.database (c.sync.runOn s).2.replica ∧
        rowOf schema ((c.sync.runOn s).2.replica.rows name) id = rowOf schema (s.replica.rows name) id := by
      refine Cache.sync_keeps (P := fun store => KeyedStore c.database store ∧
        rowOf schema (store.rows name) id = rowOf schema (s.replica.rows name) id) ?_ ⟨h.keyed, rfl⟩
      intro set o hanswer write hwrite store hstore
      obtain ⟨window, rest, rfl, htells⟩ := answered set o hanswer
      rw [List.any_append, Bool.or_eq_false_iff] at hid
      have hpasses := htells.passes
        (fun entry hentry => h.identified entry (List.mem_append_left _ hentry)) hid.1 write hwrite
      exact ⟨hstep write hstore.1,
        (ReplicaWrite.rowOf_apply hplain hs hstore.1 hpasses).trans hstore.2⟩
    rw [hreplica, hrow.2, h.replicated id hid]

end Told

variable {c : Cache ω} {stored : ω → List Record} {outstanding : List FeedEntry} {s : CacheState ω}

theorem Told.of_fed (hplain : c.database.PlainKeys) (hs : c.database.schemas.get? name = some schema)
    (h : Fed c name schema stored told outstanding s) :
    Told c name schema stored told outstanding s := by
  induction h with
  | start empty => exact .start empty
  | happened _ identified applied ih => exact ih.happened identified applied
  | synced _ answered tells kept succeeded ih => exact ih.synced hplain hs answered tells kept succeeded
  | failed _ answered kept failed ih => exact ih.failed hplain hs answered kept failed

/-- No id is deleted and then changed. -/
def NoReturn (name : String) (schema : CollectionSchema) (window : List FeedEntry) : Prop :=
  ∀ id, window.Pairwise fun a b => a.deletes name schema id = true →
    b.concerns name schema id = true → b.deletes name schema id = true

/-- Where no id comes back, the last entry about a deleted one is a deletion. -/
theorem NoReturn.lastEntry (h : NoReturn name schema window)
    (hdeletes : window.any (FeedEntry.deletes name schema id) = true) :
    (QueryLayer.lastEntry name schema window id).bind FeedEntry.record? = none := by
  have hwindow := h id
  clear h
  induction window using List.reverseRecOn with
  | nil => rfl
  | append_singleton window entry ih =>
    obtain ⟨hbefore, -, hlast⟩ := List.pairwise_append.1 hwindow
    rw [List.any_append, Bool.or_eq_true] at hdeletes
    rw [lastEntry_concat]
    cases hconcerns : entry.concerns name schema id with
    | true =>
      have hentry : entry.deletes name schema id = true := by
        rcases hdeletes with hdeletes | hdeletes
        · obtain ⟨earlier, hmem, hdeleted⟩ := List.any_eq_true.1 hdeletes
          exact hlast earlier hmem entry (List.mem_singleton_self _) hdeleted hconcerns
        · simpa using hdeletes
      cases entry with
      | changed change => simp [FeedEntry.deletes, FeedEntry.deletion?] at hentry
      | deleted deletion => rfl
    | false =>
      rcases hdeletes with hdeletes | hdeletes
      · exact ih hdeletes hbefore
      · simp [FeedEntry.deletes, hconcerns] at hdeletes

end

/-! ## Archives -/

/-- What is done at an archive, and a sync of the cache that follows it. -/
inductive ArchiveMove where
  | change (collection : String) (record : Record)
  | delete (collection : String) (id : CompositeId)
  | sync

namespace Archive

def next (db : Database) (s : CacheState Archive) : ArchiveMove → CacheState Archive
  | .change collection record => { s with origin := s.origin.pushChange collection record }
  | .delete collection id => { s with origin := s.origin.pushDeletion collection id }
  | .sync => ((cache db).sync.runOn s).2

/-- A cache that was never synced follows an empty archive. -/
def run (db : Database) (moves : List ArchiveMove) : CacheState Archive :=
  moves.foldl (next db) (Cache.start db.emptyStore empty)

section

variable {db : Database} {name : String} {schema : CollectionSchema} {told : List (List FeedEntry)}
  {outstanding : List FeedEntry} {s : CacheState Archive}

theorem fed_change (h : Fed (cache db) name schema (rows · name) told outstanding s)
    (collection : String) (record : Record)
    (identified : (FeedEntry.changed ⟨collection, record⟩).Identified name schema)
    (applied : ((s.origin.pushChange collection record).rows name).Perm
      (FeedEntry.happen name schema (s.origin.rows name) (.changed ⟨collection, record⟩))) :
    Fed (cache db) name schema (rows · name) told (outstanding ++ [.changed ⟨collection, record⟩])
      (next db s (.change collection record)) := h.happened identified applied

theorem fed_delete (h : Fed (cache db) name schema (rows · name) told outstanding s)
    (collection : String) (id : CompositeId) (applied : ((s.origin.pushDeletion collection id).rows name).Perm
      (FeedEntry.happen name schema (s.origin.rows name) (.deleted ⟨collection, id⟩))) :
    Fed (cache db) name schema (rows · name) told (outstanding ++ [.deleted ⟨collection, id⟩])
      (next db s (.delete collection id)) := h.happened trivial applied

/-- An archive tells all that is outstanding. -/
theorem fed_sync (h : Fed (cache db) name schema (rows · name) told outstanding s)
    (changes : s.origin.changes = outstanding.filterMap FeedEntry.change?)
    (deletions : s.origin.deletions = outstanding.filterMap FeedEntry.deletion?)
    (succeeded : ((cache db).sync.runOn s).1 = .ok ()) :
    Fed (cache db) name schema (rows · name) (told ++ [outstanding]) [] (next db s .sync) := by
  have hsplit : Fed (cache db) name schema (rows · name) told (outstanding ++ []) s := by
    rwa [List.append_nil]
  refine hsplit.synced (o := { s.origin with
    changes := [], deletions := [], version := s.origin.version + 1 }) rfl ⟨changes, deletions⟩ (.refl _)
    (Prod.ext succeeded rfl)

end

end Archive

/-! ## What is missing -/

section

variable {c : Cache ω} {name : String} {schema : CollectionSchema} {stored : ω → List Record}
  {told : List (List FeedEntry)} {s : CacheState ω}

/-- Once nothing is outstanding the replica has what the origin stores, with the defaults of columns
filled in, except for ids whose last window deleted them; if no id was deleted and then changed within a
window, there is no exception. -/
theorem Fed.perm_rows (hplain : c.database.PlainKeys) (hs : c.database.schemas.get? name = some schema)
    (h : Fed c name schema stored told [] s) :
    (s.replica.rows name).Perm
        (((stored s.origin).filter fun r => !lost name schema told (r.key schema)).map
          (withDefaults schema)) ∧
      ((∀ window ∈ told, NoReturn name schema window) →
        (s.replica.rows name).Perm ((stored s.origin).map (withDefaults schema))) := by
  have htold := Told.of_fed hplain hs h
  have hkeys : ∀ rows : List Record, Keyed schema rows →
      ∀ r ∈ rows, (withDefaults schema r).key schema = r.key schema :=
    fun rows hrows r hr => Record.key_withDefaults (hrows.present r hr)
  have hlost : ∀ a b, sameId a b = true → (!lost name schema told a) = !lost name schema told b :=
    fun a b hab => congrArg (!·) (lost_congr hab)
  have hfiltered : Keyed schema ((stored s.origin).filter fun r => !lost name schema told (r.key schema)) :=
    htold.origin.filter _
  have hstored : ∀ id, rowOf schema (stored s.origin) id =
      (lastEntry name schema told.flatten id).bind FeedEntry.record? := by
    intro id
    rw [htold.stored, List.append_nil]
  have hrows := htold.keyed name schema hs
  constructor
  · refine hrows.perm_of_rowOf (hfiltered.map_of_key_eq (hkeys _ hfiltered)) fun id => ?_
    rw [htold.replicated id rfl, Memory.rowOf_map (hkeys _ hfiltered),
      Memory.rowOf_filter (p := fun id => !lost name schema told id) hlost, hstored]
    cases lost name schema told id <;> rfl
  · intro hreturn
    refine hrows.perm_of_rowOf (htold.origin.map_of_key_eq (hkeys _ htold.origin)) fun id => ?_
    rw [htold.replicated id rfl, Memory.rowOf_map (hkeys _ htold.origin), hstored]
    cases hid : lost name schema told id with
    | false => rfl
    | true =>
      rcases lastWindow_mem_or_nil name schema told id with hmem | hnil
      · rw [lastEntry_flatten, (hreturn _ hmem).lastEntry hid]
        rfl
      · rw [lost, hnil] at hid
        cases hid

end

namespace Archive

open People in
/-- One person comes back within a window and is missing, one is deleted, and one has no name. -/
theorem perm_rows_people :
    let moves : List ArchiveMove :=
      [.change "people" (person 1 "Ada"), .change "people" (person 3 "Cy"), .sync,
        .delete "people" [.int 1], .change "people" (person 1 "Bob"), .delete "people" [.int 3],
        .change "people" [("id", .int 2)], .sync]
    let first : List FeedEntry :=
      [.changed ⟨"people", person 1 "Ada"⟩, .changed ⟨"people", person 3 "Cy"⟩]
    let second : List FeedEntry :=
      [.deleted ⟨"people", [.int 1]⟩, .changed ⟨"people", person 1 "Bob"⟩,
        .deleted ⟨"people", [.int 3]⟩, .changed ⟨"people", [("id", .int 2)]⟩]
    let s := run database moves
    Fed (cache database) "people" schema (rows · "people") [first, second] [] s ∧
      (s.replica.rows "people").Perm (((s.origin.rows "people").filter fun r =>
        !lost "people" schema [first, second] (r.key schema)).map (withDefaults schema)) ∧
      s.replica.rows "people" = [person 2 "nobody"] ∧
      s.origin.rows "people" = [person 1 "Bob", [("id", .int 2)]] := by
  intro moves first second s
  have h0 : Fed (cache database) "people" schema (rows · "people") [] [] (run database []) := .start rfl
  have h1 := fed_change h0 "people" (person 1 "Ada") (fun _ => by decide +kernel) (by decide +kernel)
  have h2 := fed_change h1 "people" (person 3 "Cy") (fun _ => by decide +kernel) (by decide +kernel)
  have h3 := fed_sync h2 rfl rfl (Outcome.eq_ok_of_toOption (by decide +kernel))
  have h4 := fed_delete h3 "people" [.int 1] (by decide +kernel)
  have h5 := fed_change h4 "people" (person 1 "Bob") (fun _ => by decide +kernel) (by decide +kernel)
  have h6 := fed_delete h5 "people" [.int 3] (by decide +kernel)
  have h7 := fed_change h6 "people" [("id", .int 2)] (fun _ => by decide +kernel) (by decide +kernel)
  have h8 := fed_sync h7 (by decide +kernel) (by decide +kernel)
    (Outcome.eq_ok_of_toOption (by decide +kernel))
  have h : Fed (cache database) "people" schema (rows · "people") [first, second] [] s := h8
  exact ⟨h, (h.perm_rows plainKeys rfl).1, by decide +kernel, by decide +kernel⟩

/-- If a sync succeeds after these moves, the replica has what the archive stores in the collection. -/
def Mirrored (db : Database) (name : String) (schema : CollectionSchema) (moves : List ArchiveMove) : Prop :=
  ((cache db).sync.runOn (run db moves)).1.toOption = some () →
    ((run db (moves ++ [.sync])).replica.rows name).Perm
      (((run db (moves ++ [.sync])).origin.rows name).map (withDefaults schema))

/-- One person is deleted and comes back before the next sync. -/
def returning : List ArchiveMove :=
  [.change "people" (People.person 1 "Ada"), .sync, .delete "people" [.int 1],
    .change "people" (People.person 1 "Bob")]

/-- Two people whose ids are the same as doubles. -/
def twins : List ArchiveMove :=
  [.change "people" (People.person 9007199254740992 "Ada"),
    .change "people" (People.person 9007199254740993 "Bob")]

/-- A key whose name is also a path through a relation. -/
def forked : CollectionSchema :=
  let number := (Column.ofType .number).withOperators [.equal, .oneOf]
  (((CollectionSchema.empty.withField "owner:id" (.column number.primaryKey)).withField "id"
    (.column number)).withField "owner_id" (.column number)).withField "owner"
    (.relation (.manyToOne "people" "owner_id" "id"))

def forkedDatabase : Database := ⟨People.database.schemas.insert "pets" forked, ∅⟩

def pets : List ArchiveMove :=
  [.change "people" (People.person 2 "Ada"),
    .change "pets" [("id", .int 1), ("owner:id", .int 1), ("owner_id", .int 2)], .sync,
    .delete "pets" [.int 1]]

/-- A replica may differ from an archive in other ways than the defaults of its columns: where a record is
deleted and comes back within one window, where ids are apart for the archive and the same as doubles, and
where a key reads as a path. -/
theorem not_mirrored :
    ¬ Mirrored People.database "people" People.schema returning ∧
      ¬ Mirrored People.database "people" People.schema twins ∧
      ¬ Mirrored forkedDatabase "pets" forked pets := by
  refine ⟨fun h => ?_, fun h => ?_, fun h => ?_⟩
  · exact absurd (h (by decide +kernel)) (by decide +kernel)
  · exact absurd (h (by decide +kernel)) (by decide +kernel)
  · exact absurd (h (by decide +kernel)) (by decide +kernel)

end Archive

end QueryLayer
