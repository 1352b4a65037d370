import QueryLayer.Cache.Archive
import QueryLayer.Proofs.Cache.Unsynced
import QueryLayer.Proofs.Memory.Keeping

/-! # Writes that come back

A cache hands what is written to its origin and does not look at it. It comes back through the feed, and
there the replica checks it, so that a record that does not fit makes a sync fail. Where calls pass the
checks that the replica makes, every sync succeeds: `Sound` says so of one state, and all calls keep it.
-/
namespace QueryLayer

open Memory (KeyedStore Fitting Storable withDefaults assignedKey? patched)

variable {ω : Type}

/-! ## Actions that run alone -/

namespace Action

variable {σ α β ι : Type} {I : σ → Prop} {P : α → Prop} {Q : β → Prop} {E : Error → Prop}
  {act : Action σ α}

/-- Run alone from a state with the invariant, the action ends in one, its answers satisfy `P` and its
failures `E`. -/
def Ends (I : σ → Prop) (P : α → Prop) (E : Error → Prop) (act : Action σ α) : Prop :=
  ∀ s, I s → I (act.runOn s).2 ∧ (∀ a, (act.runOn s).1 = .ok a → P a) ∧
    ∀ e, (act.runOn s).1 = .error e → E e

theorem Yields.ends (h : act.Yields I P E) : act.Ends I P E := fun _ hs => h.runOn hs

theorem ends_of_ok (h : ∀ s, I s → ∃ a, (act.runOn s).1 = .ok a ∧ P a ∧ I (act.runOn s).2) :
    act.Ends I P E := by
  intro s hs
  obtain ⟨a, ha, hanswer, ht⟩ := h s hs
  rw [ha]
  refine ⟨ht, fun b hb => ?_, fun e he => by cases he⟩
  cases hb
  exact hanswer

theorem Ends.bind {next : α → Action σ β} (h : act.Ends I P E)
    (hnext : ∀ a, P a → (next a).Ends I Q E) : (act >>= next).Ends I Q E := by
  intro s hs
  obtain ⟨ht, ha, he⟩ := h s hs
  rw [runOn_bind]
  rcases hrun : act.runOn s with ⟨e | a, t⟩
  · rw [hrun] at ht he
    refine ⟨ht, fun b hb => ?_, fun e' he' => ?_⟩
    · cases hb
    · cases he'
      exact he e rfl
  · rw [hrun] at ht ha
    exact hnext a (ha a rfl) t ht

theorem ends_pure {a : α} (h : P a) : (pure a : Action σ α).Ends I P E := (yields_pure h).ends

theorem Ends.map {f : α → β} (h : act.Ends I P E) : (f <$> act).Ends I (fun _ => True) E := by
  rw [map_eq_pure_bind]
  exact h.bind fun _ _ => ends_pure trivial

theorem ends_forM {f : ι → Action σ Unit} {xs : List ι}
    (h : ∀ x ∈ xs, (f x).Ends I (fun _ => True) E) : (xs.forM f).Ends I (fun _ => True) E := by
  induction xs with
  | nil => exact ends_pure trivial
  | cons x rest ih =>
    exact (h x List.mem_cons_self).bind fun _ _ => ih fun y hy => h y (List.mem_cons_of_mem _ hy)

theorem ends_mapM {f : ι → Action σ α} {xs : List ι} (h : ∀ x ∈ xs, (f x).Ends I (fun _ => True) E) :
    (xs.mapM f).Ends I (fun _ => True) E := by
  induction xs with
  | nil => exact ends_pure trivial
  | cons x rest ih =>
    rw [List.mapM_cons]
    refine (h x List.mem_cons_self).bind fun _ _ => ?_
    exact (ih fun y hy => h y (List.mem_cons_of_mem _ hy)).bind fun _ _ => ends_pure trivial

/-- An action that has no failures succeeds. -/
theorem Ends.exists_ok (h : act.Ends I P fun _ => False) {s : σ} (hs : I s) :
    ∃ a, (act.runOn s).1 = .ok a ∧ P a := by
  obtain ⟨-, hok, herror⟩ := h s hs
  cases hrun : (act.runOn s).1 with
  | error e => exact (herror e hrun).elim
  | ok a => exact ⟨a, rfl, hok a hrun⟩

end Action

/-! ## Origins that replay -/

namespace FeedEntry

/-- What the entry comes to at the replica. -/
def write : FeedEntry → ReplicaWrite
  | changed change => .put change.collection [change.record]
  | deleted deletion => .remove deletion.collection deletion.id

end FeedEntry

/-- What an origin stores, and what it has not told yet. -/
structure EchoView (ω : Type) where
  records : ω → String → List Record
  feed : ω → List FeedEntry

/-- How an origin may store a record: as it was given, or with an integer for the single number key. -/
inductive Memory.Given (schema : CollectionSchema) (record : Record) : Record → Prop
  | whole (keyed : ∀ pk, assignedKey? schema = some pk →
      ((withDefaults schema record).get? pk).getD .null ≠ .null) : Given schema record record
  | numbered {pk : String} (key : assignedKey? schema = some pk) (i : Int) :
    Given schema record (record.insert pk (.int i))

namespace EchoView

/-- The origin comes from one state to another, with nothing new in its feed and its records but this. -/
structure Adds (v : EchoView ω) (o : ω) (new : List FeedEntry) (o' : ω) : Prop where
  feed : ∀ entry ∈ v.feed o', entry ∈ v.feed o ∨ entry ∈ new
  records : ∀ name, ∀ r ∈ v.records o' name, r ∈ v.records o name ∨ .changed ⟨name, r⟩ ∈ new

/-- The origin accepts every write as given, and tells of the record or the deletion it comes to. -/
structure Echoes (v : EchoView ω) (db : Database) (origin : Origin ω) : Prop where
  listed : ∀ cursor o, ∃ set o', (origin.listChanges cursor).runOn o = (.ok set, o') ∧
    (∀ change ∈ set.changes, .changed change ∈ v.feed o) ∧
    (∀ deletion ∈ set.deletions, .deleted deletion ∈ v.feed o) ∧ v.Adds o [] o'
  created : ∀ name schema, db.schemas.get? name = some schema → ∀ record o, ∃ stored o',
    (origin.create name record).runOn o = (.ok stored, o') ∧ Memory.Given schema record stored ∧
      v.Adds o [.changed ⟨name, stored⟩] o'
  updated : ∀ name id patch o, ∃ o', (origin.update name id patch).runOn o = (.ok (), o') ∧
    (v.Adds o [] o' ∨ ∃ record ∈ v.records o name, v.Adds o [.changed ⟨name, patched patch record⟩] o')
  deleted : ∀ name id o, ∃ o', (origin.delete name id).runOn o = (.ok (), o') ∧
    v.Adds o [.deleted ⟨name, id⟩] o'

/-- The replica takes all that the origin stores and has to tell. -/
structure Ready (v : EchoView ω) (db : Database) (o : ω) : Prop where
  feed : ∀ entry ∈ v.feed o, entry.write.Acceptable db
  records : ∀ name schema, db.schemas.get? name = some schema → ∀ r ∈ v.records o name, Storable schema r

variable {v : EchoView ω} {db : Database} {o o' : ω} {name : String} {schema : CollectionSchema}
  {record : Record}

theorem acceptable_changed_iff (hs : db.schemas.get? name = some schema) :
    (FeedEntry.changed ⟨name, record⟩).write.Acceptable db ↔ Storable schema record :=
  (ReplicaWrite.acceptable_put_iff hs).trans List.forall_mem_singleton

theorem Ready.adds (h : v.Ready db o) {new : List FeedEntry} (hadds : v.Adds o new o')
    (hnew : ∀ entry ∈ new, entry.write.Acceptable db) : v.Ready db o' where
  feed entry hentry := (hadds.feed entry hentry).elim (h.feed entry) (hnew entry)
  records name schema hs r hr := (hadds.records name r hr).elim (h.records name schema hs r)
    fun hmem => (acceptable_changed_iff hs).1 (hnew _ hmem)

/-- What adds nothing to the feed leaves the origin ready. -/
theorem Ready.adds_nil (h : v.Ready db o) (hadds : v.Adds o [] o') : v.Ready db o' :=
  h.adds hadds (List.forall_mem_nil _)

end EchoView

/-! ## Checked calls -/

namespace Memory

variable {schema : CollectionSchema} {record patch stored : Record}

/-- With its defaults filled in the record fits, and it has all keys but the one that is assigned. -/
structure Admissible (schema : CollectionSchema) (record : Record) : Prop where
  fits : (withDefaults schema record).Fits schema
  keyed : ∀ pk ∈ schema.primaryKeys, assignedKey? schema = some pk ∨
    ((withDefaults schema record).get? pk).getD .null ≠ .null

/-- The patch fits, and takes no key away. -/
structure Sparing (schema : CollectionSchema) (patch : Record) : Prop where
  fits : patch.Fits schema
  keyed : ∀ e ∈ patch, e.1 ∈ schema.primaryKeys → e.2 ≠ .null

/-- What keys a record has once it is patched. -/
theorem get?_withDefaults_patched_ne_null {pk : String} (hpatch : ∀ v, (pk, v) ∈ patch → v ≠ .null)
    (h : ((withDefaults schema record).get? pk).getD .null ≠ .null) :
    ((withDefaults schema (patched patch record)).get? pk).getD .null ≠ .null := by
  rw [get?_withDefaults] at h ⊢
  rcases get?_patched_cases patch record pk with ⟨v, hv, hget⟩ | hget
  · rw [hget, Option.some_or]
    exact hpatch v hv
  · rwa [hget]

theorem Storable.patched (hpatch : Sparing schema patch) (h : Storable schema record) :
    Storable schema (Memory.patched patch record) where
  fits := fits_withDefaults_patched hpatch.fits h.fits
  present := by
    refine List.forall_mem_map.2 fun pk hpk => ?_
    exact get?_withDefaults_patched_ne_null (fun v hv => hpatch.keyed _ hv hpk)
      (h.present _ (List.mem_map_of_mem hpk))

/-- What an origin may store for an admissible record is storable. -/
theorem Admissible.storable (h : Admissible schema record) (hgiven : Given schema record stored) :
    Storable schema stored := by
  cases hgiven with
  | whole hkeyed =>
    exact ⟨h.fits, List.forall_mem_map.2 fun pk hpk => (h.keyed pk hpk).elim (hkeyed pk) id⟩
  | @numbered pk hkey i =>
    obtain ⟨c, hc, hv⟩ := checkValue_of_assignedKey hkey i
    have hpatch : Record.Fits schema [(pk, .int i)] := by
      intro e he
      rw [List.mem_singleton.1 he]
      exact ⟨c, hc, hv⟩
    refine ⟨fits_withDefaults_patched hpatch h.fits, List.forall_mem_map.2 fun other hother => ?_⟩
    have hother := h.keyed other hother
    rw [get?_withDefaults, Record.get?, Record.insert, Entries.get?_insert]
    by_cases hname : pk = other
    · rw [if_pos hname]
      exact Value.noConfusion
    · rw [if_neg hname]
      have hpresent := hother.resolve_left fun h => hname (Option.some.inj (hkey.symm.trans h))
      rwa [get?_withDefaults] at hpresent

theorem eq_of_assignedKey {pk other : String} (h : assignedKey? schema = some pk)
    (hother : other ∈ schema.primaryKeys) : other = pk := by
  rw [Memory.primaryKeys_of_assignedKey h] at hother
  exact List.mem_singleton.1 hother

theorem keyed_of_assign {records created : List Record} {ids : List CompositeId} {next : Int}
    (h : assign schema (assignedKey? schema) records ids next = .ok created) :
    ∀ r ∈ records, ∀ pk ∈ schema.primaryKeys,
      assignedKey? schema = some pk ∨ (r.get? pk).getD .null ≠ .null := by
  induction records generalizing ids next created with
  | nil => simp
  | cons record rest ih =>
    obtain ⟨first, later, others, hfirst, hpresent, -, hrest, -⟩ := assign_cons h
    refine List.forall_mem_cons.2 ⟨fun pk hpk => ?_, ih hrest⟩
    rcases hfirst with rfl | ⟨key, i, hkey, -⟩
    · exact Or.inr (hpresent _ (List.mem_map_of_mem hpk))
    · rw [eq_of_assignedKey hkey hpk]
      exact Or.inl hkey

/-- Whatever a memory source itself creates is admissible. -/
theorem admissible_of_creation {scope : Scope} {rows records created : List Record}
    (h : creation scope rows records = .ok created) : ∀ r ∈ records, Admissible scope.schema r := by
  obtain ⟨prepared, hprepared, hassign⟩ := Outcome.bind_eq_ok_iff.1 h
  obtain ⟨hfits, rfl⟩ := prepare_eq_ok_iff.1 hprepared
  exact fun r hr => ⟨hfits r hr, keyed_of_assign hassign _ (List.mem_map_of_mem hr)⟩

end Memory

namespace CollectionCall

/-- The replica would take what the call writes: its records, its patch, or the ids that it deletes. -/
def Checked (schema : CollectionSchema) : CollectionCall → Prop
  | create records => ∀ r ∈ records, Memory.Admissible schema r
  | update _ patch => Memory.Sparing schema patch
  | delete _ => schema.primaryKeys ≠ [] ∧ ∀ pk ∈ schema.primaryKeys, ∃ c, schema.ComparableKey pk c
  | _ => True

end CollectionCall

/-! ## Sound states -/

/-- Whatever the next sync brings is acceptable. -/
structure Sound (v : EchoView ω) (db : Database) (s : CacheState ω) : Prop where
  keyed : KeyedStore db s.replica
  fitting : Fitting db s.replica
  ready : v.Ready db s.origin

theorem ReplicaWrite.fitting_carry {db : Database} {store : Store} {write : ReplicaWrite}
    (h : write.Acceptable db) (hstore : Fitting db store) : Fitting db (write.carry db store) := by
  intro name schema hs r hr
  rw [rows_carry hs] at hr
  split at hr
  · next hname =>
    subst hname
    cases write with
    | put name records =>
      rcases Memory.mem_upsertAll hr with hr | hr
      · obtain ⟨record, hrecord, rfl⟩ := List.mem_map.1 hr
        exact ((acceptable_put_iff hs).1 h record hrecord).fits
      · exact hstore _ _ hs r hr
    | remove name id => exact hstore _ _ hs r (List.mem_of_mem_filter hr)
  · exact hstore name schema hs r hr

theorem ReplicaWrite.foldl_carry_keeps {db : Database} {writes : List ReplicaWrite} {store : Store}
    (h : ∀ write ∈ writes, write.Acceptable db) (hkeyed : KeyedStore db store) (hfitting : Fitting db store) :
    KeyedStore db (writes.foldl (carry db) store) ∧ Fitting db (writes.foldl (carry db) store) := by
  induction writes generalizing store with
  | nil => exact ⟨hkeyed, hfitting⟩
  | cons write rest ih =>
    have hwrite := h write List.mem_cons_self
    exact ih (fun w hw => h w (List.mem_cons_of_mem _ hw)) (keyedStore_carry hwrite hkeyed)
      (fitting_carry hwrite hfitting)

theorem ChangeSet.acceptable_writes {db : Database} {set : ChangeSet}
    (hchanges : ∀ change ∈ set.changes, (FeedEntry.changed change).write.Acceptable db)
    (hdeletions : ∀ deletion ∈ set.deletions, (FeedEntry.deleted deletion).write.Acceptable db) :
    ∀ write ∈ set.writes, write.Acceptable db := by
  intro write hwrite
  rcases writes_cases hwrite with ⟨first, hfirst, rfl⟩ | ⟨deletion, hdeletion, rfl⟩
  · obtain ⟨schema, hs, -⟩ := hchanges first hfirst
    refine (ReplicaWrite.acceptable_put_iff hs).2 (List.forall_mem_map.2 fun change hchange => ?_)
    obtain ⟨hmem, hname⟩ := List.mem_filter.1 hchange
    have hcollection : first.collection = change.collection := (of_decide_eq_true hname).symm
    exact (EchoView.acceptable_changed_iff (hcollection ▸ hs)).1 (hchanges change hmem)
  · exact hdeletions deletion hdeletion

namespace Cache

variable {c : Cache ω} {v : EchoView ω} {name : String} {schema : CollectionSchema} {s : CacheState ω}

/-- What succeeds at the origin and leaves it ready leaves the state sound. -/
theorem ends_zoom {α : Type} {act : Action ω α} (hact : ∀ o, v.Ready c.database o →
    ∃ a o', act.runOn o = (.ok a, o') ∧ v.Ready c.database o') {E : Error → Prop} :
    (act.zoom originLens).Ends (Sound v c.database) (fun _ => True) E := by
  refine Action.ends_of_ok fun s hs => ?_
  obtain ⟨a, o', hrun, hready⟩ := hact s.origin hs.ready
  have hget : act.runOn (originLens.get s) = (.ok a, o') := hrun
  rw [Action.runOn_zoom originLens_lawful, hget]
  exact ⟨a, rfl, trivial, hs.keyed, hs.fitting, hready⟩

/-- The ids of replicated rows are ids of records that could be stored. -/
theorem ends_targetIds (hplain : c.database.PlainKeys) (hs : c.database.schemas.get? name = some schema)
    (caller : Caller) (filter : Filter) : (targetIds (c.member name schema) caller filter).Ends
      (Sound v c.database) (fun ids => ∀ id ∈ ids, schema.StoredId id) fun _ => True := by
  intro s hsound
  have htargets : (targetIds (c.member name schema) caller filter).runOn s =
      (Memory.list c.database s.replica name schema (.ofFilter filter) (.primaryKeysOf schema) >>=
        fun rows => rows.mapM fun r => r.id schema, s) := by
    have hlist : ((c.member name schema).list caller (.ofFilter filter)
        (.primaryKeysOf (c.member name schema).schema)).runOn s =
      (Memory.list c.database s.replica name schema (.ofFilter filter) (.primaryKeysOf schema), s) := rfl
    refine (Action.runOn_bind _ _ _).trans ?_
    rw [hlist]
    cases Memory.list c.database s.replica name schema (.ofFilter filter) (.primaryKeysOf schema) <;> rfl
  rw [htargets]
  refine ⟨hsound, fun ids hids => ?_, fun _ _ => trivial⟩
  obtain ⟨rows, hrows, hids⟩ := Outcome.bind_eq_ok_iff.1 hids
  exact Memory.storedId_of_list (hplain name schema hs) (hsound.fitting name schema hs) hrows hids

section

variable (hechoes : v.Echoes c.database c.origin) {E : Error → Prop}
include hechoes

theorem ends_send (hs : c.database.schemas.get? name = some schema) {record : Record}
    (hrecord : Memory.Admissible schema record) :
    (c.send (c.member name schema) record).Ends (Sound v c.database) (fun _ => True) E := by
  refine ends_zoom fun o ho => ?_
  obtain ⟨stored, o', hcreate, hgiven, hadds⟩ := hechoes.created name schema hs record o
  refine ⟨stored, o', hcreate, ho.adds hadds fun entry hentry => ?_⟩
  rw [List.mem_singleton.1 hentry, EchoView.acceptable_changed_iff hs]
  exact hrecord.storable hgiven

theorem ends_originUpdate (hs : c.database.schemas.get? name = some schema) {patch : Record}
    (hpatch : Memory.Sparing schema patch) (id : CompositeId) :
    ((c.origin.update name id patch).zoom originLens).Ends (Sound v c.database) (fun _ => True) E := by
  refine ends_zoom fun o ho => ?_
  obtain ⟨o', hupdate, hadds⟩ := hechoes.updated name id patch o
  refine ⟨(), o', hupdate, ?_⟩
  rcases hadds with hadds | ⟨record, hrecord, hadds⟩
  · exact ho.adds_nil hadds
  · refine ho.adds hadds fun entry hentry => ?_
    rw [List.mem_singleton.1 hentry, EchoView.acceptable_changed_iff hs]
    exact (ho.records name schema hs record hrecord).patched hpatch

theorem ends_originDelete (hs : c.database.schemas.get? name = some schema) (hne : schema.primaryKeys ≠ [])
    (hkeys : ∀ pk ∈ schema.primaryKeys, ∃ c, schema.ComparableKey pk c) {id : CompositeId}
    (hid : schema.StoredId id) :
    ((c.origin.delete name id).zoom originLens).Ends (Sound v c.database) (fun _ => True) E := by
  refine ends_zoom fun o ho => ?_
  obtain ⟨o', hdelete, hadds⟩ := hechoes.deleted name id o
  refine ⟨(), o', hdelete, ho.adds hadds fun entry hentry => ?_⟩
  rw [List.mem_singleton.1 hentry]
  exact (ReplicaWrite.acceptable_remove_iff hs).2
    (Scope.exists_checked_matchIds (s := c.database.scope name schema) hne hkeys hid)

variable (hplain : c.database.PlainKeys)
include hplain

/-- A sync in a sound state succeeds and leaves it sound. -/
theorem ends_sync : c.sync.Ends (Sound v c.database) (fun _ => True) E := by
  refine Action.ends_of_ok fun s hs => ?_
  obtain ⟨set, o, hanswer, hchanges, hdeletions, hadds⟩ := hechoes.listed s.cursor s.origin
  obtain ⟨queue, hsync⟩ := exists_runOn_sync c s
  have hwrites := ChangeSet.acceptable_writes (fun change hmem => hs.ready.feed _ (hchanges change hmem))
    fun deletion hmem => hs.ready.feed _ (hdeletions deletion hmem)
  obtain ⟨hkeyed, hfitting⟩ := ReplicaWrite.foldl_carry_keeps hwrites hs.keyed hs.fitting
  rw [hsync, runFetch, hanswer]
  dsimp only
  rw [runWrites_of_acceptable hplain set.cursor hwrites (s := { s with origin := o }) hs.keyed]
  exact ⟨(), rfl, trivial, hkeyed, hfitting, hs.ready.adds_nil hadds⟩

theorem ends_ensureSynced (name : String) :
    (c.ensureSynced name).Ends (Sound v c.database) (fun _ => True) fun _ => True := by
  unfold ensureSynced
  split
  · exact ends_sync hechoes hplain
  · exact (Action.keeps_reading _).ends

/-- A checked call leaves a sound state sound, however it ends. -/
theorem ends_call (hs : c.database.schemas.get? name = some schema) (caller : Caller)
    {call : CollectionCall} (hcall : call.Checked schema) :
    (call.send (c.collection (c.member name schema)) caller).Ends (Sound v c.database) (fun _ => True)
      fun _ => True := by
  have hensured := ends_ensureSynced (c := c) hechoes hplain name
  cases call with
  | list filter projection => exact (hensured.bind fun _ _ => (Action.keeps_reading _).ends).map
  | create records =>
    refine Action.Ends.map (P := fun _ => True) (hensured.bind fun _ _ => ?_)
    refine (Action.ends_mapM fun record hrecord => ends_send hechoes hs (hcall record hrecord)).bind
      fun stored _ => ?_
    refine (ends_sync hechoes hplain).bind fun _ _ => ?_
    have hcondition : (liftM (Condition.matchRecords schema stored) : Action (CacheState ω) Condition).Ends
        (Sound v c.database) (fun _ => True) fun _ => True :=
      (Action.yields_ofExcept (fun _ _ => trivial) fun _ _ => trivial).ends
    exact hcondition.bind fun _ _ => (Action.keeps_reading _).ends
  | update filter patch =>
    refine Action.Ends.map (P := fun _ => True) (hensured.bind fun _ _ => ?_)
    refine (ends_targetIds hplain hs caller filter).bind fun ids _ => ?_
    exact Action.ends_forM fun id _ => ends_originUpdate hechoes hs hcall id
  | delete filter =>
    refine Action.Ends.map (P := fun _ => True) (hensured.bind fun _ _ => ?_)
    refine (ends_targetIds hplain hs caller filter).bind fun ids hids => ?_
    exact Action.ends_forM fun id hid => ends_originDelete hechoes hs hcall.1 hcall.2 (hids id hid)
  | aggregate filter aggregation limit =>
    exact (hensured.bind fun _ _ => (Action.keeps_reading _).ends).map
  | execute action values filter => exact fun s hs => ⟨hs, fun _ _ => trivial, fun _ _ => trivial⟩
  | getForm action values filter => exact fun s hs => ⟨hs, fun _ _ => trivial, fun _ _ => trivial⟩

end

end Cache

/-! ## Runs -/

/-- What is asked of a cache: to sync, or a call. -/
inductive CacheRequest where
  | sync
  | call (caller : Caller) (request : SourceCall)

namespace CacheRequest

def next (c : Cache ω) (s : CacheState ω) : CacheRequest → CacheState ω
  | sync => (c.sync.runOn s).2
  | call caller request => ((request.send c.source caller).runOn s).2

def run (c : Cache ω) (s : CacheState ω) (requests : List CacheRequest) : CacheState ω :=
  requests.foldl (next c) s

def Checked (db : Database) : CacheRequest → Prop
  | call _ (.on name request) => ∀ schema, db.schemas.get? name = some schema → request.Checked schema
  | _ => True

variable {c : Cache ω} {v : EchoView ω} {s : CacheState ω} (hechoes : v.Echoes c.database c.origin)
  (hplain : c.database.PlainKeys)
include hechoes hplain

theorem sound_next (h : Sound v c.database s) {request : CacheRequest}
    (hrequest : request.Checked c.database) : Sound v c.database (next c s request) := by
  match request with
  | .sync => exact (Cache.ends_sync (E := fun _ => True) hechoes hplain s h).1
  | .call caller (.renderChart name) =>
    rw [next, SourceCall.send, Action.runOn_map, Cache.runOn_renderChart]
    exact h
  | .call caller (.on name request) =>
    cases hcol : c.source.collection name with
    | error e =>
      rw [next, SourceCall.send, hcol]
      exact h
    | ok col =>
      obtain ⟨schema, hs, rfl⟩ := Cache.collection_source_eq_ok_iff.1 hcol
      rw [next, SourceCall.send_on hcol]
      exact (Cache.ends_call hechoes hplain hs caller (hrequest schema hs) s h).1

theorem sound_run (h : Sound v c.database s) {requests : List CacheRequest}
    (hrequests : ∀ request ∈ requests, request.Checked c.database) :
    Sound v c.database (run c s requests) := by
  induction requests generalizing s with
  | nil => exact h
  | cons request rest ih =>
    exact ih (sound_next hechoes hplain h (hrequests request List.mem_cons_self))
      fun r hr => hrequests r (List.mem_cons_of_mem _ hr)

/-- Where all calls are checked every sync succeeds, also the one in the middle of a creation, and a
list answers what the replica has after it. -/
theorem sync_ok_of_checked {replica : Store} {o : ω} (hkeyed : KeyedStore c.database replica)
    (hfitting : Fitting c.database replica) (hready : v.Ready c.database o) {requests : List CacheRequest}
    (hrequests : ∀ request ∈ requests, request.Checked c.database) :
    let s := run c (Cache.start replica o) requests
    (c.sync.runOn s).1 = .ok () ∧
      ∀ name schema, c.database.schemas.get? name = some schema →
        (∀ records : List Record, (∀ r ∈ records, Memory.Admissible schema r) →
          ((records.mapM (c.send (c.member name schema)) >>= fun _ => c.sync).runOn s).1 = .ok ()) ∧
        ∀ caller filter projection, c.options.syncOnRead = true →
          (((c.collection (c.member name schema)).list caller filter projection).runOn s).1 =
            Memory.list c.database (c.sync.runOn s).2.replica name schema filter projection := by
  intro s
  have hstart : Sound v c.database (Cache.start replica o) := ⟨hkeyed, hfitting, hready⟩
  have hsound : Sound v c.database s := sound_run hechoes hplain hstart hrequests
  obtain ⟨_, hsync, -⟩ := (Cache.ends_sync hechoes hplain).exists_ok hsound
  refine ⟨hsync, fun name schema hs => ⟨fun records hrecords => ?_, fun caller filter projection hread => ?_⟩⟩
  · have hwrites := Action.ends_mapM (E := fun _ => False) fun record hrecord =>
      Cache.ends_send hechoes hs (hrecords record hrecord)
    obtain ⟨_, hok, -⟩ := (hwrites.bind fun _ _ => Cache.ends_sync hechoes hplain).exists_ok hsound
    exact hok
  · have hlist : (c.collection (c.member name schema)).list caller filter projection =
        c.sync >>= fun _ => (c.member name schema).list caller filter projection := by
      change (c.ensureSynced name >>= _) = _
      rw [Cache.ensureSynced, hread]
      rfl
    rw [hlist, Action.runOn_bind]
    rcases hrun : c.sync.runOn s with ⟨e | _, t⟩
    · rw [hrun] at hsync
      cases hsync
    · rfl

end CacheRequest

/-! ## Archives replay -/

namespace Archive

def view : EchoView Archive := ⟨rows, fun a => a.changes.map .changed ++ a.deletions.map .deleted⟩

variable {db : Database}

theorem ready_empty (db : Database) : view.Ready db empty :=
  ⟨fun _ hmem => by simp [view, empty] at hmem, fun _ _ _ => List.forall_mem_nil _⟩

/-- What is stored anew is what the feed tells of, whatever id was given last. -/
theorem adds_pushChange (a : Archive) (lastId : Int) (collection : String) (record : Record) :
    view.Adds a [.changed ⟨collection, record⟩] (pushChange { a with lastId } collection record) where
  feed entry hentry := by
    simp only [view, pushChange, List.map_append, List.mem_append, List.map_cons, List.map_nil] at hentry ⊢
    tauto
  records name r hr := by
    simp only [view, rows, pushChange, Dict.get?_insert] at hr ⊢
    split at hr
    · next hname =>
      subst hname
      rcases List.mem_append.1 hr with hr | hr
      · exact Or.inl (List.mem_of_mem_filter hr)
      · rw [List.mem_singleton.1 hr]
        exact Or.inr (List.mem_singleton_self _)
    · exact Or.inl hr

theorem adds_pushDeletion (a : Archive) (collection : String) (id : CompositeId) :
    view.Adds a [.deleted ⟨collection, id⟩] (a.pushDeletion collection id) where
  feed entry hentry := by
    simp only [view, pushDeletion, List.map_append, List.mem_append, List.map_cons, List.map_nil] at hentry ⊢
    tauto
  records name r hr := by
    left
    simp only [view, rows, pushDeletion, Dict.modify, Dict.get?_mapEntries] at hr ⊢
    cases hstored : a.stored.get? name with
    | none => simp [hstored] at hr
    | some stored =>
      rw [hstored, Option.map_some, Option.getD_some] at hr
      split at hr
      · exact List.mem_of_mem_filter hr
      · exact hr

/-- An archive replays all writes, of records whose only key is the number that it assigns. -/
theorem echoes (hkeys : ∀ name schema, db.schemas.get? name = some schema →
    assignedKey? schema = some "id") : view.Echoes db origin where
  listed cursor a := by
    refine ⟨_, _, rfl, fun change hchange => ?_, fun deletion hdeletion => ?_, fun _ hmem => ?_,
      fun _ _ hr => Or.inl hr⟩
    · exact List.mem_append_left _ (List.mem_map_of_mem hchange)
    · exact List.mem_append_right _ (List.mem_map_of_mem hdeletion)
    · simp [view] at hmem
  created name schema hs record a :=
    ⟨_, _, rfl, .numbered (hkeys name schema hs) _, adds_pushChange a _ name _⟩
  updated name id patch a := by
    cases hfound : (a.rows name).find? (hasId id.head?) with
    | none => exact ⟨a, by simp [origin, update, hfound], Or.inl ⟨fun _ => Or.inl, fun _ _ => Or.inl⟩⟩
    | some record =>
      refine ⟨a.pushChange name (patched patch record), by simp [origin, update, hfound], Or.inr ?_⟩
      exact ⟨record, List.mem_of_find?_eq_some hfound, adds_pushChange a a.lastId name _⟩
  deleted name id a := ⟨_, rfl, adds_pushDeletion a name id⟩

end Archive

namespace CacheRequest

section

open People

/-- A call on the people. -/
def people (request : CollectionCall) : CacheRequest := .call default (.on "people" request)

def withId (id : Int) : Filter := .ofCondition (.leaf ⟨"id", .equal, .int id⟩)

/-- One person is stored from the start. Another one is created and renamed, and the first is deleted. -/
def turnover : List CacheRequest :=
  [people (.create [[("name", .text "Ada")]]), people (.update (withId 8) [("name", .text "Bob")]),
    people (.delete (withId 7))]

theorem checked_turnover : ∀ request ∈ turnover, request.Checked database := by
  have hcalls : ∀ call : CollectionCall, call.Checked schema → (people call).Checked database := by
    intro call hcall other hother
    obtain ⟨-, rfl⟩ := get?_schemas hother
    exact hcall
  have hfits : ∀ record : Record,
      ((database.scope "people" schema).checkRecord record).toOption = some () → record.Fits schema :=
    fun record h => Scope.checkRecord_eq_ok_iff.1 (Outcome.eq_ok_of_toOption h)
  intro request hrequest
  simp only [turnover, List.mem_cons, List.not_mem_nil, or_false] at hrequest
  rcases hrequest with rfl | rfl | rfl
  · refine hcalls _ fun r hr => ?_
    rw [List.mem_singleton.1 hr]
    exact ⟨hfits _ (by decide +kernel), by decide +kernel⟩
  · exact hcalls _ ⟨hfits _ (by decide +kernel), by decide +kernel⟩
  · refine hcalls _ ⟨by decide, fun pk hpk => ?_⟩
    rw [primaryKeys_schema] at hpk
    rw [List.mem_singleton.1 hpk]
    exact ⟨_, rfl, by decide, by decide, by decide⟩

theorem ready_person (id : Int) (name : String) :
    Archive.view.Ready database (Archive.empty.pushChange "people" (person id name)) := by
  refine (Archive.ready_empty database).adds (Archive.adds_pushChange Archive.empty 0 _ _) fun entry hentry => ?_
  rw [List.mem_singleton.1 hentry, EchoView.acceptable_changed_iff rfl]
  have hfits : ((database.scope "people" schema).checkRecord (person id name)).toOption = some () := rfl
  have hdefaults : withDefaults schema (person id name) = person id name := rfl
  rw [← hdefaults] at hfits
  refine ⟨Scope.checkRecord_eq_ok_iff.1 (Outcome.eq_ok_of_toOption hfits), ?_⟩
  rw [hdefaults, Record.key, primaryKeys_schema]
  exact List.forall_mem_singleton.2 Value.noConfusion

theorem sync_ok_turnover :
    let s := run (Archive.cache database)
      (Cache.start database.emptyStore (Archive.empty.pushChange "people" (person 7 "Cy"))) turnover
    ((Archive.cache database).sync.runOn s).1 = .ok () ∧
      ((Archive.cache database).sync.runOn s).2.replica.rows "people" = [person 8 "Bob"] := by
  have hechoes : Archive.view.Echoes database Archive.origin :=
    Archive.echoes fun name other hother => by
      obtain ⟨-, rfl⟩ := get?_schemas hother
      decide
  have hsync := sync_ok_of_checked (c := Archive.cache database) hechoes plainKeys
    (Memory.keyedStore_emptyStore database) Memory.Reachable.emptyStore.fitting (ready_person 7 "Cy")
    checked_turnover
  exact ⟨hsync.1, by decide +kernel⟩

end

/-- Whatever was asked of a cache over an empty archive, the next sync succeeds. -/
def AlwaysSyncs (db : Database) : Prop := ∀ requests : List CacheRequest,
  ((Archive.cache db).sync.runOn (run (Archive.cache db) (Cache.start db.emptyStore Archive.empty)
    requests)).1.toOption = some ()

/-- A key without operators. -/
def silent : Database :=
  ⟨Dict.empty.insert "people" (CollectionSchema.empty.withField "id"
    (.column (Column.ofType .number).primaryKey)), ∅⟩

/-- A patch with a value of another type, and a deletion where the key cannot be compared, are accepted
and make the next sync fail. -/
theorem not_alwaysSyncs : ¬ AlwaysSyncs People.database ∧ ¬ AlwaysSyncs silent := by
  refine ⟨fun h => ?_, fun h => ?_⟩
  · exact absurd (h [people (.create [[]]), people (.update .empty [("name", .int 5)])]) (by decide +kernel)
  · exact absurd (h [people (.create [[]]), people (.delete .empty)]) (by decide +kernel)

end CacheRequest

end QueryLayer
