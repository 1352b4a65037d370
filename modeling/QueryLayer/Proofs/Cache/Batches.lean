import QueryLayer.Cache.Feed
import QueryLayer.Proofs.Cache.Feeding
import QueryLayer.Proofs.Cache.SyncLog
import QueryLayer.Proofs.Memory.Rows

/-! # Change sets applied in batches

A sync regroups the changes of a set by collection and puts each group in at once, before the deletions.
Writes to different collections do not meet, so that this comes to the same as the changes one at a time,
in the order of the feed, and then the deletions one at a time: `foldl_carry_writes`. What is left of each
collection is read off that, id by id and in order.
-/
namespace QueryLayer

open Memory (KeyedStore Keyed rowOf lastOf upsert upsertAll withDefaults hasId)

namespace Database

/-- No name of a primary key is a path through a relation. -/
def PlainKeys (db : Database) : Prop :=
  ∀ name schema, db.schemas.get? name = some schema → ∀ pk ∈ schema.primaryKeys, Path.Plain pk

/-- Changes the rows of a collection, if there is one of the name. -/
def alter (db : Database) (name : String) (f : CollectionSchema → List Record → List Record)
    (store : Store) : Store :=
  match db.schemas.get? name with
  | some schema => store.setRows name (f schema (store.rows name))
  | none => store

variable {db : Database} {name : String} {schema : CollectionSchema} {store : Store}

theorem alter_of_some (hs : db.schemas.get? name = some schema)
    (f : CollectionSchema → List Record → List Record) (store : Store) :
    db.alter name f store = store.setRows name (f schema (store.rows name)) := by
  rw [alter, hs]

theorem get?_alter_of_ne {other : String} (h : other ≠ name)
    (f : CollectionSchema → List Record → List Record) (store : Store) :
    (db.alter other f store).get? name = store.get? name := by
  unfold alter
  split
  · exact Dict.get?_insert_of_ne _ h _
  · rfl

section

variable {α : Type} (target : α → String) (f : α → CollectionSchema → List Record → List Record)

/-- Of many changes those of a collection come to its rows, one after the other. -/
theorem get?_foldl_alter (hs : db.schemas.get? name = some schema) (xs : List α) (store : Store) :
    (xs.foldl (fun store x => db.alter (target x) (f x) store) store).get? name =
      if xs.filter (target · = name) = [] then store.get? name
      else some ((xs.filter (target · = name)).foldl (fun rows x => f x schema rows) (store.rows name)) := by
  induction xs generalizing store with
  | nil => rfl
  | cons x rest ih =>
    rw [List.foldl_cons, ih]
    by_cases hname : target x = name
    · rw [List.filter_cons_of_pos (by simpa using hname), if_neg (List.cons_ne_nil _ _), List.foldl_cons,
        hname, alter_of_some hs, Store.rows_setRows_self]
      split
      · next hnil =>
        rw [hnil, List.foldl_nil]
        exact Dict.get?_insert_self ..
      · rfl
    · rw [List.filter_cons_of_neg (by simpa using hname), Store.rows, get?_alter_of_ne hname]
      rfl

theorem get?_foldl_alter_of_none (hs : db.schemas.get? name = none) (xs : List α) (store : Store) :
    (xs.foldl (fun store x => db.alter (target x) (f x) store) store).get? name = store.get? name := by
  induction xs generalizing store with
  | nil => rfl
  | cons x rest ih =>
    rw [List.foldl_cons, ih]
    by_cases hname : target x = name
    · rw [alter, hname, hs]
    · exact get?_alter_of_ne hname _ _

end

/-- What many changes make of the rows of a collection. -/
theorem rows_foldl_alter {α : Type} (target : α → String)
    (f : α → CollectionSchema → List Record → List Record) (hs : db.schemas.get? name = some schema)
    (xs : List α) (store : Store) :
    (xs.foldl (fun store x => db.alter (target x) (f x) store) store).rows name =
      (xs.filter (target · = name)).foldl (fun rows x => f x schema rows) (store.rows name) := by
  rw [Store.rows, get?_foldl_alter target f hs]
  split
  · next hnil =>
    rw [hnil]
    rfl
  · rfl

end Database

/-! ## One write -/

namespace ReplicaWrite

def collection : ReplicaWrite → String
  | put collection _ => collection
  | remove collection _ => collection

/-- What a write makes of rows, where it is carried out. -/
def effect : ReplicaWrite → CollectionSchema → List Record → List Record
  | put _ records, schema, rows => upsertAll schema (records.map (withDefaults schema)) rows
  | remove _ id, schema, rows => rows.filter fun r => !sameId id (r.key schema)

def carry (db : Database) (store : Store) (write : ReplicaWrite) : Store :=
  db.alter write.collection write.effect store

/-- The replica takes the write: its records are storable, and its id is one that the keys of the
collection can be compared with. -/
def Acceptable (db : Database) : ReplicaWrite → Prop
  | put name records => ∃ schema, db.schemas.get? name = some schema ∧
    ∀ r ∈ records, Memory.Storable schema r
  | remove name id => ∃ schema t, db.schemas.get? name = some schema ∧
    Condition.matchIds schema [id] = .ok t ∧ (db.scope name schema).checkCondition t = .ok ()

variable {db : Database} {store : Store} {write : ReplicaWrite}

theorem acceptable_put_iff {name : String} {schema : CollectionSchema} {records : List Record}
    (hs : db.schemas.get? name = some schema) :
    (put name records).Acceptable db ↔ ∀ r ∈ records, Memory.Storable schema r := by
  constructor
  · rintro ⟨other, hother, hready⟩
    obtain rfl : other = schema := Option.some.inj (hother.symm.trans hs)
    exact hready
  · exact fun hready => ⟨schema, hs, hready⟩

theorem acceptable_remove_iff {name : String} {schema : CollectionSchema} {id : CompositeId}
    (hs : db.schemas.get? name = some schema) : (remove name id).Acceptable db ↔
      ∃ t, Condition.matchIds schema [id] = .ok t ∧ (db.scope name schema).checkCondition t = .ok () := by
  constructor
  · rintro ⟨other, t, hother, ht, hcheck⟩
    obtain rfl : other = schema := Option.some.inj (hother.symm.trans hs)
    exact ⟨t, ht, hcheck⟩
  · rintro ⟨t, ht, hcheck⟩
    exact ⟨schema, t, hs, ht, hcheck⟩

/-- The rows that a write leaves in its collection, if it succeeds. -/
def rows (db : Database) (store : Store) (schema : CollectionSchema) :
    ReplicaWrite → Except Error (List Record)
  | put name records => Memory.replaced (db.scope name schema) (store.rows name) records
  | remove name id => do
    let target ← Condition.matchIds schema [id]
    Memory.remaining db store name schema (.ofCondition target)

/-- A write changes the rows of its collection, or it fails and changes nothing. -/
theorem runOn_apply (db : Database) (store : Store) (write : ReplicaWrite) :
    (write.apply db).runOn store =
      match db.schemas.get? write.collection with
      | some schema =>
        match write.rows db store schema with
        | .ok rows => (.ok (), store.setRows write.collection rows)
        | .error e => (.error e, store)
      | none => (.error (.setup (.collectionNotFound write.collection)), store) := by
  cases write with
  | put name records =>
    simp only [apply, Memory.replaceRecords, collection, rows]
    cases db.schemas.get? name with
    | none => rfl
    | some schema =>
      simp only [Memory.runOn_writing]
      cases Memory.replaced (db.scope name schema) (store.rows name) records <;> rfl
  | remove name id =>
    simp only [apply, Database.removeId, collection, rows]
    cases db.schemas.get? name with
    | none => rfl
    | some schema =>
      simp only [Action.runOn_bind, Action.liftM_eq_ofExcept, Action.runOn_ofExcept]
      cases Condition.matchIds schema [id] with
      | error e => rfl
      | ok t =>
        simp only [Memory.delete, Memory.runOn_writing, Outcome.ok_bind]
        cases Memory.remaining db store name schema (.ofCondition t) <;> rfl

theorem rows_of_acceptable {schema : CollectionSchema} (hs : db.schemas.get? write.collection = some schema)
    (hplain : ∀ pk ∈ schema.primaryKeys, Path.Plain pk)
    (hrows : Keyed schema (store.rows write.collection)) (h : write.Acceptable db) :
    write.rows db store schema = .ok (write.effect schema (store.rows write.collection)) := by
  cases write with
  | put name records => exact Memory.replaced_eq_ok_iff.2 ⟨(acceptable_put_iff hs).1 h, rfl⟩
  | remove name id =>
    obtain ⟨t, ht, hcheck⟩ := (acceptable_remove_iff hs).1 h
    exact Outcome.bind_eq_ok_iff.2 ⟨t, ht, Memory.remaining_of_matchIds hplain ht hcheck hrows⟩

theorem acceptable_of_rows {schema : CollectionSchema} {rows : List Record}
    (hs : db.schemas.get? write.collection = some schema) (h : write.rows db store schema = .ok rows) :
    write.Acceptable db := by
  cases write with
  | put name records => exact (acceptable_put_iff hs).2 (Memory.replaced_eq_ok_iff.1 h).1
  | remove name id =>
    obtain ⟨t, ht, hrows⟩ := Outcome.bind_eq_ok_iff.1 h
    exact (acceptable_remove_iff hs).2 ⟨t, ht, (Outcome.seq_eq_ok_iff.1 hrows).1⟩

theorem get?_of_acceptable (h : write.Acceptable db) :
    ∃ schema, db.schemas.get? write.collection = some schema := by
  cases write with
  | put name records =>
    obtain ⟨schema, hs, -⟩ := h
    exact ⟨schema, hs⟩
  | remove name id =>
    obtain ⟨schema, -, hs, -⟩ := h
    exact ⟨schema, hs⟩

theorem runOn_apply_of_acceptable (hplain : db.PlainKeys) (hstore : KeyedStore db store)
    (h : write.Acceptable db) : (write.apply db).runOn store = (.ok (), write.carry db store) := by
  obtain ⟨schema, hs⟩ := get?_of_acceptable h
  rw [runOn_apply, carry, Database.alter_of_some hs]
  simp only [hs, rows_of_acceptable hs (hplain _ _ hs) (hstore _ _ hs) h]

theorem acceptable_of_runOn_apply (h : ((write.apply db).runOn store).1 = .ok ()) :
    write.Acceptable db := by
  rw [runOn_apply] at h
  cases hs : db.schemas.get? write.collection with
  | none => simp [hs] at h
  | some schema =>
    simp only [hs] at h
    cases hrows : write.rows db store schema with
    | error e => simp [hrows] at h
    | ok rows => exact acceptable_of_rows hs hrows

theorem runOn_apply_of_error {e : Error} (h : ((write.apply db).runOn store).1 = .error e) :
    ((write.apply db).runOn store).2 = store := by
  rw [runOn_apply] at h ⊢
  cases hs : db.schemas.get? write.collection with
  | none => rfl
  | some schema =>
    simp only [hs] at h ⊢
    cases hrows : write.rows db store schema with
    | error e => rfl
    | ok rows => simp [hrows] at h

theorem keyed_effect {schema : CollectionSchema} {rows : List Record} (h : write.Acceptable db)
    (hs : db.schemas.get? write.collection = some schema) (hrows : Keyed schema rows) :
    Keyed schema (write.effect schema rows) := by
  cases write with
  | put name records =>
    exact Memory.keyed_upsertAll (Memory.present_withDefaults ((acceptable_put_iff hs).1 h)) hrows
  | remove name id => exact hrows.filter _

/-- A write has its effect on the collection that it names. -/
theorem rows_carry {name : String} {schema : CollectionSchema} (hs : db.schemas.get? name = some schema) :
    (write.carry db store).rows name =
      if write.collection = name then write.effect schema (store.rows name) else store.rows name := by
  split
  · next hname =>
    subst hname
    rw [carry, Database.alter_of_some hs, Store.rows_setRows_self]
  · next hname =>
    rw [carry, Store.rows, Database.get?_alter_of_ne hname]
    rfl

theorem keyedStore_carry (h : write.Acceptable db) (hstore : KeyedStore db store) :
    KeyedStore db (write.carry db store) := by
  intro name schema hs
  rw [rows_carry hs]
  split
  · next hname =>
    subst hname
    exact keyed_effect h hs (hstore _ schema hs)
  · exact hstore name schema hs

end ReplicaWrite

/-! ## Regrouping -/

/-- The record takes the place of the one with its id, or comes last, with the defaults of the columns
that it leaves out. -/
def RecordChange.applyTo (db : Database) (store : Store) (change : RecordChange) : Store :=
  db.alter change.collection (fun schema rows =>
    let record := withDefaults schema change.record
    upsert schema record (record.key schema) rows) store

def RecordDeletion.applyTo (db : Database) (store : Store) (deletion : RecordDeletion) : Store :=
  db.alter deletion.collection
    (fun schema rows => rows.filter fun r => !sameId deletion.id (r.key schema)) store

namespace ChangeSet

/-- The changes one at a time, in order, and then the deletions one at a time. -/
def applyTo (db : Database) (set : ChangeSet) (store : Store) : Store :=
  set.deletions.foldl (RecordDeletion.applyTo db) (set.changes.foldl (RecordChange.applyTo db) store)

def deletedIds (set : ChangeSet) (name : String) : List CompositeId :=
  (set.deletions.filter fun deletion => deletion.collection = name).map RecordDeletion.id

/-- The last record of a set with an id, with its defaults filled in. -/
def latest? (set : ChangeSet) (schema : CollectionSchema) (name : String) (id : CompositeId) :
    Option Record :=
  lastOf schema ((set.recordsOf name).map (withDefaults schema)) id

variable {db : Database} {set : ChangeSet} {name : String} {schema : CollectionSchema} {store : Store}

theorem isSome_get?_foldl_collect (changes : List RecordChange) (start : Dict (List Record))
    (name : String) : ((changes.foldl RecordChange.collect start).get? name).isSome ↔
      (start.get? name).isSome ∨ changes.filter (fun change => change.collection = name) ≠ [] := by
  induction changes generalizing start with
  | nil => simp
  | cons change rest ih =>
    rw [List.foldl_cons, ih, RecordChange.collect, Dict.get?_insert]
    by_cases hname : change.collection = name <;> simp [hname]

/-- The batch of a collection. -/
theorem get?_foldl_collect (set : ChangeSet) (name : String) :
    (set.changes.foldl RecordChange.collect ∅).get? name =
      if set.changes.filter (fun change => change.collection = name) = [] then none
      else some (set.recordsOf name) := by
  have hsome := isSome_get?_foldl_collect set.changes ∅ name
  have hrecords := getD_foldl_collect set.changes ∅ name
  rw [Dict.get?_empty, Option.isSome_none] at hsome
  rw [Dict.get?_empty, Option.getD_none, List.nil_append] at hrecords
  cases hget : (set.changes.foldl RecordChange.collect ∅).get? name with
  | none =>
    rw [hget] at hsome
    rw [if_pos (by simpa using hsome)]
  | some records =>
    rw [hget] at hrecords hsome
    rw [if_neg (by simpa using hsome)]
    exact congrArg some hrecords

/-- Each write is the batch of a collection with changes, or a deletion. -/
theorem writes_cases {write : ReplicaWrite} (h : write ∈ set.writes) :
    (∃ change ∈ set.changes, write = .put change.collection (set.recordsOf change.collection)) ∨
      ∃ deletion ∈ set.deletions, write = .remove deletion.collection deletion.id := by
  rcases List.mem_append.1 h with h | h
  · left
    obtain ⟨⟨name, records⟩, hbatch, rfl⟩ := List.mem_map.1 h
    have hget := Dict.get?_eq_some_iff.2 hbatch
    rw [get?_foldl_collect] at hget
    split at hget
    · cases hget
    · next hne =>
      cases hget
      obtain ⟨change, hchange⟩ := List.exists_mem_of_ne_nil _ hne
      obtain ⟨hmem, hname⟩ := List.mem_filter.1 hchange
      exact ⟨change, hmem, by rw [of_decide_eq_true hname]⟩
  · right
    obtain ⟨deletion, hdeletion, rfl⟩ := List.mem_map.1 h
    exact ⟨deletion, hdeletion, rfl⟩

theorem upsertAll_recordsOf (set : ChangeSet) (schema : CollectionSchema) (name : String)
    (rows : List Record) : upsertAll schema ((set.recordsOf name).map (withDefaults schema)) rows =
      (set.changes.filter fun change => change.collection = name).foldl (fun rows change =>
        upsert schema (withDefaults schema change.record)
          ((withDefaults schema change.record).key schema) rows) rows := by
  rw [recordsOf, upsertAll, List.foldl_map, List.foldl_map]

/-- Batches of changes come to the same as the changes themselves. -/
theorem foldl_carry_puts (db : Database) (set : ChangeSet) (store : Store) :
    ((set.changes.foldl RecordChange.collect ∅).entries.map fun e => .put e.1 e.2).foldl
        (ReplicaWrite.carry db) store = set.changes.foldl (RecordChange.applyTo db) store := by
  rw [List.foldl_map]
  refine Dict.ext fun name => ?_
  have hbatches := Entries.filter_name (set.changes.foldl RecordChange.collect ∅).sorted.nodup name
  change _ = (((set.changes.foldl RecordChange.collect ∅).get? name).map _).toList at hbatches
  cases hs : db.schemas.get? name with
  | none =>
    exact (Database.get?_foldl_alter_of_none Prod.fst _ hs _ store).trans
      (Database.get?_foldl_alter_of_none RecordChange.collection _ hs _ store).symm
  | some schema =>
    refine (Database.get?_foldl_alter Prod.fst (fun (e : String × List Record) schema rows =>
      upsertAll schema (e.2.map (withDefaults schema)) rows) hs _ store).trans ?_
    refine Eq.trans ?_ (Database.get?_foldl_alter RecordChange.collection _ hs _ store).symm
    rw [hbatches, get?_foldl_collect, ← upsertAll_recordsOf]
    split <;> rfl

/-- Regrouping the changes of a set cannot be seen in what they come to. -/
theorem foldl_carry_writes (db : Database) (set : ChangeSet) (store : Store) :
    set.writes.foldl (ReplicaWrite.carry db) store = set.applyTo db store := by
  rw [writes, List.foldl_append, foldl_carry_puts, List.foldl_map]
  rfl

/-- What a set makes of the rows of a collection. -/
theorem rows_applyTo (hs : db.schemas.get? name = some schema) (set : ChangeSet) (store : Store) :
    (set.applyTo db store).rows name =
      (upsertAll schema ((set.recordsOf name).map (withDefaults schema)) (store.rows name)).filter
        fun r => !hasId (set.deletedIds name) (r.key schema) := by
  have hchanges : (set.changes.foldl (RecordChange.applyTo db) store).rows name =
      upsertAll schema ((set.recordsOf name).map (withDefaults schema)) (store.rows name) :=
    (Database.rows_foldl_alter RecordChange.collection _ hs set.changes store).trans
      (upsertAll_recordsOf set schema name (store.rows name)).symm
  have hdeletions : (set.applyTo db store).rows name =
      (set.deletions.filter fun deletion => deletion.collection = name).foldl
        (fun rows deletion => rows.filter fun r => !sameId deletion.id (r.key schema))
        ((set.changes.foldl (RecordChange.applyTo db) store).rows name) :=
    Database.rows_foldl_alter RecordDeletion.collection _ hs set.deletions _
  rw [hdeletions, hchanges, ← Memory.foldl_filter_ids, deletedIds, List.foldl_map]

/-- What is left of the rows of a collection after a set: a deleted id is absent, another one has its
last record in the set, if there is one, and else the record that it had. What stays keeps its place, and
new ids come behind. -/
structure Settles (set : ChangeSet) (schema : CollectionSchema) (name : String)
    (before after : List Record) : Prop where
  lookup : ∀ id, rowOf schema after id =
    if hasId (set.deletedIds name) id = true then none
    else (set.latest? schema name id).or (rowOf schema before id)
  order : ∃ added, after =
      ((before.filter fun r => !hasId (set.deletedIds name) (r.key schema)).map fun r =>
        (set.latest? schema name (r.key schema)).getD r) ++ added ∧
    ∀ a ∈ added, rowOf schema before (a.key schema) = none
  keyed : Keyed schema after

theorem storable_of_acceptable (h : ∀ write ∈ set.writes, write.Acceptable db)
    (hs : db.schemas.get? name = some schema) :
    ∀ r ∈ set.recordsOf name, Memory.Storable schema r := by
  intro r hr
  obtain ⟨change, hchange, rfl⟩ := List.mem_map.1 hr
  obtain ⟨hmem, hname⟩ := List.mem_filter.1 hchange
  obtain rfl : change.collection = name := of_decide_eq_true hname
  exact (ReplicaWrite.acceptable_put_iff hs).1 (h _ (put_mem_writes hmem)) _ hr

theorem settles_applyTo (h : ∀ write ∈ set.writes, write.Acceptable db)
    (hs : db.schemas.get? name = some schema) (hrows : Keyed schema (store.rows name)) :
    set.Settles schema name (store.rows name) ((set.applyTo db store).rows name) := by
  have hrecords := Memory.present_withDefaults (storable_of_acceptable h hs)
  rw [rows_applyTo hs]
  refine ⟨fun id => ?_, ?_, (Memory.keyed_upsertAll hrecords hrows).filter _⟩
  · rw [Memory.rowOf_filter_hasId, Memory.rowOf_upsertAll hrecords hrows]
    rfl
  · obtain ⟨added, heq, hadded⟩ := Memory.exists_upsertAll_eq hrecords hrows
    have hstays : ∀ r : Record, hasId (set.deletedIds name)
        (((set.latest? schema name (r.key schema)).getD r).key schema) =
          hasId (set.deletedIds name) (r.key schema) := by
      intro r
      cases hlatest : set.latest? schema name (r.key schema) with
      | none => rfl
      | some last => exact Memory.hasId_congr (Memory.sameId_of_rowOf hlatest)
    refine ⟨added.filter fun r => !hasId (set.deletedIds name) (r.key schema), ?_, fun a ha => ?_⟩
    · rw [heq, List.filter_append, List.filter_map]
      refine congrArg (List.map _ · ++ _) (List.filter_congr fun r _ => ?_)
      exact congrArg (!·) (hstays r)
    · exact hadded a (List.mem_of_mem_filter ha)

end ChangeSet

/-! ## People -/

namespace People

def schema : CollectionSchema :=
  let id := Column.primaryKey ((Column.ofType .number).withOperators [.equal, .oneOf])
  let name := (Column.ofType .string).withDefault (.text "nobody")
  (CollectionSchema.empty.withField "id" (.column id)).withField "name" (.column name)

def database : Database := ⟨Dict.empty.insert "people" schema, ∅⟩

theorem get?_schemas {name : String} {s : CollectionSchema} (h : database.schemas.get? name = some s) :
    name = "people" ∧ s = schema := by
  have hmem := List.mem_singleton.1 (Dict.get?_eq_some_iff.1 h)
  exact Prod.mk.inj hmem

theorem primaryKeys_schema : schema.primaryKeys = ["id"] := by decide

theorem plainKeys : database.PlainKeys := by
  intro name s hs pk hpk
  obtain ⟨-, rfl⟩ := get?_schemas hs
  rw [primaryKeys_schema] at hpk
  cases List.mem_singleton.1 hpk
  decide

def person (id : Int) (name : String) : Record := [("id", .int id), ("name", .text name)]

def three : List Memory.Call :=
  [.create default "people" [person 1 "Ada", person 2 "Bo", person 3 "Cy"]]

theorem keyedStore_three : KeyedStore database (Memory.run database three) := by
  refine Memory.keyedStore_run_of_sparesKeys fun call hcall => ?_
  rw [List.mem_singleton.1 hcall]
  trivial

def news : ChangeSet where
  cursor := "c1"
  changes :=
    [⟨"people", person 2 "Bob"⟩, ⟨"people", [("id", .int 4)]⟩, ⟨"people", person 2 "Bert"⟩]
  deletions := [⟨"people", [.int 1]⟩]

def cache : Cache Feed := ⟨database, Feed.origin false, .default⟩

/-- The news is still to come. -/
def behind : CacheState Feed :=
  Cache.start (Memory.run database three) ((Feed.start 9 false).push news.changes news.deletions none)

end People

/-! ## Syncs -/

namespace Cache

open People (person)

variable {ω : Type} {c : Cache ω} {s t : CacheState ω}

theorem runWrites_of_acceptable (hplain : c.database.PlainKeys) (cursor : String)
    {writes : List ReplicaWrite} (h : ∀ write ∈ writes, write.Acceptable c.database)
    (hs : KeyedStore c.database s.replica) :
    c.runWrites cursor writes s =
      (.ok (), { s with
        replica := writes.foldl (ReplicaWrite.carry c.database) s.replica
        cursor := some cursor
        generation := s.generation + 1
        synced := true }) := by
  induction writes generalizing s with
  | nil => rfl
  | cons write rest ih =>
    have hwrite := h write List.mem_cons_self
    rw [runWrites, ReplicaWrite.runOn_apply_of_acceptable hplain hs hwrite]
    exact ih (s := { s with replica := write.carry c.database s.replica })
      (fun w hw => h w (List.mem_cons_of_mem _ hw)) (ReplicaWrite.keyedStore_carry hwrite hs)

theorem acceptable_of_runWrites {cursor : String} {writes : List ReplicaWrite}
    (h : (c.runWrites cursor writes s).1 = .ok ()) : ∀ write ∈ writes, write.Acceptable c.database := by
  induction writes generalizing s with
  | nil => simp
  | cons write rest ih =>
    rw [runWrites] at h
    rcases happly : (write.apply c.database).runOn s.replica with ⟨e | _, replica⟩
    · rw [happly] at h
      cases h
    · rw [happly] at h
      refine List.forall_mem_cons.2 ⟨?_, ih h⟩
      exact ReplicaWrite.acceptable_of_runOn_apply (congrArg Prod.fst happly)

/-- A sync fetches and applies, whoever else waits. -/
theorem exists_runOn_sync (c : Cache ω) (s : CacheState ω) :
    ∃ queue, c.sync.runOn s = ((c.runFetch s).1, { (c.runFetch s).2 with queue }) := by
  refine ⟨(s.queue ++ [Action.nextTicket s.queue]).erase (Action.nextTicket s.queue), ?_⟩
  rw [sync, Action.runOn_bind, Action.runOn_reading]
  change (c.syncAfter s.generation).runOn s = _
  rw [syncAfter, Action.runOn_inTurn, Action.runOn_bind, Action.runOn_reading]
  simp only [queueLens, reduceIte]
  rw [runOn_pull, runFetch_queue]

/-- What there is to a sync that succeeds. -/
theorem runOn_sync_eq_ok (hplain : c.database.PlainKeys) (hs : KeyedStore c.database s.replica)
    (h : c.sync.runOn s = (.ok (), t)) :
    ∃ set o queue, (c.origin.listChanges s.cursor).runOn s.origin = (.ok set, o) ∧
      (∀ write ∈ set.writes, write.Acceptable c.database) ∧
      t = ⟨set.applyTo c.database s.replica, some set.cursor, s.generation + 1, true, o, queue⟩ := by
  obtain ⟨queue, hsync⟩ := exists_runOn_sync c s
  rw [h, runFetch] at hsync
  rcases hanswer : (c.origin.listChanges s.cursor).runOn s.origin with ⟨e | set, o⟩
  · rw [hanswer] at hsync
    cases hsync
  · rw [hanswer] at hsync
    have hwrites := acceptable_of_runWrites (congrArg Prod.fst hsync).symm
    dsimp only at hsync
    rw [runWrites_of_acceptable hplain set.cursor hwrites (s := { s with origin := o }) hs,
      ChangeSet.foldl_carry_writes] at hsync
    exact ⟨set, o, queue, rfl, hwrites, congrArg Prod.snd hsync⟩

/-- A sync that succeeds leaves what the changes of its set, one at a time, and then its deletions, one
at a time, make of the replica. -/
theorem replica_sync {set : ChangeSet} {o : ω} (hplain : c.database.PlainKeys)
    (hs : KeyedStore c.database s.replica)
    (hset : (c.origin.listChanges s.cursor).runOn s.origin = (.ok set, o))
    (h : c.sync.runOn s = (.ok (), t)) :
    t.replica = set.applyTo c.database s.replica ∧
      ∀ name schema, c.database.schemas.get? name = some schema →
        set.Settles schema name (s.replica.rows name) (t.replica.rows name) := by
  obtain ⟨given, o', queue, hgiven, hwrites, rfl⟩ := runOn_sync_eq_ok hplain hs h
  rw [hset] at hgiven
  cases hgiven
  exact ⟨rfl, fun name schema hschema => ChangeSet.settles_applyTo hwrites hschema (hs name schema hschema)⟩

/-- Of three people one is renamed twice and one is deleted; another one is new and has no name. -/
theorem replica_sync_people :
    (People.cache.sync.runOn People.behind).2.replica.rows "people" =
        [person 2 "Bert", person 3 "Cy", person 4 "nobody"] ∧
      (People.cache.sync.runOn People.behind).2.replica =
        People.news.applyTo People.database (Memory.run People.database People.three) := by
  have hreplica : People.behind.replica = Memory.run People.database People.three := by
    rw [People.behind, Cache.start]
  have hkeyed : KeyedStore People.cache.database People.behind.replica := by
    rw [hreplica]
    exact People.keyedStore_three
  have hset : ((People.cache.origin.listChanges People.behind.cursor).runOn People.behind.origin).1 =
      .ok People.news := Outcome.eq_ok_of_toOption (by decide +kernel)
  have hok : (People.cache.sync.runOn People.behind).1 = .ok () :=
    Outcome.eq_ok_of_toOption (by decide +kernel)
  have happlied := (replica_sync People.plainKeys hkeyed (Prod.ext hset rfl) (Prod.ext hok rfl)).1
  rw [hreplica] at happlied
  exact ⟨by decide +kernel, happlied⟩

end Cache

end QueryLayer
