import QueryLayer.Proofs.Naming.Groups
import QueryLayer.Proofs.Naming.Writes

/-! # The source that shown schemas describe

Calls through a naming of fields are answered as by a memory source with the schemas that the naming shows,
on the same records by public names. They leave stores that relabel again, and so this goes on from call to
call.
-/
namespace QueryLayer

/-- A call on records: it asks for no form, and the members of what it writes are in name order. -/
def CollectionCall.Ordered : CollectionCall → Prop
  | create records => ∀ r ∈ records, Entries.Sorted r
  | update _ patch => Entries.Sorted patch
  | getForm .. => False
  | _ => True

instance : (call : CollectionCall) → Decidable call.Ordered
  | .create records => inferInstanceAs (Decidable (∀ r ∈ records, List.Pairwise _ r))
  | .update _ patch => inferInstanceAs (Decidable (List.Pairwise _ patch))
  | .getForm .. => isFalse id
  | .list .. => isTrue trivial
  | .delete _ => isTrue trivial
  | .aggregate .. => isTrue trivial
  | .execute .. => isTrue trivial

def SourceCall.Ordered : SourceCall → Prop
  | on _ call => call.Ordered
  | renderChart _ => True

instance : (call : SourceCall) → Decidable call.Ordered
  | .on _ call => inferInstanceAs (Decidable call.Ordered)
  | .renderChart _ => isTrue trivial

namespace Action

variable {σ α β : Type}

theorem ofExcept_bind_reading (x : Except Error α) (f : α → σ → Except Error β) :
    (ofExcept x >>= fun a => reading (f a)) = reading fun s => x >>= fun a => f a s := by
  cases x <;> rfl

theorem ofExcept_bind_writing (x : Except Error α) (name : String)
    (write : α → Store → Except Error (β × List Record)) :
    (ofExcept x >>= fun a => Memory.writing name (write a)) =
      Memory.writing name fun store => x >>= fun a => write a store := by
  cases x <;> rfl

end Action

namespace FieldNaming

variable {n : FieldNaming Store} {db : Database} {store : Store} {name : String} {schema : CollectionSchema}

/-! ## Steps -/

/-- What a call on both sides comes to: outcomes that are alike, and stores that relabel. -/
structure SameStep {α β : Type} (n : FieldNaming Store) (db : Database) (R : α → β → Prop)
    (x : Except Error α × Store) (y : Except Error β × Store) : Prop where
  outcome : Outcome.Alike R x.1 y.1
  tidy : Memory.Tidy db x.2
  relabelled : y.2 = n.relabelStore x.2

section

variable {α β γ : Type} {R : α → β → Prop}

theorem SameStep.map {act act' : Action Store α} {store' : Store}
    (h : SameStep n db Eq (act.runOn store) (act'.runOn store')) (f : α → γ) :
    SameStep n db Eq ((f <$> act).runOn store) ((f <$> act').runOn store') := by
  rw [Action.runOn_map, Action.runOn_map]
  exact ⟨h.outcome.map f, h.tidy, h.relabelled⟩

/-- The answer is put under public names. -/
theorem SameStep.public {act : Action Store α} {y : Except Error β × Store}
    (h : SameStep n db R (act.runOn store) y) {f : α → Except Error β} (hf : ∀ a b, R a b → f a = .ok b) :
    SameStep n db Eq ((act >>= fun a => Action.ofExcept (f a)).runOn store) y := by
  obtain ⟨houtcome, htidy, hrelabelled⟩ := h
  rw [Action.runOn_bind]
  generalize act.runOn store = x at houtcome htidy hrelabelled
  obtain ⟨x, after⟩ := x
  obtain ⟨y, after'⟩ := y
  cases houtcome with
  | @ok a b hab =>
    refine ⟨?_, htidy, hrelabelled⟩
    dsimp only
    rw [Action.runOn_ofExcept, hf a b hab]
    exact .ok rfl
  | error e e' => exact ⟨.error e e', htidy, hrelabelled⟩

theorem sameStep_reading (hstore : Memory.Tidy db store) {f : Store → Except Error α}
    {g : Store → Except Error β} (h : Outcome.Alike R (f store) (g (n.relabelStore store))) :
    SameStep n db R ((Action.reading f).runOn store) ((Action.reading g).runOn (n.relabelStore store)) where
  outcome := h
  tidy := hstore
  relabelled := rfl

/-- Rows that relabel and fit are relabelled rows. -/
theorem Relabels.eq_relabel {own shown : Record} (h : Relabels n db name schema own shown) (hn : n.Faithful db)
    (hs : db.schemas.get? name = some schema) (hfits : own.Fits schema) : shown = n.relabel name own := by
  have hshown := h.publicRecord_eq hn hs
  rw [(Relabels.of_fits hn hs hfits h.sorted).publicRecord_eq hn hs] at hshown
  exact (Except.ok.inj hshown).symm

theorem sameStep_writing (hn : n.Faithful db) (hs : db.schemas.get? name = some schema)
    (hstore : Memory.Tidy db store) {write : Store → Except Error (α × List Record)}
    {write' : Store → Except Error (β × List Record)}
    (h : Outcome.Alike (fun x y => R x.1 y.1 ∧ List.Forall₂ (Relabels n db name schema) x.2 y.2)
      (write store) (write' (n.relabelStore store)))
    (htidy : ∀ a rows, write store = .ok (a, rows) → Memory.Tidy db (store.setRows name rows)) :
    SameStep n db R ((Memory.writing name write).runOn store)
      ((Memory.writing name write').runOn (n.relabelStore store)) := by
  rw [Memory.runOn_writing, Memory.runOn_writing]
  generalize hx : write store = x at h
  generalize write' (n.relabelStore store) = y at h
  cases h with
  | @ok x y hxy =>
    obtain ⟨a, rows⟩ := x
    obtain ⟨b, rows'⟩ := y
    have hafter := htidy a rows hx
    have hrows : rows' = rows.map (n.relabel name) := by
      rw [eq_comm, ← List.forall₂_eq_eq_eq, List.forall₂_map_left_iff]
      refine Outcome.forall₂_imp_of_mem hxy.2 fun r hr r' _ hrr' => ?_
      have hmem : r ∈ (store.setRows name rows).rows name := by
        rw [Store.rows_setRows_self]
        exact hr
      exact (hrr'.eq_relabel hn hs (hafter.fitting name schema hs r hmem)).symm
    refine ⟨.ok hxy.1, hafter, ?_⟩
    rw [relabelStore_setRows, ← hrows]
  | error e e' => exact ⟨.error e e', hstore, rfl⟩

end

/-! ## Calls -/

section

variable (hn : n.Faithful db) (hkeys : db.KeyedByColumns) (hstore : Memory.Tidy db store)
  (hs : db.schemas.get? name = some schema) (caller : Caller)
include hn hkeys hstore hs

theorem sameStep_list (filter : PaginatedFilter) (projection : Projection) :
    SameStep n db Eq
      (((n.collection (Memory.collection db name schema)).list caller filter projection).runOn store)
      (((Memory.collection (n.direct db) name (n.view db name schema)).list caller filter projection).runOn
        (n.relabelStore store)) := by
  have hact : (n.collection (Memory.collection db name schema)).list caller filter projection =
      .reading (fun store => do
        let f ← n.ownPaginated (Memory.collection db name schema) filter
        let q ← n.ownProjection (Memory.collection db name schema) projection
        let records ← Memory.list db store name schema f q
        records.mapM (n.publicRecord (Memory.collection db name schema))) := by
    simp only [collection, Memory.collection, Action.liftM_eq_ofExcept, Action.reading_bind_ofExcept,
      Action.ofExcept_bind_reading]
  rw [hact]
  exact sameStep_reading hstore (list_alike hn hkeys hstore hs filter projection)

theorem sameStep_aggregate (filter : Filter) (aggregation : Aggregation) (limit : Option Nat) :
    SameStep n db Eq
      (((n.collection (Memory.collection db name schema)).aggregate caller filter aggregation limit).runOn
        store)
      (((Memory.collection (n.direct db) name (n.view db name schema)).aggregate caller filter aggregation
        limit).runOn (n.relabelStore store)) := by
  have hact : (n.collection (Memory.collection db name schema)).aggregate caller filter aggregation limit =
      .reading (fun store => do
        let f ← n.ownFilter (Memory.collection db name schema) filter
        let a ← n.ownAggregation (Memory.collection db name schema) aggregation
        let rows ← Memory.aggregate db store name schema f a limit
        rows.mapM (n.publicRow (Memory.collection db name schema))) := by
    simp only [collection, Memory.collection, Action.liftM_eq_ofExcept, Action.reading_bind_ofExcept,
      Action.ofExcept_bind_reading]
  rw [hact]
  exact sameStep_reading hstore (aggregate_alike hn hkeys hstore hs filter aggregation limit)

omit hkeys in
theorem sameStep_create {records : List Record} (hsorted : ∀ r ∈ records, Entries.Sorted r) :
    SameStep n db Eq
      (((n.collection (Memory.collection db name schema)).create caller records).runOn store)
      (((Memory.collection (n.direct db) name (n.view db name schema)).create caller records).runOn
        (n.relabelStore store)) := by
  have hact : (n.collection (Memory.collection db name schema)).create caller records =
      (Memory.writing name (fun store => do
        let own ← records.mapM (n.ownRecord (Memory.collection db name schema))
        let created ← Memory.creation (db.scope name schema) (store.rows name) own
        pure (created, store.rows name ++ created)) >>= fun created =>
          .ofExcept (created.mapM (n.publicRecord (Memory.collection db name schema)))) := by
    simp only [collection, Memory.collection, Memory.create, Action.liftM_eq_ofExcept]
    rw [← bind_assoc, Action.ofExcept_bind_writing]
  rw [hact]
  have hrows := forall₂_rows hn hstore hs
  refine SameStep.public (R := List.Forall₂ (Relabels n db name schema))
    (sameStep_writing hn hs hstore ?_ fun created rows h => ?_) fun _ _ h => mapM_publicRecord hn hs h
  · rw [← bind_assoc]
    exact (creation_alike hn hs hrows hsorted).bind fun created created' hcreated =>
      .ok ⟨hcreated, List.rel_append hrows hcreated⟩
  · obtain ⟨own, hown, h⟩ := Outcome.bind_eq_ok_iff.1 h
    obtain ⟨_, hcreated, h⟩ := Outcome.bind_eq_ok_iff.1 h
    cases h
    have hwritten : Memory.Written db store name schema (.create caller name own) _ := .create hcreated
    refine hstore.written hs (fun r hr => ?_) hwritten
    obtain ⟨_, _, hr⟩ := Outcome.exists_of_mem_mapM hown hr
    exact sorted_of_ownRecord hr

theorem sameStep_update (filter : Filter) {patch : Record} (hsorted : Entries.Sorted patch) :
    SameStep n db Eq
      (((n.collection (Memory.collection db name schema)).update caller filter patch).runOn store)
      (((Memory.collection (n.direct db) name (n.view db name schema)).update caller filter patch).runOn
        (n.relabelStore store)) := by
  have hact : (n.collection (Memory.collection db name schema)).update caller filter patch =
      Memory.writing name (fun store => do
        let f ← n.ownFilter (Memory.collection db name schema) filter
        let p ← n.ownRecord (Memory.collection db name schema) patch
        let rows ← Memory.updated db store name schema f p
        pure ((), rows)) := by
    simp only [collection, Memory.collection, Memory.update, Action.liftM_eq_ofExcept,
      Action.ofExcept_bind_writing]
  rw [hact]
  refine sameStep_writing hn hs hstore ?_ fun _ rows h => ?_
  · have hanswer : ∀ rows rows', List.Forall₂ (Relabels n db name schema) rows rows' →
        Outcome.Alike (fun x y : Unit × List Record =>
          x.1 = y.1 ∧ List.Forall₂ (Relabels n db name schema) x.2 y.2)
          (pure ((), rows) : Except Error (Unit × List Record)) (pure ((), rows')) :=
      fun _ _ hrows => .ok ⟨rfl, hrows⟩
    simpa only [bind_assoc] using (updated_alike hn hkeys hstore hs filter hsorted).bind hanswer
  · obtain ⟨f, _, h⟩ := Outcome.bind_eq_ok_iff.1 h
    obtain ⟨p, hp, h⟩ := Outcome.bind_eq_ok_iff.1 h
    obtain ⟨_, hrows, h⟩ := Outcome.bind_eq_ok_iff.1 h
    cases h
    have hwritten : Memory.Written db store name schema (.update caller name f p) rows := .update hrows
    exact hstore.written hs (fun r hr => by cases hr) hwritten

theorem sameStep_delete (filter : Filter) :
    SameStep n db Eq
      (((n.collection (Memory.collection db name schema)).delete caller filter).runOn store)
      (((Memory.collection (n.direct db) name (n.view db name schema)).delete caller filter).runOn
        (n.relabelStore store)) := by
  have hact : (n.collection (Memory.collection db name schema)).delete caller filter =
      Memory.writing name (fun store => do
        let f ← n.ownFilter (Memory.collection db name schema) filter
        let rows ← Memory.remaining db store name schema f
        pure ((), rows)) := by
    simp only [collection, Memory.collection, Memory.delete, Action.liftM_eq_ofExcept,
      Action.ofExcept_bind_writing]
  rw [hact]
  refine sameStep_writing hn hs hstore ?_ fun _ rows h => ?_
  · rw [← bind_assoc]
    exact (remaining_alike hn hkeys hstore hs filter).bind fun rows rows' hrows => .ok ⟨rfl, hrows⟩
  · obtain ⟨f, _, h⟩ := Outcome.bind_eq_ok_iff.1 h
    obtain ⟨_, hrows, h⟩ := Outcome.bind_eq_ok_iff.1 h
    cases h
    have hwritten : Memory.Written db store name schema (.delete caller name f) rows := .delete hrows
    exact hstore.written hs (fun r hr => by cases hr) hwritten

omit hn hkeys hs in
/-- Neither collection has an action of its own. -/
theorem sameStep_execute (action : String) (values : Record) (filter : Filter) :
    SameStep n db Eq
      (((n.collection (Memory.collection db name schema)).execute caller action values filter).runOn store)
      (((Memory.collection (n.direct db) name (n.view db name schema)).execute caller action values
        filter).runOn (n.relabelStore store)) := by
  simp only [collection, Action.liftM_eq_ofExcept]
  cases n.ownFilter (Memory.collection db name schema) filter with
  | error e => exact ⟨.error _ _, hstore, rfl⟩
  | ok f => exact ⟨.error _ _, hstore, rfl⟩

theorem sameStep_send {call : CollectionCall} (hcall : call.Ordered) :
    SameStep n db Eq ((call.send (n.collection (Memory.collection db name schema)) caller).runOn store)
      ((call.send (Memory.collection (n.direct db) name (n.view db name schema)) caller).runOn
        (n.relabelStore store)) := by
  cases call with
  | list filter projection => exact (sameStep_list hn hkeys hstore hs caller filter projection).map _
  | create records => exact (sameStep_create hn hstore hs caller hcall).map _
  | update filter patch => exact (sameStep_update hn hkeys hstore hs caller filter hcall).map _
  | delete filter => exact (sameStep_delete hn hkeys hstore hs caller filter).map _
  | aggregate filter aggregation limit =>
    exact (sameStep_aggregate hn hkeys hstore hs caller filter aggregation limit).map _
  | execute action values filter => exact (sameStep_execute hstore caller action values filter).map _
  | getForm action values filter => exact hcall.elim

end

/-! ## Sources -/

theorem sameStep_source (hn : n.Faithful db) (hkeys : db.KeyedByColumns) (hstore : Memory.Tidy db store)
    (caller : Caller) {call : SourceCall} (hcall : call.Ordered) :
    SameStep n db Eq ((call.send n.source caller).runOn store)
      ((call.send (Memory.source (n.direct db)) caller).runOn (n.relabelStore store)) := by
  cases call with
  | on name call =>
    have hcollection := collection?_source hn.child name
    have hfound := get?_schemas_direct hn.child name
    cases hs : db.schemas.get? name with
    | none =>
      rw [hs] at hcollection hfound
      rw [SourceCall.send, SourceCall.send, Source.collection, Source.collection, hcollection,
        Memory.collection?_source, hfound]
      exact ⟨.error _ _, hstore, rfl⟩
    | some schema =>
      rw [hs] at hcollection hfound
      have hshown : n.source.collection name = .ok (n.collection (Memory.collection db name schema)) := by
        unfold Source.collection
        rw [hcollection]
        rfl
      rw [SourceCall.send_on hshown, SourceCall.send_on (Memory.collection_source_of_some hfound)]
      exact sameStep_send hn hkeys hstore hs caller hcall
  | renderChart chart =>
    have hact : n.source.renderChart caller chart =
        (Memory.source (n.direct db)).renderChart caller chart := by
      unfold source
      rw [hn.child]
      rfl
    rw [SourceCall.send, SourceCall.send, hact]
    refine SameStep.map ?_ _
    unfold Memory.source
    dsimp only
    split
    · exact ⟨.ok rfl, hstore, rfl⟩
    · exact ⟨.error _ _, hstore, rfl⟩

/-- Step by step, whatever calls are made. -/
theorem history_alike (hn : n.Faithful db) (hkeys : db.KeyedByColumns) (hstore : Memory.Tidy db store)
    {calls : List (Caller × SourceCall)} (hcalls : ∀ c ∈ calls, c.2.Ordered) :
    List.Forall₂ (SameStep n db Eq) (n.source.history calls store)
      ((Memory.source (n.direct db)).history calls (n.relabelStore store)) := by
  induction calls generalizing store with
  | nil => exact .nil
  | cons c rest ih =>
    obtain ⟨caller, call⟩ := c
    have hstep := sameStep_source hn hkeys hstore caller (hcalls _ List.mem_cons_self)
    rw [Source.history, Source.history]
    refine .cons hstep ?_
    rw [hstep.relabelled]
    exact ih hstep.tidy fun d hd => hcalls d (List.mem_cons_of_mem _ hd)

/-- Fields are renamed, and then calls are made: they succeed and fail as on a source with the schemas that
are shown then, with the same answers, and leave the same records by other names. -/
theorem history_renamed (hdb : db.Plain) (hkeys : db.KeyedByColumns) {renames : List Rename}
    (hn : (FieldNaming.ofSource (Memory.source db)).renameAll renames = .ok n) (hstore : Memory.Tidy db store)
    {calls : List (Caller × SourceCall)} (hcalls : ∀ c ∈ calls, c.2.Ordered) :
    List.Forall₂ (fun x y => Outcome.Alike Eq x.1 y.1 ∧ y.2 = n.relabelStore x.2)
      (n.source.history calls store) ((Memory.source (n.direct db)).history calls (n.relabelStore store)) :=
  (history_alike (.renameAll hdb hn) hkeys hstore hcalls).imp fun _ _ h => ⟨h.outcome, h.relabelled⟩

end FieldNaming

/-! ## A shelf of books -/

namespace Shelf

def key : Field := .column (Column.primaryKey ((Column.ofType .number).withOperators [.equal, .oneOf]))

def docs : CollectionSchema :=
  (CollectionSchema.empty.withField "id" key).withField "body" (.column (.ofType .json))

def people : CollectionSchema := CollectionSchema.empty.withField "id" key

/-- Books with an author, and with a copy that is looked up by the value of a field. -/
def books (field : String) : CollectionSchema :=
  (((CollectionSchema.empty.withField "id" key).withField "author_id" (.column (.ofType .number))).withField
    "author" (.relation (.manyToOne "people" "author_id" "id"))).withField
    "copy" (.relation (.manyToOne "docs" field "body"))

def database (field : String) : Database :=
  ⟨Dict.ofList [("docs", docs), ("people", people), ("books", books field)], ∅⟩

def stocking : List Memory.Call :=
  [.create default "docs" [[("body", .object [("id", .int 7)]), ("id", .int 1)]],
    .create default "people" [[("id", .int 7)]],
    .create default "books" [[("author_id", .int 7), ("id", .int 3)]]]

def stocked (field : String) : Store := Memory.run (database field) stocking

theorem tidy_stocked (field : String) : Memory.Tidy (database field) (stocked field) :=
  Memory.tidy_run (by decide +kernel)

/-- The fields of a collection under new names, where the renames are accepted. -/
def renamed (field : String) (renames : List FieldNaming.Rename) : FieldNaming Store :=
  ((FieldNaming.ofSource (Memory.source (database field))).renameAll renames).toOption.getD
    (.ofSource (Memory.source (database field)))

theorem renameAll_eq_renamed {field : String} {renames : List FieldNaming.Rename}
    (h : ((FieldNaming.ofSource (Memory.source (database field))).renameAll renames).toOption.isSome = true) :
    (FieldNaming.ofSource (Memory.source (database field))).renameAll renames =
      .ok (renamed field renames) := by
  unfold renamed
  generalize (FieldNaming.ofSource (Memory.source (database field))).renameAll renames = x at h
  cases x with
  | error e => cases h
  | ok n => rfl

/-- The author and the id of books change names, by way of a third one. -/
def swap : List FieldNaming.Rename :=
  [⟨"books", "id", "number"⟩, ⟨"books", "author_id", "id"⟩, ⟨"books", "number", "author_id"⟩,
    ⟨"books", "author", "writer"⟩]

/-- A book gets the next id; the last call is refused, since a relation was renamed away. -/
def calls : List (Caller × SourceCall) :=
  [(default, .on "books" (.create [[("id", .int 7)]])),
    (default, .on "books" (.list { PaginatedFilter.empty with sort := .descending "author_id" }
      (.ofList ["author_id", "writer:id"]))),
    (default, .on "books" (.update (.ofCondition (.leaf ⟨"author_id", .equal, .int 3⟩)) [("id", .null)])),
    (default, .on "books" (.aggregate .empty ⟨.count, none, [⟨"writer:id", none⟩]⟩ none)),
    (default, .on "books" (.delete (.ofCondition (.leaf ⟨"author_id", .equal, .int 4⟩)))),
    (default, .on "books" (.list .empty (.ofList ["author:id"])))]

theorem history_swapped :
    (database "author_id").Plain ∧ (database "author_id").KeyedByColumns ∧
    List.Forall₂ (fun x y => Outcome.Alike Eq x.1 y.1 ∧ y.2 = (renamed "author_id" swap).relabelStore x.2)
      ((renamed "author_id" swap).source.history calls (stocked "author_id"))
      ((Memory.source ((renamed "author_id" swap).direct (database "author_id"))).history calls
        ((renamed "author_id" swap).relabelStore (stocked "author_id"))) := by
  have hplain : (database "author_id").Plain := by decide +kernel
  have hkeys : (database "author_id").KeyedByColumns := by decide +kernel
  exact ⟨hplain, hkeys, FieldNaming.history_renamed hplain hkeys
    (renameAll_eq_renamed (by decide +kernel)) (tidy_stocked _) (by decide +kernel)⟩

/-! ## A relation that is joined by a relation -/

/-- The fields that the keys of a relation name, each with the collection it belongs to. -/
def keyFields (name : String) (r : Relation) : List (String × String) :=
  let named (collection : String) (field : Option String) := field.toList.map fun f => (collection, f)
  let between (field : Option String) := r.throughCollection.toList.flatMap fun c => named c field
  match r.kind with
  | .manyToOne => named name r.foreignKey ++ named r.foreignCollection r.foreignKeyTarget
  | .oneToOne => named name r.originKeyTarget ++ named r.foreignCollection r.originKey
  | .oneToMany => named name r.originKeyTarget ++ named r.foreignCollection r.originKey
  | .manyToMany => named name r.originKeyTarget ++ named r.foreignCollection r.foreignKeyTarget ++
      between r.originKey ++ between r.foreignKey

/-- The keys of relations name fields. -/
def KeyedByFields (db : Database) : Prop :=
  ∀ e ∈ db.schemas.entries, ∀ d ∈ e.2.relations, ∀ key ∈ keyFields e.1 d.2, db.HasField key.1 key.2

instance (db : Database) (name field : String) : Decidable (db.HasField name field) :=
  inferInstanceAs (Decidable (∃ schema ∈ db.schemas.get? name, (schema.fields.get? field).isSome))

instance (db : Database) : Decidable (KeyedByFields db) :=
  inferInstanceAs (Decidable (∀ e ∈ db.schemas.entries, ∀ d ∈ e.2.relations,
    ∀ key ∈ keyFields e.1 d.2, db.HasField key.1 key.2))

def authorToWriter : List FieldNaming.Rename := [⟨"books", "author", "writer"⟩]

def copies : List (Caller × SourceCall) :=
  [(default, .on "books" (.list .empty (.ofList ["writer:id", "copy:id"])))]

/-- Copies are looked up by the author, which is attached before them, and after them once it is the
writer. -/
theorem not_history_renamed :
    ¬ ∀ (db : Database) (renames : List FieldNaming.Rename) (n : FieldNaming Store) (store : Store)
      (calls : List (Caller × SourceCall)), (∀ e ∈ db.schemas.entries, Path.Plain e.1) → db.Plain →
      KeyedByFields db → (∀ r ∈ renames, Path.Plain r.new) →
      (FieldNaming.ofSource (Memory.source db)).renameAll renames = .ok n → Memory.Tidy db store →
      (∀ c ∈ calls, c.2.Ordered) →
      List.Forall₂ (fun x y => Outcome.Alike Eq x.1 y.1 ∧ y.2 = n.relabelStore x.2)
        (n.source.history calls store)
        ((Memory.source (n.direct db)).history calls (n.relabelStore store)) := by
  intro h
  have hsame := h (database "author") authorToWriter (renamed "author" authorToWriter) (stocked "author") copies
    (by decide +kernel) (by decide +kernel) (by decide +kernel) (by decide +kernel)
    (renameAll_eq_renamed (by decide +kernel)) (tidy_stocked _) (by decide +kernel)
  have hanswers : ((renamed "author" authorToWriter).source.history copies (stocked "author")).map
        (fun x => x.1.toOption) =
      ((Memory.source ((renamed "author" authorToWriter).direct (database "author"))).history copies
        ((renamed "author" authorToWriter).relabelStore (stocked "author"))).map fun x => x.1.toOption := by
    rw [← List.forall₂_eq_eq_eq, List.forall₂_map_left_iff, List.forall₂_map_right_iff]
    exact hsame.imp fun _ _ hxy => hxy.1.toOption_eq
  have hrenamed : ((renamed "author" authorToWriter).source.history copies (stocked "author")).map
      (fun x => x.1.toOption) =
        [some (.records [[("copy", .object [("id", .int 1)]), ("writer", .object [("id", .int 7)])]])] := by
    decide +kernel
  have hdirect : ((Memory.source ((renamed "author" authorToWriter).direct (database "author"))).history copies
      ((renamed "author" authorToWriter).relabelStore (stocked "author"))).map (fun x => x.1.toOption) =
        [some (.records [[("copy", .null), ("writer", .object [("id", .int 7)])]])] := by
    decide +kernel
  rw [hrenamed, hdirect] at hanswers
  revert hanswers
  decide +kernel

end Shelf

end QueryLayer
