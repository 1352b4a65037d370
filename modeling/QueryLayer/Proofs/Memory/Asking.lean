import QueryLayer.Proofs.Memory.Hydration

/-! # One question to two databases

Two filters ask the same when each is accepted by its own database and both select the same records. If the
databases differ in declared operators only, every operation with the one filter does what it does with the
other.
-/
namespace QueryLayer.Memory

/-- Two databases that are bare the same, with a collection of each. -/
structure SameBare (db other : Database) (schema schema' : CollectionSchema) : Prop where
  database : db.bare = other.bare
  collection : schema.bare = schema'.bare

/-- A filter for one database asks what another filter asks the other database, with `extra` attached. -/
structure Asks (db other : Database) (store : Store) (name : String) (schema schema' : CollectionSchema)
    (extra : Projection) (g f : Filter) : Prop where
  accepted : (db.scope name schema).checkFilter g = .ok ()
  accepted' : (other.scope name schema').checkFilter f = .ok ()
  select_eq : select db store name schema g extra = select other store name schema' f extra

section

variable {db other : Database} {store : Store} {name : String} {schema schema' : CollectionSchema}

namespace SameBare

theorem scope_eq (h : SameBare db other schema schema') (name : String) :
    (db.scope name schema).bare = (other.scope name schema').bare := by
  rw [Database.scope_bare, Database.scope_bare, h.database, h.collection]

theorem checkFields_eq (h : SameBare db other schema schema') (name : String) (fields : List String) :
    (db.scope name schema).checkFields fields = (other.scope name schema').checkFields fields := by
  rw [← Scope.checkFields_bare, h.scope_eq, Scope.checkFields_bare]

theorem checkAggregation_eq (h : SameBare db other schema schema') (name : String) (a : Aggregation) :
    (db.scope name schema).checkAggregation a = (other.scope name schema').checkAggregation a := by
  rw [← Scope.checkAggregation_bare, h.scope_eq, Scope.checkAggregation_bare]

theorem checkRecord_eq (h : SameBare db other schema schema') (name : String) (record : Record) :
    (db.scope name schema).checkRecord record = (other.scope name schema').checkRecord record := by
  rw [← Scope.checkRecord_bare, h.scope_eq, Scope.checkRecord_bare]

theorem hydrate_eq (h : SameBare db other schema schema') (store : Store) (records : List Record)
    (p : Projection) : db.hydrate store schema records p = other.hydrate store schema' records p := by
  rw [← Database.hydrate_bare, h.database, h.collection, Database.hydrate_bare]

theorem found_eq (h : SameBare db other schema schema') (record : Record) (needle : String) :
    record.found schema needle = record.found schema' needle := by
  rw [← Record.found_bare, h.collection, Record.found_bare]

theorem id_eq (h : SameBare db other schema schema') (record : Record) :
    record.id schema = record.id schema' := by
  rw [← Record.id_bare, h.collection, Record.id_bare]

theorem isTarget_eq (h : SameBare db other schema schema') (ids : List CompositeId) (record : Record) :
    isTarget schema ids record = isTarget schema' ids record := by
  rw [← isTarget_bare, h.collection, isTarget_bare]

theorem isReadOnly_eq (h : SameBare db other schema schema') (field : String) :
    (schema.column? field).any Column.isReadOnly = (schema'.column? field).any Column.isReadOnly := by
  have hbare : ∀ s : CollectionSchema,
      (s.bare.column? field).any Column.isReadOnly = (s.column? field).any Column.isReadOnly := by
    intro s
    rw [CollectionSchema.column?_bare]
    cases s.column? field <;> rfl
  rw [← hbare schema, h.collection, hbare]

theorem segments_eq (h : SameBare db other schema schema') : schema.segments = schema'.segments := by
  have hbare : schema.bare.segments = schema'.bare.segments := by rw [h.collection]
  exact hbare

theorem searchable_eq (h : SameBare db other schema schema') : schema.searchable = schema'.searchable := by
  have hbare : schema.bare.searchable = schema'.bare.searchable := by rw [h.collection]
  exact hbare

end SameBare

/-! ## What is selected -/

def checkSegment (name : String) (schema : CollectionSchema) (f : Filter) : Except Error Unit :=
  match f.segment with
  | some segment =>
    if schema.segments.contains segment then .ok () else .error (.query (.unknownSegment segment name))
  | none => .ok ()

/-- The records that a filter selects among, once their relations are attached. -/
def attached (db : Database) (store : Store) (name : String) (schema : CollectionSchema) (f : Filter)
    (extra : Projection) : Except Error (List Record) :=
  db.hydrate store schema (store.rows name) (match f.condition with
    | some c => extra.union c.projection
    | none => extra)

/-- Those of the records that a search finds. -/
def searched (schema : CollectionSchema) (f : Filter) (records : List Record) : List Record :=
  match f.search with
  | some search =>
    if schema.searchable then records.filter fun r => r.found schema (Text.lower search) else records
  | none => records

theorem select_eq (db : Database) (store : Store) (name : String) (schema : CollectionSchema) (f : Filter)
    (extra : Projection) : select db store name schema f extra =
      checkSegment name schema f >>= fun _ => attached db store name schema f extra >>= fun records =>
        .ok (match f.condition with
          | some c => c.select (searched schema f records)
          | none => searched schema f records) := by
  unfold select checkSegment
  cases f.segment with
  | none => rfl
  | some segment =>
    dsimp only
    cases schema.segments.contains segment <;> rfl

theorem mem_of_mem_searched {f : Filter} {records : List Record} {r : Record}
    (h : r ∈ searched schema f records) : r ∈ records := by
  unfold searched at h
  split at h
  · split at h
    · exact List.mem_of_mem_filter h
    · exact h
  · exact h

/-- What is selected are rows with relations attached. -/
theorem exists_row_of_mem_select {f : Filter} {extra : Projection} {records : List Record} {r : Record}
    (h : select db store name schema f extra = .ok records) (hr : r ∈ records) :
    ∃ row ∈ store.rows name, r.SameColumns schema row := by
  rw [select_eq] at h
  obtain ⟨-, h⟩ := Outcome.seq_eq_ok_iff.1 h
  obtain ⟨hydrated, hhydrated, h⟩ := Outcome.bind_eq_ok_iff.1 h
  obtain ⟨g, rfl, hg⟩ := exists_map_of_hydrate hhydrated
  have hfound : r ∈ searched schema f ((store.rows name).map g) := by
    cases h
    split at hr
    · exact List.mem_of_mem_filter hr
    · exact hr
  have hmem := mem_of_mem_searched hfound
  obtain ⟨row, hrow, rfl⟩ := List.mem_map.1 hmem
  exact ⟨row, hrow, hg row⟩

theorem SameBare.select_eq (h : SameBare db other schema schema') (f : Filter) (extra : Projection) :
    select db store name schema f extra = select other store name schema' f extra := by
  have hsegment : checkSegment name schema f = checkSegment name schema' f := by
    unfold checkSegment
    rw [h.segments_eq]
  have hattached : attached db store name schema f extra = attached other store name schema' f extra :=
    h.hydrate_eq ..
  have hsearched : searched schema f = searched schema' f := by
    funext records
    unfold searched
    rw [h.searchable_eq]
    simp only [h.found_eq]
  rw [Memory.select_eq, Memory.select_eq, hsegment, hattached, hsearched]

theorem attached_congr {f : Filter} {c d : Condition} (hc : f.condition = some c) {extra : Projection}
    (hsame : (extra.union d.projection).SameHops (extra.union c.projection)) :
    attached db store name schema { f with condition := some d } extra =
      attached db store name schema f extra := by
  unfold attached
  rw [hc]
  exact Database.hydrate_congr hsame ..

/-- Conditions that attach the same relations and agree on the records with these relations select the
same. -/
theorem select_congr {f : Filter} {c d : Condition} (hc : f.condition = some c) {extra : Projection}
    (hsame : (extra.union d.projection).SameHops (extra.union c.projection))
    (hholds : ∀ records, attached db store name schema f extra = .ok records →
      ∀ r ∈ searched schema f records, d.holds r = c.holds r) :
    select db store name schema { f with condition := some d } extra =
      select db store name schema f extra := by
  rw [select_eq, select_eq, attached_congr hc hsame, hc]
  refine bind_congr fun _ => ?_
  cases hrecords : attached db store name schema f extra with
  | error err => rfl
  | ok records =>
    exact congrArg Except.ok (List.filter_congr (hholds records hrecords))

/-- What is selected, once the relations are attached. -/
theorem eq_select_of_attached {f : Filter} {c : Condition} (hc : f.condition = some c) {extra : Projection}
    {records selected : List Record} (hrecords : attached db store name schema f extra = .ok records)
    (h : select db store name schema f extra = .ok selected) :
    selected = c.select (searched schema f records) := by
  rw [select_eq, hrecords, hc] at h
  obtain ⟨_, h⟩ := Outcome.seq_eq_ok_iff.1 h
  cases h
  rfl

/-! ## Requests -/

/-- A request that takes a filter. -/
inductive Request where
  | list (sort : Sorting) (page : Option Page) (projection : Projection)
  | aggregate (aggregation : Aggregation) (limit : Option Nat)
  | update (patch : Record)
  | delete

/-- What a request attaches beside the relations of its condition. -/
def Request.extra : Request → Projection
  | list sort _ projection => projection.union sort.projection
  | aggregate aggregation _ => aggregation.projection
  | update _ => .empty
  | delete => .empty

inductive Reply where
  | records (records : List Record)
  | rows (rows : List AggregateRow)
  | done

def Request.send {σ : Type} (c : Collection σ) (caller : Caller) (f : Filter) : Request → Action σ Reply
  | list sort page projection => Reply.records <$> c.list caller { f with sort, page } projection
  | aggregate aggregation limit => Reply.rows <$> c.aggregate caller f aggregation limit
  | update patch => (fun _ => Reply.done) <$> c.update caller f patch
  | delete => (fun _ => Reply.done) <$> c.delete caller f

/-- The reply to a request, and the store it leaves. -/
def Request.outcome (db : Database) (store : Store) (name : String) (schema : CollectionSchema) (f : Filter) :
    Request → Except Error Reply × Store
  | list sort page projection =>
    ((Memory.list db store name schema { f with sort, page } projection).map .records, store)
  | aggregate aggregation limit =>
    ((Memory.aggregate db store name schema f aggregation limit).map .rows, store)
  | update patch => written (updated db store name schema f patch)
  | delete => written (remaining db store name schema f)
where
  written : Except Error (List Record) → Except Error Reply × Store
  | .ok rows => (.ok .done, store.setRows name rows)
  | .error err => (.error err, store)

theorem runOn_writing_map (name : String) (write : Store → Except Error (List Record)) (store : Store) :
    ((fun _ => Reply.done) <$> writing name fun store => do pure ((), ← write store)).runOn store =
      Request.outcome.written store name (write store) := by
  rw [Action.runOn_map, runOn_writing]
  cases write store <;> rfl

theorem runOn_send (db : Database) (name : String) (schema : CollectionSchema) (caller : Caller) (f : Filter)
    (q : Request) (store : Store) :
    (q.send (collection db name schema) caller f).runOn store = q.outcome db store name schema f := by
  cases q with
  | list sort page projection => exact Action.runOn_map ..
  | aggregate aggregation limit => exact Action.runOn_map ..
  | update patch => exact runOn_writing_map name (fun store => updated db store name schema f patch) store
  | delete => exact runOn_writing_map name (fun store => remaining db store name schema f) store

/-- A request with a filter that is not accepted changes nothing. -/
theorem outcome_of_refused {f : Filter} {err : Error} (h : (db.scope name schema).checkFilter f = .error err)
    (q : Request) (store : Store) : q.outcome db store name schema f = (.error err, store) := by
  cases q with
  | list sort page projection =>
    unfold Request.outcome Memory.list Scope.checkPaginated
    dsimp only
    rw [h]
    rfl
  | aggregate aggregation limit =>
    unfold Request.outcome Memory.aggregate
    dsimp only
    rw [h]
    rfl
  | update patch =>
    unfold Request.outcome updated
    dsimp only
    rw [h]
    rfl
  | delete =>
    unfold Request.outcome remaining
    rw [h]
    rfl

/-- A list without a page has all that is selected. -/
theorem exists_select_of_outcome {f : Filter} {sort : Sorting} {projection : Projection} {reply : Reply}
    {after : Store}
    (h : (Request.list sort none projection).outcome db store name schema f = (.ok reply, after)) :
    ∃ selected, select db store name schema f (projection.union sort.projection) = .ok selected ∧
      reply = .records ((sort.apply selected).map projection.apply) := by
  unfold Request.outcome at h
  dsimp only at h
  cases hlist : list db store name schema { f with sort, page := none } projection with
  | error err =>
    rw [hlist] at h
    cases h
  | ok listed =>
    rw [hlist] at h
    cases h
    obtain ⟨_, hlist⟩ := Outcome.seq_eq_ok_iff.1 hlist
    obtain ⟨_, hlist⟩ := Outcome.seq_eq_ok_iff.1 hlist
    obtain ⟨selected, hselected, hlist⟩ := Outcome.bind_eq_ok_iff.1 hlist
    cases hlist
    exact ⟨selected, hselected, rfl⟩

namespace Asks

variable {f g : Filter}

theorem list_eq {sort : Sorting} {projection : Projection}
    (h : Asks db other store name schema schema' (projection.union sort.projection) g f)
    (hbare : SameBare db other schema schema') (page : Option Page) :
    list db store name schema { g with sort, page } projection =
      list other store name schema' { f with sort, page } projection := by
  unfold list Scope.checkPaginated Scope.checkProjection
  dsimp only
  rw [h.accepted, h.accepted', hbare.checkFields_eq, hbare.checkFields_eq, h.select_eq]

theorem aggregate_eq {aggregation : Aggregation}
    (h : Asks db other store name schema schema' aggregation.projection g f)
    (hbare : SameBare db other schema schema') (limit : Option Nat) :
    aggregate db store name schema g aggregation limit =
      aggregate other store name schema' f aggregation limit := by
  unfold aggregate
  dsimp only
  rw [h.accepted, h.accepted', hbare.checkAggregation_eq, h.select_eq]

theorem matchingIds_eq (h : Asks db other store name schema schema' .empty g f)
    (hbare : SameBare db other schema schema') :
    matchingIds db store name schema g = matchingIds other store name schema' f := by
  unfold matchingIds
  rw [h.select_eq]
  simp only [hbare.id_eq]

theorem updated_eq (h : Asks db other store name schema schema' .empty g f)
    (hbare : SameBare db other schema schema') (patch : Record) :
    updated db store name schema g patch = updated other store name schema' f patch := by
  unfold updated
  dsimp only
  rw [h.accepted, h.accepted', hbare.checkRecord_eq, h.matchingIds_eq hbare]
  simp only [hbare.isTarget_eq, hbare.isReadOnly_eq]

theorem remaining_eq (h : Asks db other store name schema schema' .empty g f)
    (hbare : SameBare db other schema schema') :
    remaining db store name schema g = remaining other store name schema' f := by
  unfold remaining
  rw [h.accepted, h.accepted', h.matchingIds_eq hbare]
  simp only [hbare.isTarget_eq]

/-- Filters that ask the same are answered the same, and leave the same store. -/
theorem outcome_eq {q : Request} (h : Asks db other store name schema schema' q.extra g f)
    (hbare : SameBare db other schema schema') :
    q.outcome db store name schema g = q.outcome other store name schema' f := by
  unfold Request.outcome
  cases q with
  | list sort page projection =>
    dsimp only
    rw [list_eq h hbare]
  | aggregate aggregation limit =>
    dsimp only
    rw [aggregate_eq h hbare]
  | update patch =>
    dsimp only
    rw [updated_eq h hbare]
  | delete =>
    dsimp only
    rw [remaining_eq h hbare]

end Asks

end

end QueryLayer.Memory
