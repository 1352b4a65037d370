import QueryLayer.Proofs.Memory.Along
import QueryLayer.Proofs.Memory.Asking
import QueryLayer.Proofs.Memory.Keyed
import QueryLayer.Proofs.Naming.Direct

/-! # What reads select and writes hit

Records are selected with their relations attached, and writes find them again by their ids. Where ids are
present and distinct, a write hits exactly the rows that a list selects, provided that the condition reads
the same whatever else the list attaches. Main statement: `Memory.writes_hit_listed`.
-/
namespace QueryLayer

/-- Whether a record with its relations attached satisfies the condition of a filter. -/
def Filter.holds (f : Filter) (record : Record) : Bool :=
  match f.condition with
  | some c => c.holds record
  | none => true

namespace Memory

variable {db : Database} {store : Store} {name : String} {schema : CollectionSchema} {f : Filter}

/-- Whether a search, if there is one, finds a record. -/
def finds (schema : CollectionSchema) (f : Filter) (record : Record) : Bool :=
  match f.search with
  | some search => !schema.searchable || record.found schema (Text.lower search)
  | none => true

theorem searched_eq (schema : CollectionSchema) (f : Filter) (records : List Record) :
    searched schema f records = records.filter (finds schema f) := by
  unfold searched finds
  cases f.search with
  | none => simp
  | some search => cases schema.searchable <;> simp

theorem found_congr {a b : Record} (h : a.SameColumns schema b) (needle : String) :
    a.found schema needle = b.found schema needle := by
  unfold Record.found
  rw [Bool.eq_iff_iff, List.any_eq_true, List.any_eq_true]
  refine exists_congr fun e => and_congr_right fun he => ?_
  rw [h e.1 (Option.isSome_of_eq_some (CollectionSchema.mem_columns_iff.1 he))]

theorem finds_congr {a b : Record} (h : a.SameColumns schema b) (f : Filter) :
    finds schema f a = finds schema f b := by
  unfold finds
  cases f.search with
  | none => rfl
  | some search =>
    dsimp only
    rw [found_congr h]

/-- What is selected, by what is attached to the rows. -/
theorem select_eq_filter {extra : Projection} {g : Record → Record} (hsegment : checkSegment name schema f = .ok ())
    (hattached : attached db store name schema f extra = .ok ((store.rows name).map g))
    (hg : ∀ r, (g r).SameColumns schema r) : select db store name schema f extra =
      .ok (((store.rows name).filter fun r => finds schema f r && f.holds (g r)).map g) := by
  have hfound : ((store.rows name).map g).filter (finds schema f) =
      ((store.rows name).filter (finds schema f)).map g := by
    rw [List.filter_map]
    exact congrArg (List.map g) (List.filter_congr fun r _ => finds_congr (hg r) f)
  rw [select_eq, hsegment, hattached, Outcome.ok_bind, Outcome.ok_bind, searched_eq, hfound]
  unfold Filter.holds
  cases f.condition with
  | none => simp
  | some c =>
    dsimp only
    rw [Condition.select, List.filter_map, List.filter_filter]
    refine congrArg Except.ok (congrArg (List.map g) (List.filter_congr fun r _ => ?_))
    exact Bool.and_comm _ _

/-- What else is attached for a list changes nothing that the condition reads: relations are joined by
columns, or the list goes through none that the condition does not go through. -/
def Steady (db : Database) (f : Filter) (extra : Projection) : Prop :=
  db.KeyedByColumns ∨ ∀ hops, hops ≠ [] → extra.Through hops → ∃ c ∈ f.condition, c.projection.Through hops

theorem reads_of_checkFilter {s : Scope} {c : Condition} (hcheck : s.checkFilter f = .ok ())
    (hc : f.condition = some c) : s.Reads c.projection := by
  unfold Scope.checkFilter at hcheck
  rw [hc] at hcheck
  exact Scope.reads_of_checkCondition hcheck

/-- The rows with what a filter and a list go through attached. -/
theorem exists_attached_of_reads (store : Store) {extra : Projection}
    (hcheck : (db.scope name schema).checkFilter f = .ok ())
    (hextra : (db.scope name schema).Reads extra) : ∃ g : Record → Record,
      attached db store name schema f extra = .ok ((store.rows name).map g) ∧
        ∀ r, (g r).SameColumns schema r := by
  obtain ⟨out, hout⟩ : ∃ out, attached db store name schema f extra = .ok out := by
    unfold attached
    cases hc : f.condition with
    | none => exact Database.exists_hydrate_of_reads hextra _
    | some c => exact Database.exists_hydrate_of_reads (hextra.union (reads_of_checkFilter hcheck hc)) _
  obtain ⟨g, rfl, hg⟩ := exists_map_of_hydrate hout
  exact ⟨g, hout, hg⟩

theorem reads_empty (s : Scope) : s.Reads .empty := fun f hf => by cases hf

/-- A condition says the same of a row, whatever a list attaches beside what it reads. -/
theorem holds_eq_of_attached {extra : Projection} (hs : db.schemas.get? name = some schema)
    (hcheck : (db.scope name schema).checkFilter f = .ok ()) (hextra : (db.scope name schema).Reads extra)
    (hsteady : Steady db f extra) {g base : Record → Record}
    (hg : attached db store name schema f extra = .ok ((store.rows name).map g))
    (hbase : attached db store name schema f .empty = .ok ((store.rows name).map base)) :
    ∀ r ∈ store.rows name, f.holds (g r) = f.holds (base r) := by
  intro r hr
  unfold Filter.holds
  unfold attached at hg hbase
  cases hc : f.condition with
  | none => rfl
  | some c =>
    rw [hc] at hg hbase
    dsimp only at hg hbase ⊢
    have hreads := reads_of_checkFilter hcheck hc
    obtain hkeys | hhops := hsteady
    · obtain ⟨g', hg', hattached⟩ := Database.exists_attached_rows hkeys hs (hextra.union hreads) (store.rows name)
      obtain ⟨base', hbase', hattached'⟩ :=
        Database.exists_attached_rows hkeys hs ((reads_empty _).union hreads) (store.rows name)
      have hgr := List.map_inj_left.1 (Except.ok.inj (hg.symm.trans hg')) r hr
      have hbaser := List.map_inj_left.1 (Except.ok.inj (hbase.symm.trans hbase')) r hr
      rw [hgr, hbaser]
      refine Condition.holds_congr fun l hl => ?_
      have hfield : l.field ∈ c.projection.fields := Projection.mem_ofList.2 (List.mem_map_of_mem hl)
      exact congrArg l.holdsFor (Database.value_eq_of_attached hkeys hs (hextra.union hreads)
        ((reads_empty _).union hreads) (Projection.mem_union.2 (Or.inr hfield))
        (Projection.mem_union.2 (Or.inr hfield)) (hattached r) (hattached' r))
    · have hsame : (extra.union c.projection).SameHops (Projection.empty.union c.projection) := by
        intro hops hnil
        rw [Projection.through_union_iff, Projection.through_union_iff]
        refine ⟨fun hthrough => Or.inr ?_, fun hthrough => Or.inr ?_⟩
        · refine hthrough.elim (fun hextra => ?_) id
          obtain ⟨d, hd, hthrough⟩ := hhops hops hnil hextra
          obtain rfl : c = d := Option.some.inj (hc.symm.trans hd)
          exact hthrough
        · refine hthrough.elim (fun hempty => ?_) id
          obtain ⟨_, hf, -⟩ := hempty
          cases hf
      rw [Database.hydrate_congr hsame, hbase] at hg
      rw [List.map_inj_left.1 (Except.ok.inj hg) r hr]

/-! ## Writes -/

/-- Rows are found again by their ids, and no other rows are. -/
theorem Keyed.isTarget_filter {rows : List Record} (h : Keyed schema rows) (hit : Record → Bool) {r : Record}
    (hr : r ∈ rows) : isTarget schema ((rows.filter hit).map fun r => r.key schema) r = hit r := by
  rw [isTarget_of_present (h.present r hr), Bool.eq_iff_iff, hasId, List.any_eq_true]
  constructor
  · rintro ⟨id, hid, hsame⟩
    obtain ⟨a, ha, rfl⟩ := List.mem_map.1 hid
    obtain ⟨ha, hhit⟩ := List.mem_filter.1 ha
    rwa [h.eq_of_sameId ha hr hsame] at hhit
  · exact fun hhit => ⟨_, List.mem_map_of_mem (List.mem_filter.2 ⟨hr, hhit⟩), sameId_self _⟩

theorem get?_patched {patch : Record} (h : (patch.map Prod.fst).Nodup) (record : Record) (field : String) :
    (patched patch record).get? field = (patch.get? field).or (record.get? field) :=
  Entries.get?_foldl_insert h record field

/-- What the requests with a filter do that has a part of the rows `hit`: a list shows these rows, a deletion
takes them out, and an update patches them in place. -/
structure Hits (db : Database) (store : Store) (name : String) (schema : CollectionSchema) (f : Filter)
    (extras : Projection → Prop) (hit : Record → Bool) : Prop where
  listed : ∀ caller sort projection, (db.scope name schema).checkFields sort.fields = .ok () →
    (db.scope name schema).checkProjection projection = .ok () → extras (projection.union sort.projection) →
    ∃ attach : Record → Record, (∀ r, (attach r).SameColumns schema r) ∧
      ((collection db name schema).list caller { f with sort, page := none } projection).runOn store =
        (.ok ((sort.apply (((store.rows name).filter hit).map attach)).map projection.apply), store)
  deleted : ∀ caller, ((collection db name schema).delete caller f).runOn store =
    (.ok (), store.setRows name ((store.rows name).filter fun r => !hit r))
  updated : ∀ caller patch, (db.scope name schema).checkRecord patch = .ok () →
    (∀ e ∈ patch, (schema.column? e.1).any Column.isReadOnly = false) →
    ((collection db name schema).update caller f patch).runOn store =
      (.ok (), store.setRows name ((store.rows name).map fun r => if hit r then patched patch r else r))

theorem matchingIds_eq_filter {hit : Record → Bool} {base : Record → Record} (hrows : Keyed schema (store.rows name))
    (hbase : ∀ r, (base r).SameColumns schema r)
    (hselect : select db store name schema f .empty = .ok (((store.rows name).filter hit).map base)) :
    matchingIds db store name schema f = .ok (((store.rows name).filter hit).map fun r => r.key schema) := by
  unfold matchingIds
  rw [hselect, Outcome.ok_bind, List.mapM_map]
  refine Outcome.mapM_eq_ok_map fun r hr => ?_
  have hpresent := hrows.present r (List.mem_of_mem_filter hr)
  rw [← (hbase r).key_eq] at hpresent ⊢
  exact Record.id_of_present hpresent

section

variable (caller : Caller)

theorem runOn_list_of_select {sort : Sorting} {projection : Projection} {selected : List Record}
    (hcheck : (db.scope name schema).checkFilter f = .ok ())
    (hsort : (db.scope name schema).checkFields sort.fields = .ok ())
    (hprojection : (db.scope name schema).checkProjection projection = .ok ())
    (hselect : select db store name schema f (projection.union sort.projection) = .ok selected) :
    ((collection db name schema).list caller { f with sort, page := none } projection).runOn store =
      (.ok ((sort.apply selected).map projection.apply), store) := by
  refine (Action.runOn_reading _ _).trans (congrArg (·, store) ?_)
  unfold list Scope.checkPaginated
  dsimp only
  rw [hcheck, hsort, hprojection, hselect]
  rfl

theorem runOn_delete_of_ids {ids : List CompositeId} (hcheck : (db.scope name schema).checkFilter f = .ok ())
    (hids : matchingIds db store name schema f = .ok ids) :
    ((collection db name schema).delete caller f).runOn store =
      (.ok (), store.setRows name ((store.rows name).filter fun r => !isTarget schema ids r)) := by
  refine (runOn_writing _ _ _).trans ?_
  unfold remaining
  rw [hcheck, hids]
  rfl

theorem runOn_update_of_ids {ids : List CompositeId} {patch : Record}
    (hcheck : (db.scope name schema).checkFilter f = .ok ())
    (hpatch : (db.scope name schema).checkRecord patch = .ok ())
    (hwritable : ∀ e ∈ patch, (schema.column? e.1).any Column.isReadOnly = false)
    (hids : matchingIds db store name schema f = .ok ids) :
    ((collection db name schema).update caller f patch).runOn store =
      (.ok (), store.setRows name
        ((store.rows name).map fun r => if isTarget schema ids r then patched patch r else r)) := by
  have hnone : patch.find? (fun e => (schema.column? e.1).any Column.isReadOnly) = none := by
    rw [List.find?_eq_none]
    intro e he
    rw [hwritable e he]
    exact Bool.false_ne_true
  refine (runOn_writing _ _ _).trans ?_
  unfold updated
  dsimp only
  rw [hcheck, hpatch, hnone, hids]
  rfl

end

/-- Where ids are present and distinct, a deletion and an update hit exactly the rows that a list shows with
the same filter, and an update sets exactly the members of its patch. -/
theorem writes_hit_listed (hs : db.schemas.get? name = some schema) (hrows : Keyed schema (store.rows name))
    (hcheck : (db.scope name schema).checkFilter f = .ok ()) (hsegment : checkSegment name schema f = .ok ()) :
    (∃ hit, Hits db store name schema f (Steady db f) hit) ∧
      ∀ patch : Record, (patch.map Prod.fst).Nodup → ∀ (record : Record) (field : String),
        (patched patch record).get? field = (patch.get? field).or (record.get? field) := by
  obtain ⟨base, hattached, hbase⟩ := exists_attached_of_reads store hcheck (reads_empty _)
  let hit (r : Record) : Bool := finds schema f r && f.holds (base r)
  have hids := matchingIds_eq_filter hrows hbase (select_eq_filter hsegment hattached hbase)
  have htarget : ∀ r ∈ store.rows name,
      isTarget schema (((store.rows name).filter hit).map fun r => r.key schema) r = hit r :=
    fun r hr => hrows.isTarget_filter hit hr
  refine ⟨⟨hit, ⟨fun caller sort projection hsort hprojection hsteady => ?_, fun caller => ?_,
    fun caller patch hpatch hwritable => ?_⟩⟩, fun patch h => get?_patched h⟩
  · have hextra : (db.scope name schema).Reads (projection.union sort.projection) :=
      Scope.Reads.union (Scope.checkFields_eq_ok_iff.1 hprojection) (Scope.reads_of_checkFields hsort)
    obtain ⟨g, hg, hcolumns⟩ := exists_attached_of_reads store hcheck hextra
    have hholds := holds_eq_of_attached hs hcheck hextra hsteady hg hattached
    have hselect := select_eq_filter hsegment hg hcolumns
    have hsame : (store.rows name).filter (fun r => finds schema f r && f.holds (g r)) =
        (store.rows name).filter hit :=
      List.filter_congr fun r hr => by rw [hholds r hr]
    rw [hsame] at hselect
    exact ⟨g, hcolumns, runOn_list_of_select caller hcheck hsort hprojection hselect⟩
  · rw [runOn_delete_of_ids caller hcheck hids, List.filter_congr fun r hr => by rw [htarget r hr]]
  · rw [runOn_update_of_ids caller hcheck hpatch hwritable hids,
      List.map_congr_left fun r hr => by rw [htarget r hr]]

/-! ## Copies -/

theorem keyed_stocked {field name : String} {schema : CollectionSchema}
    (hs : (Shelf.database field).schemas.get? name = some schema) :
    Keyed schema ((Shelf.stocked field).rows name) := by
  have hspared : ∀ call ∈ Shelf.stocking, call.SparesKeys (Shelf.database field) := by
    intro call hcall
    simp only [Shelf.stocking, List.mem_cons, List.not_mem_nil, or_false] at hcall
    obtain rfl | rfl | rfl := hcall <;> trivial
  exact keyedStore_run_of_sparesKeys hspared name schema hs

/-- The book is selected by its author, whose key is a column. -/
theorem writes_hit_listed_author :
    let db := Shelf.database "author_id"
    let store := Shelf.stocked "author_id"
    let schema := Shelf.books "author_id"
    let f := Filter.ofCondition (.leaf ⟨"author:id", .equal, .int 7⟩)
    db.schemas.get? "books" = some schema ∧ Keyed schema (store.rows "books") ∧
      (db.scope "books" schema).checkFilter f = .ok () ∧ checkSegment "books" schema f = .ok () ∧
      (∀ extra, Steady db f extra) ∧
      ∃ hit, Hits db store "books" schema f (Steady db f) hit ∧ ∀ r ∈ store.rows "books", hit r = true := by
  intro db store schema f
  have hs : db.schemas.get? "books" = some schema := rfl
  have hcheck : (db.scope "books" schema).checkFilter f = .ok () := by decide +kernel
  have hkeys : db.KeyedByColumns := by decide +kernel
  have hrows : Keyed schema (store.rows "books") := keyed_stocked hs
  obtain ⟨hit, hhit⟩ := (writes_hit_listed hs hrows hcheck rfl).1
  refine ⟨hs, hrows, hcheck, rfl, fun _ => Or.inl hkeys, hit, hhit, ?_⟩
  have hdelete : (((collection db "books" schema).delete default f).runOn store).2.rows "books" = [] := by
    decide +kernel
  rw [hhit.deleted default, Store.rows_setRows_self, List.filter_eq_nil_iff] at hdelete
  simpa using hdelete

/-- The books that have the first document for a copy. -/
def copied : Filter := .ofCondition (.leaf ⟨"copy:id", .equal, .int 1⟩)

/-- A copy that is looked up by the author is found by a list that attaches the author, and not by a deletion
with the same filter. -/
theorem not_writes_hit_listed :
    ¬ ∀ (db : Database) (store : Store) (name : String) (schema : CollectionSchema) (f : Filter),
      db.schemas.get? name = some schema → Keyed schema (store.rows name) →
      (db.scope name schema).checkFilter f = .ok () → checkSegment name schema f = .ok () →
      ∃ hit, Hits db store name schema f (fun _ => True) hit := by
  intro h
  have hs : (Shelf.database "author").schemas.get? "books" = some (Shelf.books "author") := rfl
  obtain ⟨hit, hhit⟩ := h _ (Shelf.stocked "author") _ _ copied hs (keyed_stocked hs) (by decide +kernel) rfl
  obtain ⟨attach, -, hlisted⟩ := hhit.listed default .empty (.ofList ["id", "author:id"]) rfl (by decide +kernel)
    trivial
  have hshown : (((Shelf.stocked "author").rows "books").filter hit).length = 1 := by
    have hlist : (((collection (Shelf.database "author") "books" (Shelf.books "author")).list default
        { copied with sort := .empty, page := none } (.ofList ["id", "author:id"])).runOn
          (Shelf.stocked "author")).1.toOption.map List.length = some 1 := by decide +kernel
    rw [hlisted] at hlist
    simpa [Except.toOption, Sorting.apply] using hlist
  have hspared : (((Shelf.stocked "author").rows "books").filter fun r => !hit r).length = 1 := by
    have hdelete : ((((collection (Shelf.database "author") "books" (Shelf.books "author")).delete default
        copied).runOn (Shelf.stocked "author")).2.rows "books").length = 1 := by decide +kernel
    rw [hhit.deleted default, Store.rows_setRows_self] at hdelete
    exact hdelete
  have hone : ((Shelf.stocked "author").rows "books").length = 1 := by decide +kernel
  have hsplit := List.length_eq_length_filter_add (l := (Shelf.stocked "author").rows "books") hit
  omega

end Memory

end QueryLayer
