import QueryLayer.Proofs.Memory.Fresh

/-! # Records with ids of their own

`Keyed` rows all have an id, and no two of them the same. Creation, deletion and replacement keep rows
keyed whatever their arguments are. An update keeps them so exactly when it is `Separating`: the rows it
hits are keyed after the patch, and none of them gets the id of a row it leaves.
-/
namespace QueryLayer.Memory

structure Keyed (schema : CollectionSchema) (rows : List Record) : Prop where
  present : ∀ r ∈ rows, ∀ v ∈ r.key schema, v ≠ .null
  distinct : rows.Pairwise fun a b => sameId (a.key schema) (b.key schema) = false

/-- No row of the first list has the id of one of the second. -/
def Apart (schema : CollectionSchema) (rows others : List Record) : Prop :=
  ∀ a ∈ rows, ∀ b ∈ others, sameId (a.key schema) (b.key schema) = false

namespace Keyed

variable {schema : CollectionSchema} {rows others : List Record}

theorem nil : Keyed schema [] := ⟨by simp, .nil⟩

theorem append_iff :
    Keyed schema (rows ++ others) ↔ Keyed schema rows ∧ Keyed schema others ∧ Apart schema rows others := by
  constructor
  · intro h
    obtain ⟨hrows, hothers, hapart⟩ := List.pairwise_append.1 h.distinct
    exact ⟨⟨fun r hr => h.present r (List.mem_append_left _ hr), hrows⟩,
      ⟨fun r hr => h.present r (List.mem_append_right _ hr), hothers⟩, hapart⟩
  · rintro ⟨hrows, hothers, hapart⟩
    refine ⟨fun r hr => ?_, List.pairwise_append.2 ⟨hrows.distinct, hothers.distinct, hapart⟩⟩
    rcases List.mem_append.1 hr with hr | hr
    · exact hrows.present r hr
    · exact hothers.present r hr

theorem perm_iff (h : rows.Perm others) : Keyed schema rows ↔ Keyed schema others := by
  have hsymm : ∀ {a b : Record}, sameId (a.key schema) (b.key schema) = false →
      sameId (b.key schema) (a.key schema) = false := by
    intro a b hab
    rw [sameId_comm]
    exact hab
  constructor
  · intro hk
    exact ⟨fun r hr => hk.present r (h.mem_iff.2 hr), (h.pairwise_iff hsymm).1 hk.distinct⟩
  · intro hk
    exact ⟨fun r hr => hk.present r (h.mem_iff.1 hr), (h.pairwise_iff hsymm).2 hk.distinct⟩

theorem tail {r : Record} (h : Keyed schema (r :: rows)) : Keyed schema rows :=
  ⟨fun a ha => h.present a (List.mem_cons_of_mem _ ha), (List.pairwise_cons.1 h.distinct).2⟩

theorem filter (h : Keyed schema rows) (p : Record → Bool) : Keyed schema (rows.filter p) :=
  ⟨fun r hr => h.present r (List.mem_of_mem_filter hr), h.distinct.filter p⟩

theorem id_eq (h : Keyed schema rows) {r : Record} (hr : r ∈ rows) :
    r.id schema = .ok (r.key schema) := Record.id_of_present (h.present r hr)

theorem idsOf_eq (h : Keyed schema rows) : idsOf schema rows = rows.map fun r => r.key schema := by
  induction rows with
  | nil => rfl
  | cons r rest ih =>
    rw [idsOf, List.filterMap_cons, h.id_eq List.mem_cons_self]
    exact congrArg (r.key schema :: ·) (ih h.tail)

/-- Rows with one id are one row. -/
theorem eq_of_sameId (h : Keyed schema rows) {a b : Record} (ha : a ∈ rows) (hb : b ∈ rows)
    (hab : sameId (a.key schema) (b.key schema) = true) : a = b := by
  by_contra hne
  have hsymm : Std.Symm fun a b : Record => sameId (a.key schema) (b.key schema) = false := by
    refine ⟨fun a b hab => ?_⟩
    rw [sameId_comm]
    exact hab
  have hdiff := h.distinct.forall ha hb hne
  rw [hab] at hdiff
  cases hdiff

end Keyed

theorem isTarget_of_present {schema : CollectionSchema} {r : Record}
    (h : ∀ v ∈ r.key schema, v ≠ .null) (ids : List CompositeId) :
    isTarget schema ids r = hasId ids (r.key schema) := by
  rw [isTarget, Record.id_of_present h]

/-! ## Creation -/

theorem keyed_assign {schema : CollectionSchema} {key? : Option String} {records created : List Record}
    {ids : List CompositeId} {next : Int} (h : assign schema key? records ids next = .ok created) :
    Keyed schema created ∧ ∀ r ∈ created, ∀ i ∈ ids, sameId i (r.key schema) = false := by
  obtain ⟨-, hpresent, hfresh⟩ := assign_eq_ok_iff.1 h
  refine ⟨⟨hpresent, List.pairwise_map.1 hfresh.distinct⟩, fun r hr => ?_⟩
  exact hasId_eq_false_iff.1 (hfresh.apart _ (List.mem_map_of_mem hr))

theorem keyed_creation {scope : Scope} {stored records created : List Record}
    (hstored : Keyed scope.schema stored) (h : creation scope stored records = .ok created) :
    Keyed scope.schema (stored ++ created) := by
  obtain ⟨prepared, _, h⟩ := Outcome.bind_eq_ok_iff.1 h
  obtain ⟨hcreated, hfresh⟩ := keyed_assign h
  refine Keyed.append_iff.2 ⟨hstored, hcreated, fun a ha b hb => ?_⟩
  refine hfresh b hb _ ?_
  rw [hstored.idsOf_eq]
  exact List.mem_map_of_mem ha

/-! ## Replacement -/

theorem mem_upsert {schema : CollectionSchema} {record r : Record} {id : CompositeId}
    {rows : List Record} (h : r ∈ upsert schema record id rows) : r = record ∨ r ∈ rows := by
  induction rows with
  | nil => exact Or.inl (List.mem_singleton.1 h)
  | cons first rest ih =>
    unfold upsert at h
    split at h
    · rcases List.mem_cons.1 h with h | h
      · exact Or.inl h
      · exact Or.inr (List.mem_cons_of_mem _ h)
    · rcases List.mem_cons.1 h with rfl | h
      · exact Or.inr List.mem_cons_self
      · rcases ih h with h | h
        · exact Or.inl h
        · exact Or.inr (List.mem_cons_of_mem _ h)

theorem keyed_upsert {schema : CollectionSchema} {record : Record} {rows : List Record}
    (hrecord : ∀ v ∈ record.key schema, v ≠ .null) (h : Keyed schema rows) :
    Keyed schema (upsert schema record (record.key schema) rows) := by
  induction rows with
  | nil => exact ⟨by simpa [upsert] using hrecord, by simp [upsert]⟩
  | cons first rest ih =>
    have hfirst := h.present first List.mem_cons_self
    obtain ⟨hapart, _⟩ := List.pairwise_cons.1 h.distinct
    have hrest := h.tail
    unfold upsert
    rw [isTarget_of_present hfirst]
    split
    · next hsame =>
      have hsame : sameId (record.key schema) (first.key schema) = true := by simpa [hasId] using hsame
      refine ⟨fun r hr => ?_, .cons (fun r hr => ?_) hrest.distinct⟩
      · rcases List.mem_cons.1 hr with rfl | hr
        · exact hrecord
        · exact hrest.present r hr
      · refine Bool.eq_false_iff.2 fun heq => ?_
        rw [sameId_comm] at hsame
        have hboth := sameId_trans hsame heq
        rw [hapart r hr] at hboth
        cases hboth
    · next hdiff =>
      have hdiff : sameId (record.key schema) (first.key schema) = false := by
        simpa [hasId] using hdiff
      have hupsert := ih hrest
      refine ⟨fun r hr => ?_, .cons (fun r hr => ?_) hupsert.distinct⟩
      · rcases List.mem_cons.1 hr with rfl | hr
        · exact hfirst
        · exact hupsert.present r hr
      · rcases mem_upsert hr with rfl | hr
        · rw [sameId_comm]
          exact hdiff
        · exact hapart r hr

theorem keyed_foldl_upsert {schema : CollectionSchema} {records rows : List Record}
    {ids : List CompositeId} (hids : List.Forall₂ (fun r id => r.id schema = .ok id) records ids)
    (h : Keyed schema rows) :
    Keyed schema ((records.zip ids).foldl (fun out e => upsert schema e.1 e.2 out) rows) := by
  induction hids generalizing rows with
  | nil => exact h
  | cons hid _ ih =>
    obtain ⟨rfl, hpresent⟩ := Record.id_eq_ok_iff.1 hid
    exact ih (keyed_upsert hpresent h)

theorem keyed_replaced {scope : Scope} {stored records rows : List Record}
    (hstored : Keyed scope.schema stored) (h : replaced scope stored records = .ok rows) :
    Keyed scope.schema rows := by
  obtain ⟨prepared, _, h⟩ := Outcome.bind_eq_ok_iff.1 h
  obtain ⟨ids, hids, h⟩ := Outcome.bind_eq_ok_iff.1 h
  cases h
  exact keyed_foldl_upsert (Outcome.mapM_eq_ok_iff.1 hids) hstored

/-! ## Deletion -/

theorem keyed_remaining {db : Database} {store : Store} {name : String} {schema : CollectionSchema}
    {filter : Filter} {rows : List Record} (hstored : Keyed schema (store.rows name))
    (h : remaining db store name schema filter = .ok rows) : Keyed schema rows := by
  obtain ⟨_, h⟩ := Outcome.seq_eq_ok_iff.1 h
  obtain ⟨ids, _, h⟩ := Outcome.bind_eq_ok_iff.1 h
  cases h
  exact hstored.filter _

/-! ## Update -/

theorem get?_patched_of_notMem {patch : Record} {name : String} (h : name ∉ patch.map Prod.fst)
    (record : Record) : (patched patch record).get? name = record.get? name := by
  unfold patched
  induction patch generalizing record with
  | nil => rfl
  | cons e rest ih =>
    rw [List.map_cons, List.mem_cons, not_or] at h
    rw [List.foldl_cons, ih h.2]
    exact Entries.get?_insert_of_ne (Ne.symm h.1) _ _

theorem key_patched {schema : CollectionSchema} {patch : Record}
    (h : ∀ pk ∈ schema.primaryKeys, pk ∉ patch.map Prod.fst) (record : Record) :
    (patched patch record).key schema = record.key schema :=
  Record.key_congr fun pk hpk => get?_patched_of_notMem (h pk hpk) record

/-- The rows with one of the ids are keyed after the patch, apart from the other rows. -/
structure Separating (schema : CollectionSchema) (ids : List CompositeId) (patch : Record)
    (rows : List Record) : Prop where
  hit : Keyed schema ((rows.filter (isTarget schema ids)).map (patched patch))
  apart : Apart schema ((rows.filter (isTarget schema ids)).map (patched patch))
    (rows.filter fun r => !isTarget schema ids r)

theorem perm_patched (schema : CollectionSchema) (ids : List CompositeId) (patch : Record)
    (rows : List Record) :
    (rows.map fun r => if isTarget schema ids r then patched patch r else r).Perm
      ((rows.filter (isTarget schema ids)).map (patched patch) ++
        rows.filter fun r => !isTarget schema ids r) := by
  have hsplit := ((List.filter_append_perm (isTarget schema ids) rows).symm.map
    fun r => if isTarget schema ids r then patched patch r else r)
  rw [List.map_append] at hsplit
  have hhit : (rows.filter (isTarget schema ids)).map
      (fun r => if isTarget schema ids r then patched patch r else r) =
        (rows.filter (isTarget schema ids)).map (patched patch) := by
    refine List.map_congr_left fun r hr => ?_
    rw [if_pos (List.mem_filter.1 hr).2]
  have hspared : (rows.filter fun r => !isTarget schema ids r).map
      (fun r => if isTarget schema ids r then patched patch r else r) =
        rows.filter fun r => !isTarget schema ids r := by
    refine (List.map_congr_left fun r hr => ?_).trans (List.map_id _)
    have hr := (List.mem_filter.1 hr).2
    rw [if_neg (by simpa using hr)]
    rfl
  rw [hhit, hspared] at hsplit
  exact hsplit

theorem keyed_patched_iff {schema : CollectionSchema} {ids : List CompositeId} {patch : Record}
    {rows : List Record} (h : Keyed schema rows) :
    Keyed schema (rows.map fun r => if isTarget schema ids r then patched patch r else r) ↔
      Separating schema ids patch rows := by
  rw [Keyed.perm_iff (perm_patched schema ids patch rows), Keyed.append_iff]
  constructor
  · rintro ⟨hhit, _, hapart⟩
    exact ⟨hhit, hapart⟩
  · intro hs
    exact ⟨hs.hit, h.filter _, hs.apart⟩

theorem Keyed.map_of_key_eq {schema : CollectionSchema} {rows : List Record} (h : Keyed schema rows)
    {f : Record → Record} (hf : ∀ r ∈ rows, (f r).key schema = r.key schema) :
    Keyed schema (rows.map f) := by
  constructor
  · intro r hr
    obtain ⟨a, ha, rfl⟩ := List.mem_map.1 hr
    rw [hf a ha]
    exact h.present a ha
  · rw [List.pairwise_map]
    refine h.distinct.imp_of_mem fun {a b} ha hb hab => ?_
    rw [hf a ha, hf b hb]
    exact hab

/-- A patch without primary keys leaves every id as it is. -/
theorem separating_of_spared {schema : CollectionSchema} {ids : List CompositeId} {patch : Record}
    {rows : List Record} (h : Keyed schema rows)
    (hspared : ∀ pk ∈ schema.primaryKeys, pk ∉ patch.map Prod.fst) :
    Separating schema ids patch rows := by
  refine (keyed_patched_iff h).1 (h.map_of_key_eq fun r _ => ?_)
  split
  · exact key_patched hspared r
  · rfl

theorem updated_eq_ok {db : Database} {store : Store} {name : String} {schema : CollectionSchema}
    {filter : Filter} {patch : Record} {rows : List Record}
    (h : updated db store name schema filter patch = .ok rows) :
    ∃ ids, matchingIds db store name schema filter = .ok ids ∧
      rows = (store.rows name).map fun r => if isTarget schema ids r then patched patch r else r := by
  obtain ⟨_, h⟩ := Outcome.seq_eq_ok_iff.1 h
  obtain ⟨_, h⟩ := Outcome.seq_eq_ok_iff.1 h
  split at h
  · cases h
  · obtain ⟨ids, hids, h⟩ := Outcome.bind_eq_ok_iff.1 h
    cases h
    exact ⟨ids, hids, rfl⟩

/-! ## Runs -/

/-- The rows of every collection are keyed. -/
def KeyedStore (db : Database) (store : Store) : Prop :=
  ∀ name schema, db.schemas.get? name = some schema → Keyed schema (store.rows name)

namespace Call

/-- What has to hold of a call for it to keep the rows keyed: nothing, but of an accepted update. -/
def Separates (db : Database) (store : Store) : Call → Prop
  | update _ name filter patch => ∀ schema ids rows, db.schemas.get? name = some schema →
    updated db store name schema filter patch = .ok rows →
    matchingIds db store name schema filter = .ok ids → Separating schema ids patch (store.rows name)
  | _ => True

/-- No primary key is patched. -/
def SparesKeys (db : Database) : Call → Prop
  | update _ name _ patch => ∀ schema, db.schemas.get? name = some schema →
    ∀ pk ∈ schema.primaryKeys, pk ∉ patch.map Prod.fst
  | _ => True

end Call

theorem keyedStore_setRows_iff {db : Database} {store : Store} {name : String}
    {schema : CollectionSchema} {rows : List Record} (h : KeyedStore db store)
    (hs : db.schemas.get? name = some schema) :
    KeyedStore db (store.setRows name rows) ↔ Keyed schema rows := by
  constructor
  · intro hk
    simpa using hk name schema hs
  · intro hk other schema' hs'
    by_cases hne : name = other
    · subst hne
      rw [hs] at hs'
      cases hs'
      simpa using hk
    · rw [Store.rows_setRows_of_ne _ hne]
      exact h other schema' hs'

theorem keyedStore_after_iff {db : Database} {store : Store} (h : KeyedStore db store) (call : Call) :
    KeyedStore db (after db store call) ↔ call.Separates db store := by
  constructor
  · intro hafter
    cases call with
    | update caller name filter patch =>
      intro schema ids rows hs hupdated hids
      have hstore : after db store (.update caller name filter patch) = store.setRows name rows := by
        rw [after_update hs, Memory.update, runOn_writing, hupdated]
        rfl
      rw [hstore, keyedStore_setRows_iff h hs] at hafter
      obtain ⟨ids', hids', rfl⟩ := updated_eq_ok hupdated
      rw [hids] at hids'
      cases hids'
      exact (keyed_patched_iff (h name schema hs)).1 hafter
    | create caller name records => trivial
    | delete caller name filter => trivial
    | replaceRecords name records => trivial
  · intro hcall
    obtain hsame | ⟨name, schema, rows, hs, hwritten, hafter⟩ := after_cases db store call
    · rw [hsame]
      exact h
    · rw [hafter, keyedStore_setRows_iff h hs]
      have hstored : Keyed (db.scope name schema).schema (store.rows name) := h name schema hs
      cases hwritten with
      | create hcreated => exact keyed_creation hstored hcreated
      | update hupdated =>
        obtain ⟨ids, hids, rfl⟩ := updated_eq_ok hupdated
        exact (keyed_patched_iff hstored).2 (hcall schema ids _ hs hupdated hids)
      | delete hremaining => exact keyed_remaining hstored hremaining
      | replaceRecords hreplaced => exact keyed_replaced hstored hreplaced

theorem separates_of_sparesKeys {db : Database} {store : Store} {call : Call} (h : KeyedStore db store)
    (hcall : call.SparesKeys db) : call.Separates db store := by
  cases call with
  | update caller name filter patch =>
    intro schema ids rows hs _ _
    exact separating_of_spared (h name schema hs) (hcall schema hs)
  | create caller name records => trivial
  | delete caller name filter => trivial
  | replaceRecords name records => trivial

theorem keyedStore_emptyStore (db : Database) : KeyedStore db db.emptyStore := by
  intro name schema _
  rw [rows_emptyStore]
  exact .nil

theorem keyedStore_run_of_separates {db : Database} {calls : List Call}
    (h : ∀ before call, before ++ [call] <+: calls → call.Separates db (run db before)) :
    KeyedStore db (run db calls) := by
  induction calls using List.reverseRecOn with
  | nil => exact keyedStore_emptyStore db
  | append_singleton calls call ih =>
    have hcalls := ih fun before c hbegins => h before c (hbegins.trans (List.prefix_append _ _))
    rw [run_append_singleton]
    exact (keyedStore_after_iff hcalls call).2 (h calls call (List.prefix_refl _))

theorem keyedStore_run_of_sparesKeys {db : Database} {calls : List Call}
    (h : ∀ call ∈ calls, call.SparesKeys db) : KeyedStore db (run db calls) := by
  induction calls using List.reverseRecOn with
  | nil => exact keyedStore_emptyStore db
  | append_singleton calls call ih =>
    have hcalls := ih fun c hc => h c (List.mem_append_left _ hc)
    rw [run_append_singleton]
    exact (keyedStore_after_iff hcalls call).2 (separates_of_sparesKeys hcalls (h call (by simp)))

/-- The rows are keyed all along a run exactly when every update accepted in it is separating, which
those that patch no primary key are. -/
theorem keyed_throughout_iff (db : Database) (calls : List Call) :
    ((∀ before, before <+: calls → KeyedStore db (run db before)) ↔
      ∀ before call, before ++ [call] <+: calls → call.Separates db (run db before)) ∧
    ((∀ call ∈ calls, call.SparesKeys db) → KeyedStore db (run db calls)) := by
  refine ⟨⟨fun h before call hbegins => ?_, fun h before hbegins => ?_⟩, keyedStore_run_of_sparesKeys⟩
  · have hbefore := h before ((List.prefix_append before [call]).trans hbegins)
    have hafter := h _ hbegins
    rw [run_append_singleton] at hafter
    exact (keyedStore_after_iff hbefore call).1 hafter
  · exact keyedStore_run_of_separates fun b c hbc => h b c (hbc.trans hbegins)

/-! ## An update that merges ids -/

/-- One collection, whose key is a number. -/
def numbered : Database :=
  let key := Column.primaryKey (.ofType .number)
  ⟨Dict.empty.insert "a" (CollectionSchema.empty.withField "id" (.column key)), ∅⟩

/-- Two records are created, and then both get the id of the first. -/
def merging : List Call :=
  [.create default "a" [[("id", .int 1)], [("id", .int 2)]],
    .update default "a" .empty [("id", .int 1)]]

theorem rows_run_merging :
    (run numbered merging).rows "a" = [[("id", .int 1)], [("id", .int 1)]] := by decide +kernel

theorem not_keyedStore_run_merging :
    ¬ ∀ db calls, (∀ name schema, db.schemas.get? name = some schema → schema.primaryKeys ≠ []) →
      KeyedStore db (run db calls) := by
  intro h
  have hkeys : ∀ name schema, numbered.schemas.get? name = some schema → schema.primaryKeys ≠ [] := by
    intro name schema hs
    have hmem := Dict.get?_eq_some_iff.1 hs
    obtain rfl := (Prod.mk.inj (List.mem_singleton.1 hmem)).2
    decide
  have hkeyed := (h numbered merging hkeys "a" _ rfl).distinct
  rw [rows_run_merging] at hkeyed
  have hdiff := (List.pairwise_cons.1 hkeyed).1 _ List.mem_cons_self
  rw [sameId_self] at hdiff
  cases hdiff

end QueryLayer.Memory
