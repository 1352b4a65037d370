import Mathlib.Data.List.Nodup
import QueryLayer.Proofs.Memory.ById
import QueryLayer.Proofs.Memory.Fitting

/-! # Rows looked up by their ids

`rowOf` is the row with an id. Of keyed rows it tells all but the order. A record that is put in answers
its own id from then on, and many of them the ids that they had last: `rowOf_upsertAll`. Rows that stay
keep their places, and new ones come behind them: `upsertAll_eq`.
-/
namespace QueryLayer

theorem sameId_congr_right {a b : CompositeId} (h : sameId a b = true) (id : CompositeId) :
    sameId id a = sameId id b :=
  Bool.eq_iff_iff.2 ⟨fun ha => sameId_trans ha h, fun hb => sameId_trans hb ((sameId_comm b a).trans h)⟩

theorem sameId_congr_left {a b : CompositeId} (h : sameId a b = true) (id : CompositeId) :
    sameId a id = sameId b id := by
  rw [sameId_comm a, sameId_comm b]
  exact sameId_congr_right h id

namespace Memory

/-- The row with an id, if there is one. -/
def rowOf (schema : CollectionSchema) (rows : List Record) (id : CompositeId) : Option Record :=
  rows.find? fun r => sameId (r.key schema) id

variable {schema : CollectionSchema} {rows others records : List Record} {record r : Record}
  {id other : CompositeId}

@[simp] theorem rowOf_nil : rowOf schema [] id = none := rfl

theorem rowOf_cons : rowOf schema (r :: rows) id =
    if sameId (r.key schema) id = true then some r else rowOf schema rows id := by
  unfold rowOf
  rw [List.find?_cons]
  cases sameId (r.key schema) id <;> rfl

theorem rowOf_append : rowOf schema (rows ++ others) id = (rowOf schema rows id).or (rowOf schema others id) :=
  List.find?_append

theorem rowOf_congr (h : sameId id other = true) (rows : List Record) :
    rowOf schema rows id = rowOf schema rows other := by
  unfold rowOf
  simp only [sameId_congr_right h]

theorem rowOf_eq_none_iff : rowOf schema rows id = none ↔ ∀ r ∈ rows, sameId (r.key schema) id = false := by
  simp [rowOf]

theorem mem_of_rowOf (h : rowOf schema rows id = some r) : r ∈ rows := List.mem_of_find?_eq_some h

theorem sameId_of_rowOf (h : rowOf schema rows id = some r) : sameId (r.key schema) id = true := by
  have hfound := List.find?_some h
  exact hfound

/-- What a property of ids leaves of the rows. -/
theorem rowOf_filter {p : CompositeId → Bool} (hp : ∀ a b, sameId a b = true → p a = p b) :
    rowOf schema (rows.filter fun r => p (r.key schema)) id =
      if p id = true then rowOf schema rows id else none := by
  have hsame : ∀ r : Record, (p (r.key schema) && sameId (r.key schema) id) =
      (p id && sameId (r.key schema) id) := by
    intro r
    cases hr : sameId (r.key schema) id with
    | false => simp
    | true => rw [hp _ _ hr]
  unfold rowOf
  simp only [List.find?_filter, Bool.decide_and, Bool.decide_eq_true, hsame]
  cases p id <;> simp

/-- Changing rows without their ids. -/
theorem rowOf_map {f : Record → Record} (hf : ∀ r ∈ rows, (f r).key schema = r.key schema) :
    rowOf schema (rows.map f) id = (rowOf schema rows id).map f := by
  induction rows with
  | nil => rfl
  | cons first rest ih =>
    rw [List.map_cons, rowOf_cons, rowOf_cons, hf first List.mem_cons_self,
      ih fun r hr => hf r (List.mem_cons_of_mem _ hr)]
    split <;> rfl

namespace Keyed

theorem rowOf_eq_some_iff (h : Keyed schema rows) :
    rowOf schema rows id = some r ↔ r ∈ rows ∧ sameId (r.key schema) id = true := by
  constructor
  · exact fun hr => ⟨mem_of_rowOf hr, sameId_of_rowOf hr⟩
  · rintro ⟨hmem, hsame⟩
    cases hrow : rowOf schema rows id with
    | none =>
      rw [rowOf_eq_none_iff.1 hrow r hmem] at hsame
      cases hsame
    | some row =>
      have hboth : sameId (row.key schema) (r.key schema) = true :=
        (sameId_congr_right hsame _).trans (sameId_of_rowOf hrow)
      rw [h.eq_of_sameId (mem_of_rowOf hrow) hmem hboth]

theorem mem_iff (h : Keyed schema rows) : r ∈ rows ↔ rowOf schema rows (r.key schema) = some r := by
  rw [h.rowOf_eq_some_iff, sameId_self, and_iff_left rfl]

theorem nodup (h : Keyed schema rows) : rows.Nodup := by
  refine h.distinct.imp fun {a b} hab heq => ?_
  rw [heq, sameId_self] at hab
  cases hab

theorem rowOf_perm (h : Keyed schema rows) (hperm : rows.Perm others) (id : CompositeId) :
    rowOf schema rows id = rowOf schema others id := by
  refine Option.ext fun r => ?_
  rw [h.rowOf_eq_some_iff, ((perm_iff hperm).1 h).rowOf_eq_some_iff, hperm.mem_iff]

/-- Rows that answer every id alike differ in their order only. -/
theorem perm_of_rowOf (h : Keyed schema rows) (hothers : Keyed schema others)
    (heq : ∀ id, rowOf schema rows id = rowOf schema others id) : rows.Perm others := by
  refine (List.perm_ext_iff_of_nodup h.nodup hothers.nodup).2 fun r => ?_
  rw [h.mem_iff, hothers.mem_iff, heq]

end Keyed

/-! ## Putting records in -/

/-- The row with the id of the record gives way to it; if there is none, the record comes last. -/
theorem upsert_eq (h : Keyed schema rows) (record : Record) :
    upsert schema record (record.key schema) rows =
      (rows.map fun r => if sameId (r.key schema) (record.key schema) = true then record else r) ++
        if (rowOf schema rows (record.key schema)).isSome then [] else [record] := by
  induction rows with
  | nil => rfl
  | cons first rest ih =>
    have hapart := (List.pairwise_cons.1 h.distinct).1
    rw [upsert, isTarget_of_present (h.present first List.mem_cons_self), hasId, List.any_cons,
      List.any_nil, Bool.or_false, sameId_comm, rowOf_cons, List.map_cons]
    by_cases hfirst : sameId (first.key schema) (record.key schema) = true
    · have hrest : rest.map (fun r => if sameId (r.key schema) (record.key schema) = true then record
          else r) = rest := by
        refine (List.map_congr_left fun r hr => if_neg fun hsame => ?_).trans (List.map_id rest)
        have hboth := (sameId_congr_right hsame (first.key schema)).trans hfirst
        rw [hapart r hr] at hboth
        cases hboth
      simp [hfirst, hrest]
    · simp only [if_neg hfirst, ih h.tail, List.cons_append]

theorem rowOf_upsert (h : Keyed schema rows) (record : Record) (id : CompositeId) :
    rowOf schema (upsert schema record (record.key schema) rows) id =
      if sameId (record.key schema) id = true then some record else rowOf schema rows id := by
  induction rows with
  | nil => exact rowOf_cons
  | cons first rest ih =>
    rw [upsert, isTarget_of_present (h.present first List.mem_cons_self), hasId, List.any_cons,
      List.any_nil, Bool.or_false]
    by_cases hfirst : sameId (record.key schema) (first.key schema) = true
    · rw [if_pos hfirst, rowOf_cons, rowOf_cons, sameId_congr_left hfirst]
      by_cases hid : sameId (first.key schema) id = true <;> simp [hid]
    · rw [if_neg hfirst, rowOf_cons, rowOf_cons, ih h.tail]
      by_cases hid : sameId (first.key schema) id = true
      · have hrecord : ¬ sameId (record.key schema) id = true := by
          rw [← sameId_congr_right hid]
          exact hfirst
        rw [if_pos hid, if_neg hrecord, if_pos hid]
      · rw [if_neg hid, if_neg hid]

/-- Puts records in one after the other. -/
def upsertAll (schema : CollectionSchema) (records rows : List Record) : List Record :=
  records.foldl (fun out r => upsert schema r (r.key schema) out) rows

/-- The last one of the records with an id. -/
def lastOf (schema : CollectionSchema) (records : List Record) (id : CompositeId) : Option Record :=
  rowOf schema records.reverse id

theorem lastOf_cons : lastOf schema (record :: records) id =
    (lastOf schema records id).or (if sameId (record.key schema) id = true then some record else none) := by
  rw [lastOf, List.reverse_cons, rowOf_append, rowOf_cons, rowOf_nil]
  rfl

theorem lastOf_concat : lastOf schema (records ++ [record]) id =
    if sameId (record.key schema) id = true then some record else lastOf schema records id := by
  rw [lastOf, List.reverse_append, List.reverse_singleton, List.singleton_append, rowOf_cons]
  rfl

theorem lastOf_eq_none_iff :
    lastOf schema records id = none ↔ ∀ r ∈ records, sameId (r.key schema) id = false := by
  simp [lastOf, rowOf_eq_none_iff]

theorem lastOf_map {f : Record → Record} (hf : ∀ r ∈ records, (f r).key schema = r.key schema) :
    lastOf schema (records.map f) id = (lastOf schema records id).map f := by
  rw [lastOf, ← List.map_reverse]
  exact rowOf_map fun r hr => hf r (List.mem_reverse.1 hr)

theorem upsertAll_cons : upsertAll schema (record :: records) rows =
    upsertAll schema records (upsert schema record (record.key schema) rows) := rfl

theorem mem_upsertAll (h : r ∈ upsertAll schema records rows) : r ∈ records ∨ r ∈ rows := by
  induction records generalizing rows with
  | nil => exact Or.inr h
  | cons record rest ih =>
    rcases ih h with h | h
    · exact Or.inl (List.mem_cons_of_mem _ h)
    · rcases mem_upsert h with rfl | h
      · exact Or.inl List.mem_cons_self
      · exact Or.inr h

/-- The first record of each id that no known row has, in the order in which these ids appear. -/
def newcomers (schema : CollectionSchema) : List Record → List Record → List Record
  | _, [] => []
  | known, r :: rest =>
    (if (rowOf schema known (r.key schema)).isSome then [] else [r]) ++ newcomers schema (known ++ [r]) rest

/-- Of the known rows only the ids count. -/
theorem newcomers_congr {known : List Record}
    (h : ∀ id, (rowOf schema known id).isSome = (rowOf schema others id).isSome) :
    newcomers schema known records = newcomers schema others records := by
  induction records generalizing known others with
  | nil => rfl
  | cons r rest ih =>
    rw [newcomers, newcomers, h, ih fun id => ?_]
    rw [rowOf_append, rowOf_append, Option.isSome_or, Option.isSome_or, h]

theorem mem_newcomers {known : List Record} (h : r ∈ newcomers schema known records) :
    r ∈ records ∧ rowOf schema known (r.key schema) = none := by
  induction records generalizing known with
  | nil => cases h
  | cons first rest ih =>
    rcases List.mem_append.1 h with h | h
    · split at h
      · cases h
      · next hfirst =>
        cases List.mem_singleton.1 h
        exact ⟨List.mem_cons_self, Option.not_isSome_iff_eq_none.1 hfirst⟩
    · obtain ⟨hmem, hnone⟩ := ih h
      rw [rowOf_append, Option.or_eq_none_iff] at hnone
      exact ⟨List.mem_cons_of_mem _ hmem, hnone.1⟩

section

variable (hrecords : ∀ r ∈ records, ∀ v ∈ r.key schema, v ≠ .null) (h : Keyed schema rows)
include hrecords h

theorem keyed_upsertAll : Keyed schema (upsertAll schema records rows) := by
  induction records generalizing rows with
  | nil => exact h
  | cons record rest ih =>
    exact ih (fun r hr => hrecords r (List.mem_cons_of_mem _ hr))
      (keyed_upsert (hrecords record List.mem_cons_self) h)

theorem rowOf_upsertAll (id : CompositeId) :
    rowOf schema (upsertAll schema records rows) id =
      (lastOf schema records id).or (rowOf schema rows id) := by
  induction records generalizing rows with
  | nil => rfl
  | cons record rest ih =>
    have hrest : ∀ r ∈ rest, ∀ v ∈ r.key schema, v ≠ .null :=
      fun r hr => hrecords r (List.mem_cons_of_mem _ hr)
    have hupsert := keyed_upsert (hrecords record List.mem_cons_self) h
    rw [upsertAll_cons, ih hrest hupsert, rowOf_upsert h, lastOf_cons, Option.or_assoc]
    by_cases hid : sameId (record.key schema) id = true <;> simp [hid]

/-- Rows whose ids occur among the records take the last one with theirs, in place; so do the ids that are new,
behind the rows. -/
theorem upsertAll_eq : upsertAll schema records rows = (rows ++ newcomers schema rows records).map fun r =>
    (lastOf schema records (r.key schema)).getD r := by
  induction records generalizing rows with
  | nil => simp [upsertAll, newcomers, lastOf]
  | cons record rest ih =>
    have hrest : ∀ r ∈ rest, ∀ v ∈ r.key schema, v ≠ .null :=
      fun r hr => hrecords r (List.mem_cons_of_mem _ hr)
    have hknown : ∀ id, (rowOf schema (upsert schema record (record.key schema) rows) id).isSome =
        (rowOf schema (rows ++ [record]) id).isSome := by
      intro id
      rw [rowOf_upsert h, rowOf_append, rowOf_cons, rowOf_nil]
      cases sameId (record.key schema) id <;> simp
    have hrow : ∀ r : Record, (lastOf schema rest ((if sameId (r.key schema) (record.key schema) = true
          then record else r).key schema)).getD
          (if sameId (r.key schema) (record.key schema) = true then record else r) =
        (lastOf schema (record :: rest) (r.key schema)).getD r := by
      intro r
      rw [lastOf_cons, sameId_comm (record.key schema)]
      by_cases hsame : sameId (r.key schema) (record.key schema) = true
      · rw [if_pos hsame, if_pos hsame, lastOf, lastOf, rowOf_congr hsame]
        cases rowOf schema rest.reverse (record.key schema) <;> rfl
      · rw [if_neg hsame, if_neg hsame, Option.or_none]
    have hself : (lastOf schema rest (record.key schema)).getD record =
        (lastOf schema (record :: rest) (record.key schema)).getD record := by
      have hrecord := hrow record
      rwa [if_pos (sameId_self _)] at hrecord
    -- a newcomer behind the record has another id
    have hnew : ∀ a ∈ newcomers schema (rows ++ [record]) rest,
        (lastOf schema rest (a.key schema)).getD a =
          (lastOf schema (record :: rest) (a.key schema)).getD a := by
      intro a ha
      have hnone := (mem_newcomers ha).2
      rw [rowOf_append, Option.or_eq_none_iff] at hnone
      rw [lastOf_cons, rowOf_eq_none_iff.1 hnone.2 record List.mem_cons_self, if_neg Bool.false_ne_true,
        Option.or_none]
    rw [upsertAll_cons, ih hrest (keyed_upsert (hrecords record List.mem_cons_self) h),
      newcomers_congr hknown, upsert_eq h, newcomers]
    simp only [List.map_append, List.map_map, List.append_assoc]
    rw [List.map_congr_left hnew]
    refine congrArg₂ (· ++ ·) (List.map_congr_left fun r _ => hrow r) (congrArg (· ++ _) ?_)
    split
    · rfl
    · exact congrArg ([·]) hself

/-- Rows keep their places, and ids that are new come behind. -/
theorem exists_upsertAll_eq : ∃ added, upsertAll schema records rows =
      (rows.map fun r => (lastOf schema records (r.key schema)).getD r) ++ added ∧
    ∀ a ∈ added, rowOf schema rows (a.key schema) = none := by
  refine ⟨_, (upsertAll_eq hrecords h).trans List.map_append, fun a ha => ?_⟩
  obtain ⟨first, hfirst, rfl⟩ := List.mem_map.1 ha
  have hnone := (mem_newcomers hfirst).2
  cases hlast : lastOf schema records (first.key schema) with
  | none => exact hnone
  | some last => exact (rowOf_congr (sameId_of_rowOf hlast) rows).trans hnone

end

/-! ## Taking ids out -/

theorem foldl_filter_ids (ids : List CompositeId) (rows : List Record) :
    ids.foldl (fun out id => out.filter fun r => !sameId id (r.key schema)) rows =
      rows.filter fun r => !hasId ids (r.key schema) := by
  induction ids generalizing rows with
  | nil => exact (List.filter_eq_self.2 fun _ _ => rfl).symm
  | cons id rest ih =>
    rw [List.foldl_cons, ih, List.filter_filter]
    refine List.filter_congr fun r _ => ?_
    rw [hasId, hasId, List.any_cons, Bool.not_or, Bool.and_comm]

theorem hasId_congr {ids : List CompositeId} (h : sameId id other = true) : hasId ids id = hasId ids other := by
  unfold hasId
  simp only [sameId_congr_right h]

theorem rowOf_filter_hasId (ids : List CompositeId) :
    rowOf schema (rows.filter fun r => !hasId ids (r.key schema)) id =
      if hasId ids id = true then none else rowOf schema rows id := by
  rw [rowOf_filter (p := fun id => !hasId ids id) fun a b hab => congrArg (!·) (hasId_congr hab)]
  cases hasId ids id <;> rfl

theorem rowOf_filter_id (other id : CompositeId) :
    rowOf schema (rows.filter fun r => !sameId other (r.key schema)) id =
      if sameId other id = true then none else rowOf schema rows id := by
  rw [rowOf_filter (p := fun id => !sameId other id) fun a b hab =>
    congrArg (!·) (sameId_congr_right hab other)]
  cases sameId other id <;> rfl

/-! ## Replacement and deletion by id -/

/-- With its defaults filled in the record fits and has an id. -/
structure Storable (schema : CollectionSchema) (record : Record) : Prop where
  fits : (withDefaults schema record).Fits schema
  present : ∀ v ∈ (withDefaults schema record).key schema, v ≠ .null

theorem present_withDefaults (h : ∀ r ∈ records, Storable schema r) :
    ∀ r ∈ records.map (withDefaults schema), ∀ v ∈ r.key schema, v ≠ .null :=
  List.forall_mem_map.2 fun r hr => (h r hr).present

section

variable {scope : Scope} {stored prepared : List Record}

theorem prepare_eq_ok_iff : prepare scope records = .ok prepared ↔
    (∀ r ∈ records, (withDefaults scope.schema r).Fits scope.schema) ∧
      prepared = records.map (withDefaults scope.schema) := by
  refine Outcome.mapM_eq_ok_map_iff fun r full => ?_
  rw [Outcome.seq_eq_ok_iff, Scope.checkRecord_eq_ok_iff]
  exact and_congr_right fun _ => ⟨fun h => by cases h; rfl, fun h => h ▸ rfl⟩

theorem mapM_id_eq_ok_iff {ids : List CompositeId} : records.mapM (fun r => r.id schema) = .ok ids ↔
    (∀ r ∈ records, ∀ v ∈ r.key schema, v ≠ .null) ∧ ids = records.map fun r => r.key schema :=
  Outcome.mapM_eq_ok_map_iff fun _ _ => Record.id_eq_ok_iff.trans and_comm

/-- Records are put in where all of them are storable. -/
theorem replaced_eq_ok_iff : replaced scope stored records = .ok rows ↔
    (∀ r ∈ records, Storable scope.schema r) ∧
      rows = upsertAll scope.schema (records.map (withDefaults scope.schema)) stored := by
  have hfold : ∀ full : List Record,
      (full.zip (full.map fun r => r.key scope.schema)).foldl
        (fun out e => upsert scope.schema e.1 e.2 out) stored = upsertAll scope.schema full stored := by
    intro full
    rw [← List.map_prod_left_eq_zip, List.foldl_map]
    rfl
  constructor
  · intro h
    obtain ⟨full, hfull, h⟩ := Outcome.bind_eq_ok_iff.1 h
    obtain ⟨hfits, rfl⟩ := prepare_eq_ok_iff.1 hfull
    obtain ⟨ids, hids, h⟩ := Outcome.bind_eq_ok_iff.1 h
    obtain ⟨hpresent, rfl⟩ := mapM_id_eq_ok_iff.1 hids
    cases h
    exact ⟨fun r hr => ⟨hfits r hr, hpresent _ (List.mem_map_of_mem hr)⟩, hfold _⟩
  · rintro ⟨hready, rfl⟩
    refine Outcome.bind_eq_ok_iff.2 ⟨_, prepare_eq_ok_iff.2 ⟨fun r hr => (hready r hr).fits, rfl⟩, ?_⟩
    refine Outcome.bind_eq_ok_iff.2 ⟨_, mapM_id_eq_ok_iff.2 ⟨present_withDefaults hready, rfl⟩, ?_⟩
    exact congrArg Except.ok (hfold _)

end

section

variable {db : Database} {store : Store} {name : String} {t : Condition}
  (hplain : ∀ pk ∈ schema.primaryKeys, Path.Plain pk) (ht : Condition.matchIds schema [id] = .ok t)
include hplain ht

/-- What the condition on an id selects. -/
theorem select_of_matchIds : select db store name schema (.ofCondition t) .empty =
    .ok ((store.rows name).filter fun r => sameId id (r.key schema)) := by
  have hmatches := Condition.matches_of_matchIds ht
  have hfields : ∀ f ∈ (Projection.empty.union t.projection).fields, Path.Plain f := by
    intro f hf
    rcases Projection.mem_union.1 hf with hf | hf
    · cases hf
    · obtain ⟨l, hl, rfl⟩ := List.mem_map.1 (Projection.mem_ofList.1 hf)
      exact hplain _ (hmatches.leaf_cases hl).1
  have hholds : ∀ r : Record, t.holds r = sameId id (r.key schema) := by
    intro r
    rw [hmatches.holds_eq hplain, List.any_cons, List.any_nil, Bool.or_false, sameId_comm]
    rfl
  change (db.hydrate store schema (store.rows name) (Projection.empty.union t.projection) >>= _) = _
  rw [Database.hydrate_of_plain hfields]
  exact congrArg Except.ok (List.filter_congr fun r _ => hholds r)

/-- A deletion by id takes the rows with this id out. -/
theorem remaining_of_matchIds (hcheck : (db.scope name schema).checkCondition t = .ok ())
    (h : Keyed schema (store.rows name)) :
    remaining db store name schema (.ofCondition t) =
      .ok ((store.rows name).filter fun r => !sameId id (r.key schema)) := by
  have hids : matchingIds db store name schema (.ofCondition t) =
      .ok (((store.rows name).filter fun r => sameId id (r.key schema)).map fun r => r.key schema) := by
    rw [matchingIds, select_of_matchIds hplain ht]
    exact mapM_id_eq_ok_iff.2 ⟨fun r hr => h.present r (List.mem_of_mem_filter hr), rfl⟩
  have htarget : ∀ r ∈ store.rows name,
      isTarget schema (((store.rows name).filter fun r => sameId id (r.key schema)).map
        fun r => r.key schema) r = sameId id (r.key schema) := by
    intro r hr
    rw [isTarget_of_present (h.present r hr), Bool.eq_iff_iff, hasId, List.any_map, List.any_eq_true]
    constructor
    · rintro ⟨row, hrow, hsame⟩
      exact sameId_trans (List.mem_filter.1 hrow).2 hsame
    · intro hid
      exact ⟨r, List.mem_filter.2 ⟨hr, hid⟩, sameId_self _⟩
  refine Outcome.bind_eq_ok_iff.2 ⟨(), hcheck, Outcome.bind_eq_ok_iff.2 ⟨_, hids, ?_⟩⟩
  exact congrArg Except.ok (List.filter_congr fun r hr => congrArg (!·) (htarget r hr))

end

/-! ## Ids of listed rows -/

/-- The ids that a list of primary keys answers are ids of stored records. -/
theorem storedId_of_list {db : Database} {store : Store} {name : String} {filter : Filter}
    {ids : List CompositeId} (hplain : ∀ pk ∈ schema.primaryKeys, Path.Plain pk)
    (hfits : ∀ r ∈ store.rows name, r.Fits schema)
    (hlist : list db store name schema (.ofFilter filter) (.primaryKeysOf schema) = .ok rows)
    (hids : rows.mapM (fun r => r.id schema) = .ok ids) : ∀ id ∈ ids, schema.StoredId id := by
  intro id hid
  obtain ⟨shown, hshown, hid⟩ := Outcome.exists_of_mem_mapM hids hid
  obtain ⟨rfl, hpresent⟩ := Record.id_eq_ok_iff.1 hid
  obtain ⟨-, hlist⟩ := Outcome.seq_eq_ok_iff.1 hlist
  obtain ⟨-, hlist⟩ := Outcome.seq_eq_ok_iff.1 hlist
  obtain ⟨selected, hselect, hlist⟩ := Outcome.bind_eq_ok_iff.1 hlist
  cases hlist
  obtain ⟨r, hr, rfl⟩ := List.mem_map.1 hshown
  change r ∈ Sorting.empty.apply selected at hr
  rw [sort_empty] at hr
  obtain ⟨row, hrow, hsame⟩ := exists_row_of_mem_select hselect hr
  refine ⟨row, hfits row hrow, ?_, hpresent⟩
  rw [← hsame.key_eq]
  refine Record.key_congr fun pk hpk => ?_
  exact Projection.get?_apply_of_plain (fun f hf => hplain f (Projection.mem_ofList.1 hf)) r
    (Projection.mem_ofList.2 hpk)

end Memory

end QueryLayer
