import QueryLayer.Proofs.Emulation.BruteForce
import QueryLayer.Proofs.Memory.Asking
import QueryLayer.Proofs.Memory.Keyed

/-! # Rows found by their ids

Whether a row with the id of a record is stored. Replacing records puts their ids in and takes none
away, a deletion by id takes only that one away, and a read by the ids of records that are all stored
answers one row for each.
-/
namespace QueryLayer

namespace Record

/-- Whether the records have the same id. -/
def SameKey (schema : CollectionSchema) (a b : Record) : Prop :=
  sameId (a.key schema) (b.key schema) = true

variable {schema : CollectionSchema} {a b c : Record}

theorem SameKey.symm (h : SameKey schema a b) : SameKey schema b a :=
  (sameId_comm _ _).trans h

theorem SameKey.trans (hab : SameKey schema a b) (hbc : SameKey schema b c) : SameKey schema a c :=
  sameId_trans hab hbc

/-- Defaults change no id that is there. -/
theorem key_withDefaults {record : Record} (h : ∀ v ∈ record.key schema, v ≠ .null) :
    (Memory.withDefaults schema record).key schema = record.key schema := by
  refine Record.key_congr fun pk hpk => ?_
  have hpresent := h _ (List.mem_map_of_mem hpk)
  cases hget : record.get? pk with
  | none =>
    rw [hget] at hpresent
    exact absurd rfl hpresent
  | some v => rw [Memory.get?_withDefaults, hget, Option.some_or]

end Record

namespace Memory

/-- A row with the id of the record is there. -/
def HasRow (schema : CollectionSchema) (rows : List Record) (record : Record) : Prop :=
  ∃ row ∈ rows, Record.SameKey schema row record

variable {schema : CollectionSchema} {record other : Record} {rows : List Record}

theorem HasRow.cons_of_tail (h : HasRow schema rows record) : HasRow schema (other :: rows) record := by
  obtain ⟨row, hrow, hsame⟩ := h
  exact ⟨row, List.mem_cons_of_mem _ hrow, hsame⟩

theorem mem_upsert_self (schema : CollectionSchema) (record : Record) (id : CompositeId)
    (rows : List Record) : record ∈ upsert schema record id rows := by
  induction rows with
  | nil => exact List.mem_singleton_self _
  | cons first rest ih =>
    unfold upsert
    split
    · exact List.mem_cons_self
    · exact List.mem_cons_of_mem _ ih

/-- A row is replaced by one with the same id only. -/
theorem HasRow.upsert (h : HasRow schema rows other) :
    HasRow schema (Memory.upsert schema record (record.key schema) rows) other := by
  induction rows with
  | nil =>
    obtain ⟨row, hrow, -⟩ := h
    cases hrow
  | cons first rest ih =>
    obtain ⟨row, hrow, hsame⟩ := h
    unfold Memory.upsert
    split
    · next htarget =>
      rcases List.mem_cons.1 hrow with rfl | hrow
      · have hfirst : Record.SameKey schema record row := by
          rw [isTarget] at htarget
          split at htarget
          · next id hid =>
            obtain ⟨rfl, -⟩ := Record.id_eq_ok_iff.1 hid
            simpa [hasId, Record.SameKey] using htarget
          · cases htarget
        exact ⟨record, List.mem_cons_self, hfirst.trans hsame⟩
      · exact ⟨row, List.mem_cons_of_mem _ hrow, hsame⟩
    · rcases List.mem_cons.1 hrow with rfl | hrow
      · exact ⟨row, List.mem_cons_self, hsame⟩
      · exact (ih ⟨row, hrow, hsame⟩).cons_of_tail

theorem HasRow.foldl_upsert {records : List Record} {ids : List CompositeId}
    (hids : List.Forall₂ (fun r id => r.id schema = .ok id) records ids)
    (h : HasRow schema rows other) :
    HasRow schema ((records.zip ids).foldl (fun out e => Memory.upsert schema e.1 e.2 out) rows) other := by
  induction hids generalizing rows with
  | nil => exact h
  | cons hid _ ih =>
    obtain ⟨rfl, -⟩ := Record.id_eq_ok_iff.1 hid
    exact ih h.upsert

theorem hasRow_foldl_upsert {records : List Record} {ids : List CompositeId}
    (hids : List.Forall₂ (fun r id => r.id schema = .ok id) records ids) (hmem : record ∈ records) :
    HasRow schema ((records.zip ids).foldl (fun out e => Memory.upsert schema e.1 e.2 out) rows) record := by
  induction hids generalizing rows with
  | nil => cases hmem
  | @cons first id _ _ _ hrest ih =>
    rcases List.mem_cons.1 hmem with rfl | hmem
    · have hfirst : HasRow schema (Memory.upsert schema record id rows) record :=
        ⟨record, mem_upsert_self schema record id rows, sameId_self _⟩
      rw [List.zip_cons_cons, List.foldl_cons]
      exact hfirst.foldl_upsert hrest
    · exact ih hmem

section

variable {scope : Scope} {stored records : List Record}

theorem HasRow.replaced (h : HasRow scope.schema stored record)
    (hrows : Memory.replaced scope stored records = .ok rows) : HasRow scope.schema rows record := by
  obtain ⟨prepared, -, hrows⟩ := Outcome.bind_eq_ok_iff.1 hrows
  obtain ⟨ids, hids, hrows⟩ := Outcome.bind_eq_ok_iff.1 hrows
  cases hrows
  exact h.foldl_upsert (Outcome.mapM_eq_ok_iff.1 hids)

theorem hasRow_replaced (hmem : record ∈ records) (hpresent : ∀ v ∈ record.key scope.schema, v ≠ .null)
    (hrows : Memory.replaced scope stored records = .ok rows) : HasRow scope.schema rows record := by
  obtain ⟨prepared, hprepared, hrows⟩ := Outcome.bind_eq_ok_iff.1 hrows
  obtain ⟨ids, hids, hrows⟩ := Outcome.bind_eq_ok_iff.1 hrows
  cases hrows
  obtain ⟨full, hfull, hprepare⟩ := Outcome.exists_of_mem_left (Outcome.mapM_eq_ok_iff.1 hprepared) hmem
  obtain ⟨-, hprepare⟩ := Outcome.seq_eq_ok_iff.1 hprepare
  cases hprepare
  obtain ⟨row, hrow, hsame⟩ := hasRow_foldl_upsert (Outcome.mapM_eq_ok_iff.1 hids) hfull
  rw [Record.SameKey, Record.key_withDefaults hpresent] at hsame
  exact ⟨row, hrow, hsame⟩

end

/-! ## Deletion -/

section

variable {db : Database} {store : Store} {name : String} {t : Condition}

/-- The records that a condition on ids selects are rows with one of the ids. -/
theorem exists_map_of_select {ids : List CompositeId} (hkeys : schema.UsableKeys)
    (ht : Condition.Matches schema.primaryKeys ids t) {extra : Projection} {records : List Record}
    (h : select db store name schema (.ofCondition t) extra = .ok records) :
    ∃ g : Record → Record, (∀ r, (g r).key schema = r.key schema) ∧
      records = ((store.rows name).filter fun r => ids.any fun id => sameId (r.key schema) id).map g := by
  rw [select_eq] at h
  obtain ⟨-, h⟩ := Outcome.seq_eq_ok_iff.1 h
  obtain ⟨hydrated, hhydrated, h⟩ := Outcome.bind_eq_ok_iff.1 h
  cases h
  obtain ⟨g, rfl, hg⟩ := exists_map_of_hydrate hhydrated
  have hkey : ∀ r, (g r).key schema = r.key schema := fun r => (hg r).key_eq
  refine ⟨g, hkey, ?_⟩
  change List.filter t.holds (List.map g (store.rows name)) = _
  rw [List.filter_map]
  refine congrArg (List.map g) (List.filter_congr fun r _ => ?_)
  change t.holds (g r) = _
  rw [ht.holds_eq hkeys.plain]
  exact congrArg (fun key => ids.any fun id => sameId key id) (hkey r)

/-- Deleting by id takes no other id away. -/
theorem HasRow.remaining (hkeys : schema.UsableKeys) {id : CompositeId}
    (ht : Condition.matchIds schema [id] = .ok t)
    (hrows : Memory.remaining db store name schema (.ofCondition t) = .ok rows)
    (hapart : sameId id (record.key schema) = false) (h : HasRow schema (store.rows name) record) :
    HasRow schema rows record := by
  obtain ⟨-, hrows⟩ := Outcome.seq_eq_ok_iff.1 hrows
  obtain ⟨ids, hids, hrows⟩ := Outcome.bind_eq_ok_iff.1 hrows
  cases hrows
  obtain ⟨selected, hselected, hids⟩ := Outcome.bind_eq_ok_iff.1 hids
  obtain ⟨g, hg, rfl⟩ := exists_map_of_select hkeys (Condition.matches_of_matchIds ht) hselected
  obtain ⟨row, hrow, hsame⟩ := h
  refine ⟨row, List.mem_filter.2 ⟨hrow, ?_⟩, hsame⟩
  by_contra htarget
  rw [Bool.not_eq_true, Bool.not_eq_false', isTarget] at htarget
  split at htarget
  · next rowId hrowId =>
    obtain ⟨rfl, -⟩ := Record.id_eq_ok_iff.1 hrowId
    obtain ⟨i, hi, hirow⟩ := List.any_eq_true.1 htarget
    obtain ⟨found, hfound, hi⟩ := Outcome.exists_of_mem_mapM hids hi
    obtain ⟨rfl, -⟩ := Record.id_eq_ok_iff.1 hi
    obtain ⟨r, hr, rfl⟩ := List.mem_map.1 hfound
    have hrid : sameId (r.key schema) id = true := by simpa using (List.mem_filter.1 hr).2
    rw [hg] at hirow
    have hid : sameId id (record.key schema) = true :=
      sameId_trans (sameId_trans ((sameId_comm _ _).trans hrid) hirow) hsame
    rw [hapart] at hid
    cases hid
  · cases htarget

end

/-! ## Reading by id -/

theorem countP_sameKey (hrows : Keyed schema rows) (h : HasRow schema rows record) :
    rows.countP (fun r => sameId (r.key schema) (record.key schema)) = 1 := by
  have hcons : ∀ (first : Record) (rest : List Record),
      (first :: rest).countP (fun r => sameId (r.key schema) (record.key schema)) =
        rest.countP (fun r => sameId (r.key schema) (record.key schema)) +
          if sameId (first.key schema) (record.key schema) = true then 1 else 0 :=
    fun _ _ => List.countP_cons
  induction rows with
  | nil =>
    obtain ⟨row, hrow, -⟩ := h
    cases hrow
  | cons first rest ih =>
    have hapart := (List.pairwise_cons.1 hrows.distinct).1
    by_cases hfirst : sameId (first.key schema) (record.key schema) = true
    · have hnone : rest.countP (fun r => sameId (r.key schema) (record.key schema)) = 0 := by
        refine List.countP_eq_zero.2 fun r hr hsame => ?_
        have hboth := sameId_trans hfirst ((sameId_comm _ _).trans hsame)
        rw [hapart r hr] at hboth
        cases hboth
      rw [hcons, hnone, if_pos hfirst]
    · obtain ⟨row, hrow, hsame⟩ := h
      rcases List.mem_cons.1 hrow with rfl | hrow
      · exact absurd hsame hfirst
      · rw [hcons, if_neg hfirst]
        exact ih hrows.tail ⟨row, hrow, hsame⟩

theorem countP_or {α : Type} {p q : α → Bool} {xs : List α} (h : ∀ x ∈ xs, p x = true → q x = false) :
    xs.countP (fun x => p x || q x) = xs.countP p + xs.countP q := by
  induction xs with
  | nil => rfl
  | cons x rest ih =>
    have hrest := ih fun y hy => h y (List.mem_cons_of_mem _ hy)
    have hx := h x List.mem_cons_self
    rw [List.countP_cons, List.countP_cons, List.countP_cons, hrest]
    cases hp : p x with
    | false => simp [Nat.add_assoc]
    | true =>
      rw [hx hp]
      simp [Nat.add_right_comm]

/-- Rows with ids of their own: as many have the id of one of the records as there are records. -/
theorem countP_any_sameKey (hrows : Keyed schema rows) {records : List Record}
    (hapart : records.Pairwise fun a b => sameId (a.key schema) (b.key schema) = false)
    (h : ∀ record ∈ records, HasRow schema rows record) :
    rows.countP (fun r => records.any fun record => sameId (r.key schema) (record.key schema)) =
      records.length := by
  induction records with
  | nil => simp
  | cons first rest ih =>
    obtain ⟨hfirst, hrest⟩ := List.pairwise_cons.1 hapart
    have hdisjoint : ∀ r ∈ rows, sameId (r.key schema) (first.key schema) = true →
        (rest.any fun record => sameId (r.key schema) (record.key schema)) = false := by
      intro r _ hsame
      refine List.any_eq_false.2 fun record hrecord hother => ?_
      have hboth : Record.SameKey schema first record := (Record.SameKey.symm hsame).trans hother
      rw [Record.SameKey, hfirst record hrecord] at hboth
      cases hboth
    simp only [List.any_cons]
    rw [countP_or hdisjoint, countP_sameKey hrows (h first List.mem_cons_self),
      ih hrest fun record hrecord => h record (List.mem_cons_of_mem _ hrecord), List.length_cons,
      Nat.add_comm]

section

variable {db : Database} {store : Store} {name : String} {t : Condition}

theorem heads_columnsOf_of_column {f : String} (hf : (schema.column? f).isSome)
    (h : (db.scope name schema).checkProjection (.columnsOf schema) = .ok ()) :
    (Projection.columnsOf schema).heads.get? f = none := by
  by_contra hhead
  rw [← ne_eq, ← Option.isSome_iff_ne_none, Projection.isSome_get?_heads_iff,
    Projection.through_singleton_iff] at hhead
  obtain ⟨path, hpath, rest, hsplit⟩ := hhead
  have hcheck := Outcome.forM_eq_ok_iff.1 h path hpath
  obtain ⟨c, hc, -⟩ := Outcome.bind_eq_ok_iff.1 hcheck
  rw [Path.eq_under_of_split? hsplit] at hc
  obtain ⟨r, _, hr, -⟩ := (Scope.column_under (Path.plain_of_split? hsplit)).1 hc
  change schema.relation? f = some r at hr
  rw [column?_eq_none_of_relation? hr] at hf
  cases hf

/-- A read by the ids of stored records answers one row for each. -/
theorem length_list_of_matchRecords (hkeys : schema.UsableKeys) {stored answer : List Record}
    (hrows : Keyed schema (store.rows name))
    (hapart : stored.Pairwise fun a b => sameId (a.key schema) (b.key schema) = false)
    (hstored : ∀ record ∈ stored, HasRow schema (store.rows name) record)
    (ht : Condition.matchRecords schema stored = .ok t)
    (h : list db store name schema (.ofCondition t) (.columnsOf schema) = .ok answer) :
    answer.length = stored.length ∧ ∀ record ∈ stored, HasRow schema answer record := by
  obtain ⟨-, h⟩ := Outcome.seq_eq_ok_iff.1 h
  obtain ⟨hprojection, h⟩ := Outcome.seq_eq_ok_iff.1 h
  obtain ⟨records, hselect, h⟩ := Outcome.bind_eq_ok_iff.1 h
  cases h
  obtain ⟨g, hg, rfl⟩ := exists_map_of_select hkeys (Condition.matchRecords_eq_ok hkeys ht) hselect
  have hkey : ∀ r, ((Projection.columnsOf schema).apply r).key schema = r.key schema := by
    intro r
    refine Record.key_congr fun pk hpk => ?_
    have hcolumn := CollectionSchema.isSome_column?_of_mem_primaryKeys hpk
    refine Projection.get?_apply_of_column ?_ (heads_columnsOf_of_column hcolumn hprojection) r
    have hlisted : pk ∈ (Projection.columnsOf schema).fields := by
      refine Projection.mem_ofList.2 ?_
      obtain ⟨e, he, rfl⟩ := List.mem_map.1 hpk
      exact List.mem_map_of_mem (List.mem_filter.1 he).1
    exact List.mem_filter.2 ⟨hlisted, by rw [Path.split?_of_plain (hkeys.plain pk hpk)]; rfl⟩
  change (List.map _ (Sorting.empty.apply _)).length = _ ∧ ∀ record ∈ stored,
    HasRow schema (List.map _ (Sorting.empty.apply _)) record
  rw [sort_empty, List.map_map]
  constructor
  · rw [List.length_map, ← countP_any_sameKey hrows hapart hstored, List.countP_eq_length_filter]
    simp only [List.any_map]
    rfl
  · intro record hrecord
    obtain ⟨row, hrow, hsame⟩ := hstored record hrecord
    refine ⟨_, List.mem_map_of_mem (List.mem_filter.2 ⟨hrow, ?_⟩), ?_⟩
    · exact List.any_eq_true.2 ⟨_, List.mem_map_of_mem hrecord, hsame⟩
    · rw [Record.SameKey, Function.comp_apply, hkey, hg]
      exact hsame

end

end Memory

end QueryLayer
