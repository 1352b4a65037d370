import QueryLayer.Emulation.Basic
import QueryLayer.Proofs.Memory.Hydration
import QueryLayer.Proofs.Typing.Matching

/-! # Brute force over stored records

Brute force reads the keys and the field of the leaf from all stored records and makes a condition on the
ids of those that satisfy the leaf. On a memory source it never fails while these records have ids, and
its condition is accepted by the source and holds where the leaf does.
-/
namespace QueryLayer

namespace CollectionSchema

/-- There are keys, and all of them can stand in conditions on ids. -/
structure UsableKeys (schema : CollectionSchema) : Prop where
  nonempty : schema.primaryKeys ≠ []
  usable : ∀ pk ∈ schema.primaryKeys, ∃ c, schema.UsableKey pk c

theorem UsableKeys.plain {schema : CollectionSchema} (h : schema.UsableKeys) :
    ∀ pk ∈ schema.primaryKeys, Path.Plain pk := by
  intro pk hpk
  obtain ⟨c, hc⟩ := h.usable pk hpk
  exact hc.plain

theorem UsableKeys.comparable {schema : CollectionSchema} (h : schema.UsableKeys) :
    ∀ pk ∈ schema.primaryKeys, ∃ c, schema.ComparableKey pk c := by
  intro pk hpk
  obtain ⟨c, hc⟩ := h.usable pk hpk
  exact ⟨c, UsableKey.comparable hc⟩

end CollectionSchema

namespace Record

theorem id_congr {a b : Record} {schema : CollectionSchema}
    (h : ∀ pk ∈ schema.primaryKeys, a.get? pk = b.get? pk) : a.id schema = b.id schema := by
  unfold Record.id
  refine Outcome.mapM_congr fun pk hpk => ?_
  rw [h pk hpk]

end Record

namespace Leaf

theorem holds_congr {l : Leaf} (hplain : Path.Plain l.field) {a b : Record}
    (h : a.get? l.field = b.get? l.field) : l.holds a = l.holds b := by
  rw [Leaf.holds, Leaf.holds, Record.value_of_plain hplain, Record.value_of_plain hplain, h]

end Leaf

namespace Condition

/-- What `matchRecords` makes of records with ids. -/
theorem matchRecords_of_present {schema : CollectionSchema} (hkeys : schema.UsableKeys)
    {records : List Record} (h : ∀ r ∈ records, ∀ v ∈ r.key schema, v ≠ .null) :
    ∃ t, matchRecords schema records = .ok t ∧
      Matches schema.primaryKeys (records.map fun r => r.key schema) t := by
  have hids : records.mapM (fun r => r.id schema) = .ok (records.map fun r => r.key schema) :=
    Outcome.mapM_eq_ok_map fun r hr => Record.id_of_present (h r hr)
  have hlength : ∀ id ∈ records.map fun r => r.key schema, id.length = schema.primaryKeys.length := by
    intro id hid
    obtain ⟨r, _, rfl⟩ := List.mem_map.1 hid
    exact r.length_key schema
  obtain ⟨t, ht, hmatches⟩ := matchIds_eq_ok hkeys.nonempty (CollectionSchema.declares_equal hkeys.comparable) hlength
  refine ⟨t, ?_, hmatches⟩
  rw [matchRecords, hids]
  exact ht

theorem present_of_matchRecords {schema : CollectionSchema} {records : List Record} {t : Condition}
    (h : matchRecords schema records = .ok t) : ∀ r ∈ records, ∀ v ∈ r.key schema, v ≠ .null := by
  obtain ⟨ids, hids, _⟩ := Outcome.bind_eq_ok_iff.1 h
  intro r hr
  obtain ⟨id, _, hid⟩ := Outcome.exists_of_mem_left (Outcome.mapM_eq_ok_iff.1 hids) hr
  exact (Record.id_eq_ok_iff.1 hid).2

theorem matchRecords_eq_ok {schema : CollectionSchema} (hkeys : schema.UsableKeys)
    {records : List Record} {t : Condition} (h : matchRecords schema records = .ok t) :
    Matches schema.primaryKeys (records.map fun r => r.key schema) t := by
  obtain ⟨t', ht', hmatches⟩ := matchRecords_of_present hkeys (present_of_matchRecords h)
  rw [h] at ht'
  cases ht'
  exact hmatches

end Condition

namespace Memory

variable {db : Database} {name : String} {schema : CollectionSchema}

theorem checkFields_of_columns {fields : List String}
    (h : ∀ f ∈ fields, Path.Plain f ∧ (schema.column? f).isSome) :
    (db.scope name schema).checkFields fields = .ok () := by
  refine Scope.checkFields_eq_ok_iff.2 fun f hf => ?_
  obtain ⟨hplain, hcolumn⟩ := h f hf
  obtain ⟨c, hc⟩ := Option.isSome_iff_exists.1 hcolumn
  exact ⟨c, (Scope.column_of_plain hplain).2 hc⟩

theorem sort_empty (records : List Record) : Sorting.empty.apply records = records := by
  unfold Sorting.apply
  apply List.mergeSort_of_pairwise
  exact List.pairwise_iff_forall_sublist.2 fun _ => rfl

/-- What reading columns of all stored records answers. -/
theorem list_empty_of_columns (store : Store) {p : Projection}
    (h : ∀ f ∈ p.fields, Path.Plain f ∧ (schema.column? f).isSome) :
    list db store name schema .empty p = .ok ((store.rows name).map p.apply) := by
  have hplain : ∀ f ∈ (p.union PaginatedFilter.empty.sort.projection).fields, Path.Plain f := by
    intro f hf
    exact (h f hf).1
  have hselect : select db store name schema .empty (p.union PaginatedFilter.empty.sort.projection) =
      .ok (store.rows name) := by
    unfold select
    change (db.hydrate store schema (store.rows name)
      (p.union PaginatedFilter.empty.sort.projection) >>= _) = _
    rw [Database.hydrate_of_plain hplain]
    rfl
  unfold list
  change ((db.scope name schema).checkProjection p >>= fun _ =>
    select db store name schema .empty (p.union PaginatedFilter.empty.sort.projection) >>= _) = _
  rw [Scope.checkProjection, checkFields_of_columns h, hselect]
  change Except.ok ((Sorting.empty.apply (store.rows name)).map p.apply) = _
  rw [sort_empty]

end Memory

namespace Emulation

variable {db : Database} {name : String} {schema : CollectionSchema}

/-- Brute force makes its condition of the stored records that satisfy the leaf. -/
theorem bruteForce_eq (caller : Caller) (hkeys : schema.UsableKeys) {l : Leaf}
    (hplain : Path.Plain l.field) (hcolumn : (schema.column? l.field).isSome) :
    bruteForce caller (Memory.collection db name schema) l =
      .reading fun store => Condition.matchRecords schema ((store.rows name).filter l.holds) := by
  have hfields : ∀ f ∈ ((Projection.primaryKeysOf schema).union l.projection).fields,
      Path.Plain f ∧ (schema.column? f).isSome := by
    intro f hf
    rcases Projection.mem_union.1 hf with hf | hf
    · have hpk := Projection.mem_ofList.1 hf
      exact ⟨hkeys.plain f hpk, CollectionSchema.isSome_column?_of_mem_primaryKeys hpk⟩
    · obtain rfl := List.mem_singleton.1 (Projection.mem_ofList.1 hf)
      exact ⟨hplain, hcolumn⟩
  generalize hneeded : (Projection.primaryKeysOf schema).union l.projection = needed at hfields
  have hkey : ∀ pk ∈ schema.primaryKeys, pk ∈ needed.fields := by
    intro pk hpk
    rw [← hneeded]
    exact Projection.mem_union.2 (Or.inl (Projection.mem_ofList.2 hpk))
  have hfield : l.field ∈ needed.fields := by
    rw [← hneeded]
    exact Projection.mem_union.2 (Or.inr (Projection.mem_ofList.2 (List.mem_singleton_self _)))
  have hget : ∀ (r : Record) (f : String), f ∈ needed.fields → (needed.apply r).get? f = r.get? f :=
    fun r f hf => Projection.get?_apply_of_plain (fun g hg => (hfields g hg).1) r hf
  have hholds : l.holds ∘ needed.apply = l.holds := by
    funext r
    exact Leaf.holds_congr hplain (hget r _ hfield)
  unfold bruteForce
  change (Action.reading (fun store => Memory.list db store name schema .empty
    ((Projection.primaryKeysOf schema).union l.projection)) >>= fun records =>
      Action.ofExcept (Condition.matchRecords schema (records.filter l.holds))) = _
  rw [hneeded, Action.reading_bind_ofExcept]
  refine congrArg Action.reading (funext fun store => ?_)
  rw [Memory.list_empty_of_columns store hfields, Outcome.ok_bind, List.filter_map, hholds]
  unfold Condition.matchRecords
  rw [List.mapM_map]
  congr 1
  exact Outcome.mapM_congr fun r _ => Record.id_congr fun pk hpk => hget r pk (hkey pk hpk)

/-- On keyed rows brute force makes its condition, and no failure. -/
theorem bruteForce_yields {store : Store} (caller : Caller) (hkeys : schema.UsableKeys)
    (hrows : Memory.Keyed schema (store.rows name)) {l : Leaf} (hplain : Path.Plain l.field)
    (hcolumn : (schema.column? l.field).isSome) {P : Condition → Prop} {E : Error → Prop}
    (hP : ∀ t, Condition.matchRecords schema ((store.rows name).filter l.holds) = .ok t → P t) :
    (bruteForce caller (Memory.collection db name schema) l).Yields (· = store) P E := by
  rw [bruteForce_eq caller hkeys hplain hcolumn]
  refine Action.yields_reading (fun s t heq ht => ?_) fun s err heq herr => ?_
  · subst heq
    exact hP t ht
  · subst heq
    have hpresent : ∀ r ∈ (s.rows name).filter l.holds, ∀ v ∈ r.key schema, v ≠ .null :=
      fun r hr => hrows.present r (List.mem_of_mem_filter hr)
    obtain ⟨t, ht, _⟩ := Condition.matchRecords_of_present hkeys hpresent
    rw [ht] at herr
    cases herr

end Emulation

/-! ## The condition on ids -/

namespace Condition

variable {db : Database} {store : Store} {name : String} {schema : CollectionSchema} {t : Condition}

/-- The condition on stored records is accepted. -/
theorem checkCondition_of_matchRecords (hstore : Memory.Fitting db store)
    (hs : db.schemas.get? name = some schema) (hkeys : schema.UsableKeys) {p : Record → Bool}
    (h : matchRecords schema ((store.rows name).filter p) = .ok t) :
    (db.scope name schema).checkCondition t = .ok () := by
  have hpresent := present_of_matchRecords h
  refine Scope.checkCondition_of_matches hkeys.usable (fun id hid => ?_) (matchRecords_eq_ok hkeys h)
  obtain ⟨r, hr, rfl⟩ := List.mem_map.1 hid
  exact ⟨r, hstore name schema hs r (List.mem_of_mem_filter hr), rfl, hpresent r hr⟩

/-- Among keyed rows the condition selects those that the leaf selects. -/
theorem holds_of_matchRecords {rows : List Record} (hrows : Memory.Keyed schema rows)
    (hkeys : schema.UsableKeys) {l : Leaf} (hplain : Path.Plain l.field)
    (hcolumn : (schema.column? l.field).isSome) (h : matchRecords schema (rows.filter l.holds) = .ok t)
    {row record : Record} (hrow : row ∈ rows)
    (hagree : record.SameColumns schema row) : t.holds record = l.holds record := by
  have hkey : record.key schema = row.key schema :=
    Record.key_congr fun pk hpk => hagree pk (CollectionSchema.isSome_column?_of_mem_primaryKeys hpk)
  rw [(matchRecords_eq_ok hkeys h).holds_eq hkeys.plain, Leaf.holds_congr hplain (hagree _ hcolumn),
    List.any_map]
  change ((rows.filter l.holds).any fun r => sameId (record.key schema) (r.key schema)) = _
  rw [hkey]
  cases hl : l.holds row with
  | true =>
    rw [List.any_eq_true]
    exact ⟨row, List.mem_filter.2 ⟨hrow, hl⟩, sameId_self _⟩
  | false =>
    rw [List.any_eq_false]
    intro r hr hsame
    obtain ⟨hr, hlr⟩ := List.mem_filter.1 hr
    have heq := hrows.eq_of_sameId hrow hr hsame
    rw [heq, hlr] at hl
    cases hl

/-- No record with an id is the empty one. -/
theorem holds_nil_of_matchRecords (hkeys : schema.UsableKeys) {records : List Record}
    (h : matchRecords schema records = .ok t) : t.holds [] = false := by
  rw [(matchRecords_eq_ok hkeys h).holds_eq hkeys.plain, List.any_map, List.any_eq_false]
  intro r hr hsame
  have hpresent := present_of_matchRecords h r hr
  unfold Record.key at hpresent hsame
  have hnonempty := hkeys.nonempty
  cases hk : schema.primaryKeys with
  | nil => exact hnonempty hk
  | cons pk others =>
    rw [hk] at hpresent hsame
    have hfirst := hpresent _ List.mem_cons_self
    change (Value.null.same _ && _) = true at hsame
    rw [Bool.and_eq_true, Value.null_same, Value.isNull_eq_true] at hsame
    exact hfirst hsame.1

theorem field_mem_primaryKeys (hkeys : schema.UsableKeys) {records : List Record}
    (h : matchRecords schema records = .ok t) {l : Leaf} (hl : l ∈ t.leaves) :
    l.field ∈ schema.primaryKeys := ((matchRecords_eq_ok hkeys h).leaf_cases hl).1

end Condition

end QueryLayer
