import QueryLayer.Proofs.Query.Matching
import QueryLayer.Proofs.Typing.Stored

/-! # Conditions on ids pass the check

Where the keys are columns that declare equality and membership, and whose type has membership, the
condition that `matchIds` makes of stored ids is one that the collection accepts.
-/
namespace QueryLayer

namespace Scope

variable {s : Scope}

theorem checkCondition_of_join? {a : Aggregator} {cs : List Condition} {t : Condition}
    (hcs : ∀ c ∈ cs, s.checkCondition c = .ok ()) (h : Condition.join? a cs = some t) :
    s.checkCondition t = .ok () := by
  have hparts : ∀ p ∈ cs.flatMap (Condition.parts a), s.checkCondition p = .ok () := by
    intro p hp
    obtain ⟨c, hc, hp⟩ := List.mem_flatMap.1 hp
    have hcheck := hcs c hc
    rcases Condition.parts_cases a c with h | h
    · rw [h] at hp
      obtain rfl := List.mem_singleton.1 hp
      exact hcheck
    · rw [h] at hcheck
      exact (checkCondition_branch_eq_ok_iff.1 hcheck).2 p hp
  rw [Condition.join?_eq] at h
  split at h
  · cases h
  · next p hflat =>
    cases h
    exact hparts _ (by simp [hflat])
  · next hmany hsingle =>
    cases h
    refine checkCondition_branch_eq_ok_iff.2 ⟨?_, hparts⟩
    match hflat : cs.flatMap (Condition.parts a) with
    | [] => exact absurd hflat hmany
    | [p] => exact absurd hflat (hsingle p)
    | _ :: _ :: _ => simp

end Scope

/-- A key that can be compared with a value: a path of one hop to a column with equality. -/
structure CollectionSchema.ComparableKey (schema : CollectionSchema) (pk : String) (c : Column) : Prop where
  column : schema.column? pk = some c
  plain : Path.Plain pk
  unjson : c.columnType ≠ .json
  equal : c.filterOperators.contains .equal = true

/-- A key that can stand in conditions on ids: a path of one hop to a column with equality and membership. -/
structure CollectionSchema.UsableKey (schema : CollectionSchema) (pk : String) (c : Column) : Prop where
  column : schema.column? pk = some c
  plain : Path.Plain pk
  membership : c.HasMembership
  equal : c.filterOperators.contains .equal = true
  oneOf : c.filterOperators.contains .oneOf = true

theorem CollectionSchema.UsableKey.comparable {schema : CollectionSchema} {pk : String} {c : Column}
    (h : schema.UsableKey pk c) : schema.ComparableKey pk c :=
  ⟨h.column, h.plain, h.membership.ne_json, h.equal⟩

theorem CollectionSchema.declares_equal {schema : CollectionSchema}
    (h : ∀ pk ∈ schema.primaryKeys, ∃ c, schema.ComparableKey pk c) :
    ∀ pk ∈ schema.primaryKeys,
      (schema.column? pk).any (fun c => c.filterOperators.contains .equal) = true := by
  intro pk hpk
  obtain ⟨c, hc⟩ := h pk hpk
  rw [hc.column]
  exact hc.equal

theorem Record.of_mem_zip_key {schema : CollectionSchema} {record : Record} {pk : String} {v : Value}
    (h : (pk, v) ∈ schema.primaryKeys.zip (record.key schema)) : v = (record.get? pk).getD .null := by
  unfold Record.key at h
  rw [← List.map_prod_left_eq_zip] at h
  obtain ⟨k, _, hk⟩ := List.mem_map.1 h
  cases hk
  rfl

/-- The id of a record that could be stored. -/
def CollectionSchema.StoredId (schema : CollectionSchema) (id : CompositeId) : Prop :=
  ∃ r : Record, r.Fits schema ∧ id = r.key schema ∧ ∀ v ∈ id, v ≠ .null

namespace Scope

variable {s : Scope}

theorem item_of_storedId {pk : String} {c : Column} (hc : s.schema.column? pk = some c) {id : CompositeId}
    (hid : s.schema.StoredId id) {v : Value} (hv : (pk, v) ∈ s.schema.primaryKeys.zip id) :
    c.checkValue v = .ok () ∧ v ≠ .null := by
  obtain ⟨r, hr, rfl, hnull⟩ := hid
  have hne := hnull v (List.of_mem_zip hv).2
  refine ⟨?_, hne⟩
  have hget := Record.of_mem_zip_key hv
  cases hr' : r.get? pk with
  | none =>
    rw [hr'] at hget
    exact absurd hget hne
  | some w =>
    rw [hr'] at hget
    obtain ⟨c', hc', hcheck⟩ := hr.get? hr'
    rw [hc] at hc'
    cases hc'
    rw [hget]
    exact hcheck

/-- A comparison of a key with a value that some stored id has for it. -/
theorem checkLeaf_equal {pk : String} {c : Column} (hc : s.schema.ComparableKey pk c) {id : CompositeId}
    (hid : s.schema.StoredId id) {v : Value} (hv : (pk, v) ∈ s.schema.primaryKeys.zip id) :
    s.checkLeaf ⟨pk, .equal, v⟩ = .ok () := by
  obtain ⟨hcheck, hnull⟩ := item_of_storedId hc.column hid hv
  exact (checkLeaf_equal_iff hc.column hc.plain hc.unjson hcheck hnull).2 hc.equal

/-- A key is compared with a list of values that stored ids have for it where it declares membership. -/
theorem checkLeaf_oneOf_iff {pk : String} {c : Column} (hc : s.schema.column? pk = some c)
    (hplain : Path.Plain pk) (hin : c.HasMembership) {ids : List CompositeId}
    (hids : ∀ id ∈ ids, s.schema.StoredId id) {vs : List Value}
    (hvs : ∀ v ∈ vs, ∃ id ∈ ids, (pk, v) ∈ s.schema.primaryKeys.zip id) :
    s.checkLeaf ⟨pk, .oneOf, .array vs⟩ = .ok () ↔ c.filterOperators.contains .oneOf = true := by
  rw [checkLeaf_among_iff hc hplain fun v hv => ?_, and_iff_right hin]
  obtain ⟨id, hid, hv⟩ := hvs v hv
  exact item_of_storedId hc (hids id hid) hv

theorem checkLeaf_of_matches {ids : List CompositeId} {t : Condition}
    (hkeys : ∀ pk ∈ s.schema.primaryKeys, ∃ c, s.schema.UsableKey pk c)
    (hids : ∀ id ∈ ids, s.schema.StoredId id) (h : Condition.Matches s.schema.primaryKeys ids t)
    {l : Leaf} (hl : l ∈ t.leaves) : s.checkLeaf l = .ok () := by
  obtain ⟨hmem, hcases⟩ := h.leaf_cases hl
  obtain ⟨c, hc⟩ := hkeys _ hmem
  obtain ⟨field, operator, value⟩ := l
  rcases hcases with ⟨rfl, id, hid, hv⟩ | ⟨rfl, vs, rfl, hvs⟩
  · exact checkLeaf_equal hc.comparable (hids id hid) hv
  · exact (checkLeaf_oneOf_iff hc.column hc.plain hc.membership hids hvs).2 hc.oneOf

/-- A condition on ids has branches that are wide enough. -/
theorem checkCondition_of_leaves {keys : List String} {ids : List CompositeId} {t : Condition}
    (h : Condition.Matches keys ids t) (hleaves : ∀ l ∈ t.leaves, s.checkLeaf l = .ok ()) :
    s.checkCondition t = .ok () := by
  cases h with
  | one => exact hleaves _ (by simp)
  | list _ => exact hleaves _ (by simp)
  | empty => exact hleaves _ (by simp)
  | union hall ht =>
    refine checkCondition_of_join? (fun c hc => ?_) ht
    obtain ⟨id, _, _, hmatch⟩ := Outcome.exists_of_mem_right hall hc
    have hsub : ∀ l ∈ c.leaves, s.checkLeaf l = .ok () := by
      intro l hl
      refine hleaves l ?_
      rw [Condition.leaves_of_join? ht]
      exact List.mem_flatMap.2 ⟨c, hc, hl⟩
    rw [Condition.leaves_of_matchId? hmatch] at hsub
    rw [Condition.matchId?_eq] at hmatch
    refine checkCondition_of_join? (fun d hd => ?_) hmatch
    obtain ⟨e, he, rfl⟩ := List.mem_map.1 hd
    exact hsub _ (List.mem_map_of_mem he)

/-- The condition on ids of stored records is accepted. -/
theorem checkCondition_of_matches {ids : List CompositeId} {t : Condition}
    (hkeys : ∀ pk ∈ s.schema.primaryKeys, ∃ c, s.schema.UsableKey pk c)
    (hids : ∀ id ∈ ids, s.schema.StoredId id) (h : Condition.Matches s.schema.primaryKeys ids t) :
    s.checkCondition t = .ok () :=
  checkCondition_of_leaves h fun _ hl => checkLeaf_of_matches hkeys hids h hl

/-- Ids of stored records that are not compared as a list make a condition that is accepted where the keys can
be compared. -/
theorem checkCondition_of_equalities {ids : List CompositeId} {t : Condition}
    (hkeys : ∀ pk ∈ s.schema.primaryKeys, ∃ c, s.schema.ComparableKey pk c)
    (hids : ∀ id ∈ ids, s.schema.StoredId id) (ht : Condition.matchIds s.schema ids = .ok t)
    (hlists : Condition.listsIds s.schema.primaryKeys ids = false) : s.checkCondition t = .ok () := by
  have hmatches := Condition.matches_of_matchIds ht
  refine checkCondition_of_leaves hmatches fun l hl => ?_
  have hoperator := Condition.operator_of_matchIds ht hlists hl
  obtain ⟨hmem, hcases⟩ := hmatches.leaf_cases hl
  obtain ⟨c, hc⟩ := hkeys _ hmem
  obtain ⟨field, operator, value⟩ := l
  obtain rfl : operator = .equal := hoperator
  rcases hcases with ⟨-, id, hid, hv⟩ | ⟨hone, -⟩
  · exact checkLeaf_equal hc (hids id hid) hv
  · cases hone

/-- The condition on one id is accepted where its keys can be compared. -/
theorem exists_checked_matchIds {id : CompositeId} (hne : s.schema.primaryKeys ≠ [])
    (hkeys : ∀ pk ∈ s.schema.primaryKeys, ∃ c, s.schema.ComparableKey pk c) (hid : s.schema.StoredId id) :
    ∃ t, Condition.matchIds s.schema [id] = .ok t ∧ s.checkCondition t = .ok () := by
  have hlength : ∀ i ∈ [id], i.length = s.schema.primaryKeys.length := by
    obtain ⟨r, -, rfl, -⟩ := hid
    simp
  obtain ⟨t, ht, -⟩ := Condition.matchIds_eq_ok hne (CollectionSchema.declares_equal hkeys) hlength
  refine ⟨t, ht, checkCondition_of_equalities hkeys (fun i hi => ?_) ht (Condition.listsIds_singleton _ _)⟩
  rwa [List.mem_singleton.1 hi]

end Scope

/-- Where ids are compared as a list, the first key declares membership. -/
def CollectionSchema.ListsWithin (schema : CollectionSchema) (ids : List CompositeId) : Prop :=
  Condition.listsIds schema.primaryKeys ids = true →
    ∀ pk ∈ schema.primaryKeys.head?, (schema.column? pk).any (fun c => c.filterOperators.contains .oneOf) = true

/-- A key by which records could be told apart if it declared the operators: a path of one hop to a column whose
type has membership. -/
def CollectionSchema.ListableKey (schema : CollectionSchema) (pk : String) : Prop :=
  Path.Plain pk ∧ ∀ c ∈ schema.column? pk, c.HasMembership

instance (schema : CollectionSchema) (pk : String) : Decidable (schema.ListableKey pk) :=
  inferInstanceAs (Decidable (_ ∧ ∀ c ∈ schema.column? pk, c.HasMembership))

namespace Scope

variable {s : Scope}

/-- When the condition on ids of stored records is accepted. -/
theorem checkCondition_matchIds_iff (hkeys : ∀ pk ∈ s.schema.primaryKeys, s.schema.ListableKey pk)
    {ids : List CompositeId} (hids : ∀ id ∈ ids, s.schema.StoredId id) {t : Condition}
    (ht : Condition.matchIds s.schema ids = .ok t) :
    s.checkCondition t = .ok () ↔ s.schema.ListsWithin ids := by
  obtain ⟨-, hequal, -⟩ := Condition.ready_of_matchIds ht
  have hcolumns : ∀ pk ∈ s.schema.primaryKeys, ∃ c, s.schema.column? pk = some c ∧
      c.filterOperators.contains .equal = true :=
    fun pk hpk => (Option.any_eq_true _ _).1 (hequal pk hpk)
  unfold CollectionSchema.ListsWithin
  cases hlists : Condition.listsIds s.schema.primaryKeys ids with
  | false =>
    have hcomparable : ∀ pk ∈ s.schema.primaryKeys, ∃ c, s.schema.ComparableKey pk c := by
      intro pk hpk
      obtain ⟨c, hc, hequal⟩ := hcolumns pk hpk
      obtain ⟨hplain, hin⟩ := hkeys pk hpk
      exact ⟨c, hc, hplain, (hin c hc).ne_json, hequal⟩
    simp [checkCondition_of_equalities hcomparable hids ht hlists]
  | true =>
    obtain ⟨first, others, hnames, rfl⟩ := Condition.eq_leaf_of_listsIds ht hlists
    have hfirst : first ∈ s.schema.primaryKeys := by simp [hnames]
    obtain ⟨c, hc, -⟩ := hcolumns first hfirst
    obtain ⟨hplain, hin⟩ := hkeys first hfirst
    rw [checkCondition_leaf, checkLeaf_oneOf_iff hc hplain (hin c hc) hids fun v hv => ?_]
    · simp [hnames, hc]
    · obtain ⟨id, hid, hv⟩ := List.mem_filterMap.1 hv
      refine ⟨id, hid, ?_⟩
      obtain ⟨rest, rfl⟩ := List.head?_eq_some_iff.1 hv
      simp [hnames]

end Scope

end QueryLayer
