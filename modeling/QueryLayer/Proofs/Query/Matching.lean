import QueryLayer.Proofs.Query.Identity
import QueryLayer.Proofs.Query.Joining

/-! # Conditions that select ids

The condition `matchIds` makes holds for the records with one of the ids, compares nothing but primary keys,
and compares each of them with values of the ids only.
-/
namespace QueryLayer

namespace Condition

/-! ## One id -/

theorem sameItems_map_eq {α : Type} (f : α → Value) {keys : List α} {id : CompositeId}
    (h : id.length = keys.length) :
    Value.sameItems (keys.map f) id =
      Aggregator.and.combine ((keys.zip id).map fun e => (f e.1).same e.2) := by
  induction keys generalizing id with
  | nil =>
    obtain rfl := List.eq_nil_of_length_eq_zero h
    rfl
  | cons k keys ih =>
    cases id with
    | nil => simp at h
    | cons v id =>
      rw [List.map_cons, Value.sameItems, ih (Nat.succ.inj h)]
      rfl

theorem matchId?_eq (keys : List String) (id : CompositeId) :
    matchId? keys id = join? .and ((keys.zip id).map fun e => leaf ⟨e.1, .equal, e.2⟩) := by
  unfold matchId? intersect?
  rw [List.filterMap_map]
  exact congrArg (join? .and) (congrFun List.filterMap_eq_map _)

theorem leaves_comparisons (keys : List String) (id : CompositeId) :
    ((keys.zip id).map fun e => leaf ⟨e.1, .equal, e.2⟩).flatMap leaves =
      (keys.zip id).map fun e => ⟨e.1, .equal, e.2⟩ := by
  rw [List.flatMap_map, List.map_eq_flatMap]
  rfl

theorem leaves_of_matchId? {keys : List String} {id : CompositeId} {t : Condition}
    (h : matchId? keys id = some t) : t.leaves = (keys.zip id).map fun e => ⟨e.1, .equal, e.2⟩ := by
  rw [matchId?_eq] at h
  rw [leaves_of_join? h, leaves_comparisons]

theorem zip_ne_nil {keys : List String} {id : CompositeId} (hkeys : keys ≠ [])
    (hlength : id.length = keys.length) : keys.zip id ≠ [] := by
  rw [Ne, List.zip_eq_nil_iff, not_or]
  refine ⟨hkeys, fun hid => hkeys (List.eq_nil_of_length_eq_zero ?_)⟩
  rw [← hlength, hid, List.length_nil]

theorem exists_matchId? {keys : List String} {id : CompositeId} (hkeys : keys ≠ [])
    (hlength : id.length = keys.length) : ∃ t, matchId? keys id = some t := by
  rw [matchId?_eq]
  refine exists_join? ?_
  rw [leaves_comparisons]
  exact mt List.map_eq_nil_iff.1 (zip_ne_nil hkeys hlength)

theorem leaves_matchId?_ne_nil {keys : List String} {id : CompositeId} {t : Condition}
    (hkeys : keys ≠ []) (hlength : id.length = keys.length) (h : matchId? keys id = some t) :
    t.leaves ≠ [] := by
  rw [leaves_of_matchId? h]
  exact mt List.map_eq_nil_iff.1 (zip_ne_nil hkeys hlength)

theorem holds_of_matchId? (record : Record) {keys : List String} {id : CompositeId} {t : Condition}
    (hplain : ∀ pk ∈ keys, Path.Plain pk) (hlength : id.length = keys.length)
    (h : matchId? keys id = some t) :
    t.holds record = sameId (keys.map fun pk => (record.get? pk).getD .null) id := by
  rw [matchId?_eq] at h
  rw [holds_eq_truth, truth_of_join? h, sameId, sameItems_map_eq _ hlength, List.map_map]
  refine congrArg _ (List.map_congr_left fun e he => ?_)
  have hvalue := Record.value_of_plain (hplain e.1 (List.of_mem_zip he).1) record
  exact congrArg (fun v => v.same e.2) hvalue

/-! ## Several ids -/

/-- What `matchIds` makes of ids, by the number of keys. -/
inductive Matches : (keys : List String) → (ids : List CompositeId) → Condition → Prop
  | one {pk : String} {v : Value} : Matches [pk] [[v]] (leaf ⟨pk, .equal, v⟩)
  | list {pk : String} {ids : List CompositeId} : (∀ id ∈ ids, id.length = 1) →
    Matches [pk] ids (leaf ⟨pk, .oneOf, .array (ids.filterMap List.head?)⟩)
  | empty {first second : String} {others : List String} :
    Matches (first :: second :: others) [] (leaf ⟨first, .oneOf, .array []⟩)
  | union {keys : List String} {ids : List CompositeId} {cs : List Condition} {t : Condition} :
    List.Forall₂ (fun id c => id.length = keys.length ∧ matchId? keys id = some c) ids cs →
    join? .or cs = some t → Matches keys ids t

/-- Ids of one value are compared by their heads. -/
theorem any_head_same {v : Value} {ids : List CompositeId} (hids : ∀ id ∈ ids, id.length = 1) :
    ((ids.filterMap List.head?).any fun item => item.same v) = ids.any fun id => sameId [v] id := by
  induction ids with
  | nil => rfl
  | cons id ids ih =>
    obtain ⟨w, rfl⟩ := List.length_eq_one_iff.1 (hids id List.mem_cons_self)
    rw [List.filterMap_cons_some (List.head?_cons ..), List.any_cons, List.any_cons,
      ih fun i hi => hids i (List.mem_cons_of_mem _ hi), Value.same_comm]
    simp [sameId, Value.sameItems]

/-- Of the conditions for some ids one holds when the record has one of the ids. -/
theorem any_holds_of_matchId? {keys : List String} (hplain : ∀ pk ∈ keys, Path.Plain pk)
    {ids : List CompositeId} {cs : List Condition} (record : Record)
    (h : List.Forall₂ (fun id c => id.length = keys.length ∧ matchId? keys id = some c) ids cs) :
    (cs.any fun c => c.holds record) =
      ids.any fun id => sameId (keys.map fun pk => (record.get? pk).getD .null) id := by
  induction h with
  | nil => rfl
  | cons hc _ ih => rw [List.any_cons, List.any_cons, holds_of_matchId? record hplain hc.1 hc.2, ih]

theorem filterMap_matchId? {keys : List String} (hkeys : keys ≠ []) {ids : List CompositeId}
    (h : ∀ id ∈ ids, id.length = keys.length) :
    List.Forall₂ (fun id c => id.length = keys.length ∧ matchId? keys id = some c) ids
      (ids.filterMap (matchId? keys)) := by
  induction ids with
  | nil => exact .nil
  | cons id ids ih =>
    have hid := h id List.mem_cons_self
    obtain ⟨c, hc⟩ := exists_matchId? hkeys hid
    rw [List.filterMap_cons_some hc]
    exact .cons ⟨hid, hc⟩ (ih fun i hi => h i (List.mem_cons_of_mem _ hi))

/-- The condition on ids that have a value for each key. -/
def ofIds (first : String) (others : List String) (ids : List CompositeId) : Condition :=
  if others.isEmpty then
    match ids with
    | [[v]] => leaf ⟨first, .equal, v⟩
    | ids => leaf ⟨first, .oneOf, .array (ids.filterMap List.head?)⟩
  else (union? (ids.filterMap (matchId? (first :: others)))).getD (leaf ⟨first, .oneOf, .array []⟩)

/-- It is answered where every key is declared with equality and the ids have a value for each. -/
theorem matchIds_of_ready {schema : CollectionSchema} {ids : List CompositeId} {first : String}
    {others : List String} (hkeys : schema.primaryKeys = first :: others)
    (hequal : ∀ pk ∈ schema.primaryKeys,
      (schema.column? pk).any (fun c => c.filterOperators.contains .equal) = true)
    (hids : ∀ id ∈ ids, id.length = schema.primaryKeys.length) :
    matchIds schema ids = .ok (ofIds first others ids) := by
  have hequal' : schema.primaryKeys.find? (fun pk =>
      !(schema.column? pk).any fun c => c.filterOperators.contains .equal) = none := by
    rw [List.find?_eq_none]
    intro pk hpk
    simp [hequal pk hpk]
  have hids' : ids.find? (fun id => decide (id.length ≠ schema.primaryKeys.length)) = none := by
    rw [List.find?_eq_none]
    intro id hid
    simp [hids id hid]
  unfold matchIds ofIds
  rw [hkeys] at hequal' hids' ⊢
  dsimp only
  rw [hequal', hids']
  cases others with
  | nil => rcases ids with _ | ⟨_ | ⟨v, _ | ⟨w, vs⟩⟩, _ | ⟨id, ids⟩⟩ <;> rfl
  | cons second others => rfl

/-- When ids can be matched: every key is declared with equality, and the ids have a value for each. -/
theorem matchIds_eq_ok {schema : CollectionSchema} {ids : List CompositeId}
    (hkeys : schema.primaryKeys ≠ [])
    (hequal : ∀ pk ∈ schema.primaryKeys,
      (schema.column? pk).any (fun c => c.filterOperators.contains .equal) = true)
    (hids : ∀ id ∈ ids, id.length = schema.primaryKeys.length) :
    ∃ t, matchIds schema ids = .ok t ∧ Matches schema.primaryKeys ids t := by
  obtain ⟨first, others, hnames⟩ := List.exists_cons_of_ne_nil hkeys
  refine ⟨_, matchIds_of_ready hnames hequal hids, ?_⟩
  rw [hnames] at hids ⊢
  unfold ofIds
  cases others with
  | nil =>
    rw [if_pos List.isEmpty_nil]
    split
    · next v => exact .one
    · exact .list hids
  | cons second others =>
    rw [if_neg (by simp)]
    cases ids with
    | nil => exact .empty
    | cons id ids =>
      have hall := filterMap_matchId? (List.cons_ne_nil first (second :: others)) hids
      obtain ⟨c, hc⟩ := exists_matchId? (List.cons_ne_nil first (second :: others)) (hids id (by simp))
      have hleaves :
          ((id :: ids).filterMap (matchId? (first :: second :: others))).flatMap leaves ≠ [] := by
        rw [List.filterMap_cons_some hc, List.flatMap_cons]
        intro hnil
        have hfirst := (List.append_eq_nil_iff.1 hnil).1
        exact leaves_matchId?_ne_nil (List.cons_ne_nil _ _) (hids id (by simp)) hc hfirst
      obtain ⟨t, ht⟩ := exists_join? hleaves
      rw [union?, ht]
      exact .union hall ht

/-- Ids are matched only where every key is declared with equality and they have a value for each. -/
theorem ready_of_matchIds {schema : CollectionSchema} {ids : List CompositeId} {t : Condition}
    (h : matchIds schema ids = .ok t) :
    schema.primaryKeys ≠ [] ∧
      (∀ pk ∈ schema.primaryKeys,
        (schema.column? pk).any (fun c => c.filterOperators.contains .equal) = true) ∧
      ∀ id ∈ ids, id.length = schema.primaryKeys.length := by
  unfold matchIds at h
  dsimp only at h
  split at h
  · cases h
  · next first others hkeys =>
    split at h
    · cases h
    · cases h
    · next hequal hids =>
      refine ⟨by simp [hkeys], fun pk hpk => ?_, fun id hid => ?_⟩
      · simpa using List.find?_eq_none.1 hequal pk hpk
      · simpa using List.find?_eq_none.1 hids id hid

theorem matches_of_matchIds {schema : CollectionSchema} {ids : List CompositeId} {t : Condition}
    (h : matchIds schema ids = .ok t) : Matches schema.primaryKeys ids t := by
  obtain ⟨hkeys, hequal, hids⟩ := ready_of_matchIds h
  obtain ⟨t', ht', hmatches⟩ := matchIds_eq_ok hkeys hequal hids
  rw [h] at ht'
  cases ht'
  exact hmatches

/-- Whether ids are compared as a list: for one key unless there is one id, for several when there is none. -/
def listsIds : List String → List CompositeId → Bool
  | [_], [_] => false
  | [_], _ => true
  | _, ids => ids.isEmpty

@[simp] theorem listsIds_singleton (keys : List String) (id : CompositeId) : listsIds keys [id] = false := by
  match keys with
  | [] => rfl
  | [_] => rfl
  | _ :: _ :: _ => rfl

/-- Ids that are compared as a list are compared with the first key. -/
theorem eq_leaf_of_listsIds {schema : CollectionSchema} {ids : List CompositeId} {t : Condition}
    (h : matchIds schema ids = .ok t) (hlists : listsIds schema.primaryKeys ids = true) :
    ∃ first others, schema.primaryKeys = first :: others ∧
      t = leaf ⟨first, .oneOf, .array (ids.filterMap List.head?)⟩ := by
  obtain ⟨hkeys, hequal, hids⟩ := ready_of_matchIds h
  obtain ⟨first, others, hnames⟩ := List.exists_cons_of_ne_nil hkeys
  rw [matchIds_of_ready hnames hequal hids] at h
  rw [hnames] at hlists
  cases h
  refine ⟨first, others, hnames, ?_⟩
  unfold ofIds
  cases others with
  | nil =>
    rw [if_pos List.isEmpty_nil]
    split
    · rw [listsIds_singleton] at hlists
      cases hlists
    · rfl
  | cons second others =>
    have hnone : ids = [] := List.isEmpty_iff.1 hlists
    subst hnone
    rfl

/-- Ids that are not compared as a list are compared by equality. -/
theorem operator_of_matchIds {schema : CollectionSchema} {ids : List CompositeId} {t : Condition}
    (h : matchIds schema ids = .ok t) (hlists : listsIds schema.primaryKeys ids = false) {l : Leaf}
    (hl : l ∈ t.leaves) : l.operator = .equal := by
  obtain ⟨hkeys, hequal, hids⟩ := ready_of_matchIds h
  have hmatches := matches_of_matchIds h
  match hnames : schema.primaryKeys with
  | [] => exact absurd hnames hkeys
  | [pk] =>
    match hgiven : ids with
    | [id] =>
      obtain ⟨v, rfl⟩ := List.length_eq_one_iff.1 (hnames ▸ hids id (by simp))
      rw [matchIds_of_ready hnames hequal hids] at h
      cases h
      rw [List.mem_singleton.1 hl]
    | [] =>
      rw [hnames] at hlists
      cases hlists
    | _ :: _ :: _ =>
      rw [hnames] at hlists
      cases hlists
  | first :: second :: others =>
    rw [hnames] at hmatches hlists
    cases hmatches with
    | empty => cases hlists
    | union hall ht =>
      rw [leaves_of_join? ht] at hl
      obtain ⟨c, hc, hl⟩ := List.mem_flatMap.1 hl
      obtain ⟨other, -, hmatch⟩ := Outcome.exists_of_mem_right hall hc
      rw [leaves_of_matchId? hmatch.2] at hl
      obtain ⟨e, -, rfl⟩ := List.mem_map.1 hl
      rfl

namespace Matches

variable {keys : List String} {ids : List CompositeId} {t : Condition}

/-- A leaf compares a key with the value that some id has for it, or with a list of such values. -/
theorem leaf_cases (h : Matches keys ids t) {l : Leaf} (hl : l ∈ t.leaves) :
    l.field ∈ keys ∧
      (l.operator = .equal ∧ (∃ id ∈ ids, (l.field, l.value) ∈ keys.zip id) ∨
        l.operator = .oneOf ∧ ∃ vs, l.value = .array vs ∧
          ∀ v ∈ vs, ∃ id ∈ ids, (l.field, v) ∈ keys.zip id) := by
  cases h with
  | one =>
    obtain rfl := List.mem_singleton.1 hl
    exact ⟨by simp, Or.inl ⟨rfl, _, List.mem_singleton_self _, by simp⟩⟩
  | list hids =>
    obtain rfl := List.mem_singleton.1 hl
    refine ⟨by simp, Or.inr ⟨rfl, _, rfl, fun v hv => ?_⟩⟩
    obtain ⟨id, hid, hv⟩ := List.mem_filterMap.1 hv
    obtain ⟨w, rfl⟩ := List.length_eq_one_iff.1 (hids id hid)
    cases hv
    exact ⟨_, hid, by simp⟩
  | empty =>
    obtain rfl := List.mem_singleton.1 hl
    exact ⟨by simp, Or.inr ⟨rfl, [], rfl, by simp⟩⟩
  | union hall ht =>
    rw [leaves_of_join? ht] at hl
    obtain ⟨c, hc, hl⟩ := List.mem_flatMap.1 hl
    obtain ⟨id, hid, hmatch⟩ := Outcome.exists_of_mem_right hall hc
    rw [leaves_of_matchId? hmatch.2] at hl
    obtain ⟨e, he, rfl⟩ := List.mem_map.1 hl
    exact ⟨(List.of_mem_zip he).1, Or.inl ⟨rfl, id, hid, he⟩⟩

theorem holds_eq (h : Matches keys ids t) (hplain : ∀ pk ∈ keys, Path.Plain pk) (record : Record) :
    t.holds record = ids.any fun id => sameId (keys.map fun pk => (record.get? pk).getD .null) id := by
  cases h with
  | @one pk v =>
    change Leaf.holds _ record = _
    rw [Leaf.holds, Record.value_of_plain (hplain pk (by simp))]
    simp [Leaf.holdsFor, sameId, Value.sameItems]
  | @list pk ids hids =>
    change Leaf.holds _ record = _
    rw [Leaf.holds, Record.value_of_plain (hplain pk (by simp))]
    exact any_head_same hids
  | empty => rfl
  | union hall ht =>
    rw [holds_of_join? ht, Aggregator.combine, List.any_map]
    exact any_holds_of_matchId? hplain record hall

end Matches

/-- The condition on ids holds for a record with an id exactly when this is one of them, value by value and
numbers by their size. On no ids it holds for no record. -/
theorem holds_matchIds_iff {schema : CollectionSchema} (hplain : ∀ pk ∈ schema.primaryKeys, Path.Plain pk)
    {ids : List CompositeId} {t : Condition} (ht : matchIds schema ids = .ok t) :
    (∀ (record : Record) (own : CompositeId), record.id schema = .ok own →
      (t.holds record = true ↔ ∃ id ∈ ids, List.Forall₂ (fun v w => Value.same v w = true) own id)) ∧
    (ids = [] → ∀ record : Record, t.holds record = false) := by
  have hholds := (matches_of_matchIds ht).holds_eq hplain
  constructor
  · intro record own hown
    obtain ⟨rfl, -⟩ := Record.id_eq_ok_iff.1 hown
    rw [hholds, List.any_eq_true]
    exact exists_congr fun id => and_congr_right fun _ => sameId_iff
  · rintro rfl record
    rw [hholds]
    rfl

/-- Seats are known by their hall and their number. -/
def seats : CollectionSchema :=
  let key (t : ColumnType) : Field := .column ((Column.ofType t).withOperators [.equal]).primaryKey
  (CollectionSchema.empty.withField "hall" (key .string)).withField "number" (key .number)

/-- A booked seat has the number of a given one in another form. -/
theorem holds_matchIds_iff_seats :
    let given := [[Value.text "north", .int 1], [.text "south", .number (.double (Binary64.ofInt 2))]]
    let seat : Record := [("booked", .bool true), ("hall", .text "south"), ("number", .int 2)]
    (∀ pk ∈ seats.primaryKeys, Path.Plain pk) ∧ seat.id seats = .ok [.text "south", .int 2] ∧
      (∃ t, matchIds seats given = .ok t ∧ (t.holds seat = true ↔
        ∃ id ∈ given, List.Forall₂ (fun v w => Value.same v w = true) [.text "south", .int 2] id)) ∧
      ∃ t, matchIds seats [] = .ok t ∧ t.holds seat = false := by
  intro given seat
  have hplain : ∀ pk ∈ seats.primaryKeys, Path.Plain pk := by decide +kernel
  have hid : seat.id seats = .ok [.text "south", .int 2] := rfl
  have hgiven : matchIds seats given = .ok (ofIds "hall" ["number"] given) := rfl
  have hnone : matchIds seats [] = .ok (ofIds "hall" ["number"] []) := rfl
  exact ⟨hplain, hid, ⟨_, hgiven, (holds_matchIds_iff hplain hgiven).1 seat _ hid⟩,
    _, hnone, (holds_matchIds_iff hplain hnone).2 rfl seat⟩

end Condition

end QueryLayer
