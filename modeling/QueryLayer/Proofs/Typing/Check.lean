import QueryLayer.Proofs.Outcome
import QueryLayer.Proofs.Query.Condition
import QueryLayer.Typing.Check

/-! # What checked queries are

A condition passes exactly when its leaves do and its branches are wide enough; a leaf passes exactly
when its path leads to a column that `Admits` it. A path under a relation is a path of the foreign
collection.
-/
namespace QueryLayer

/-- Whether a column can be compared by an operator with a value. -/
structure Column.Admits (c : Column) (o : Operator) (v : Value) : Prop where
  allowed : c.columnType.operators.contains o = true
  declared : c.filterOperators.contains o = true
  suited : o.valueTypes.contains (.ofValue v c.columnType) = true
  fitting : ValueType.ofValue v c.columnType ≠ .null ∧ o ≠ .longerThan ∧ o ≠ .shorterThan →
    ∀ types, c.columnType.valueTypes? = some types → types.contains (.ofValue v c.columnType) = true
  listed : c.checkEnum v = .ok ()

namespace Scope

variable {s : Scope}

theorem checkLeaf_eq_ok_iff {l : Leaf} :
    s.checkLeaf l = .ok () ↔ ∃ c, s.column l.field = .ok c ∧ c.Admits l.operator l.value := by
  unfold checkLeaf
  rw [Outcome.bind_eq_ok_iff]
  refine exists_congr fun c => and_congr_right fun _ => ?_
  dsimp only
  rw [Outcome.guard_eq_ok_iff, Outcome.guard_eq_ok_iff, Outcome.guard_eq_ok_iff]
  simp only [Bool.not_eq_true', Bool.not_eq_false]
  split
  · next htyped =>
    cases htypes : c.columnType.valueTypes? with
    | none =>
      constructor
      · rintro ⟨hallowed, hdeclared, hsuited, hlisted⟩
        exact ⟨hallowed, hdeclared, hsuited, fun _ types h => by simp [htypes] at h, hlisted⟩
      · intro h
        exact ⟨h.allowed, h.declared, h.suited, h.listed⟩
    | some types =>
      dsimp only
      rw [Outcome.guard_eq_ok_iff, Bool.not_eq_false]
      constructor
      · rintro ⟨hallowed, hdeclared, hsuited, hfitting, hlisted⟩
        refine ⟨hallowed, hdeclared, hsuited, fun _ types' h => ?_, hlisted⟩
        rw [htypes] at h
        cases h
        exact hfitting
      · intro h
        exact ⟨h.allowed, h.declared, h.suited, h.fitting htyped types htypes, h.listed⟩
  · next huntyped =>
    constructor
    · rintro ⟨hallowed, hdeclared, hsuited, hlisted⟩
      exact ⟨hallowed, hdeclared, hsuited, fun h => absurd h huntyped, hlisted⟩
    · intro h
      exact ⟨h.allowed, h.declared, h.suited, h.listed⟩

theorem checkConditions_eq_ok_iff {cs : List Condition} :
    s.checkConditions cs = .ok () ↔ ∀ c ∈ cs, s.checkCondition c = .ok () := by
  induction cs with
  | nil => simp [checkConditions]
  | cons c cs ih =>
    rw [checkConditions, Outcome.seq_eq_ok_iff, ih, List.forall_mem_cons]

@[simp] theorem checkCondition_leaf (l : Leaf) : s.checkCondition (.leaf l) = s.checkLeaf l := rfl

@[simp] theorem checkCondition_not (c : Condition) : s.checkCondition (.not c) = s.checkCondition c := rfl

theorem checkCondition_branch_eq_ok_iff {a : Aggregator} {cs : List Condition} :
    s.checkCondition (.branch a cs) = .ok () ↔ 2 ≤ cs.length ∧ ∀ c ∈ cs, s.checkCondition c = .ok () := by
  rw [checkCondition]
  split
  · next h =>
    constructor
    · intro h
      cases h
    · rintro ⟨hlength, _⟩
      omega
  · next h =>
    rw [checkConditions_eq_ok_iff]
    exact ⟨fun hcs => ⟨by omega, hcs⟩, fun hcs => hcs.2⟩

theorem checkLeaf_of_mem_leaves {c : Condition} (h : s.checkCondition c = .ok ()) {l : Leaf}
    (hl : l ∈ c.leaves) : s.checkLeaf l = .ok () := by
  induction c using Condition.induct with
  | hleaf m =>
    obtain rfl := List.mem_singleton.1 hl
    exact h
  | hnot c ih => exact ih h hl
  | hbranch a cs ih =>
    rw [Condition.leaves_branch] at hl
    obtain ⟨c, hc, hl⟩ := List.mem_flatMap.1 hl
    exact ih c hc ((checkCondition_branch_eq_ok_iff.1 h).2 c hc) hl

/-- A condition that passes compares something. -/
theorem leaves_ne_nil_of_check {c : Condition} (h : s.checkCondition c = .ok ()) : c.leaves ≠ [] := by
  induction c using Condition.induct with
  | hleaf m => simp
  | hnot c ih => exact ih h
  | hbranch a cs ih =>
    obtain ⟨hlength, hcs⟩ := checkCondition_branch_eq_ok_iff.1 h
    cases cs with
    | nil => simp at hlength
    | cons c cs =>
      intro hnil
      rw [Condition.leaves_branch, List.flatMap_cons, List.append_eq_nil_iff] at hnil
      exact ih c List.mem_cons_self (hcs c List.mem_cons_self) hnil.1

/-- Replacements that pass where their leaf or they themselves did make a condition that passes. -/
theorem checkCondition_of_replaced {t : Scope} {R : Leaf → Condition → Prop} {c d : Condition}
    (h : Condition.Replaced R c d)
    (hR : ∀ l e, R l e → s.checkLeaf l = .ok () ∨ s.checkCondition e = .ok () → t.checkCondition e = .ok ())
    (hcheck : s.checkCondition c = .ok () ∨ s.checkCondition d = .ok ()) :
    t.checkCondition d = .ok () := by
  revert hcheck
  refine h.induct (motive := fun c d => s.checkCondition c = .ok () ∨ s.checkCondition d = .ok () →
    t.checkCondition d = .ok ()) (fun l e _ hle => hR l e hle) (fun c d ih => ih) fun a cs ds ih hcheck => ?_
  rw [checkCondition_branch_eq_ok_iff, checkCondition_branch_eq_ok_iff, ← ih.length_eq] at hcheck
  rw [checkCondition_branch_eq_ok_iff, ← ih.length_eq]
  refine ⟨hcheck.elim And.left And.left, fun d hd => ?_⟩
  obtain ⟨i, hi, rfl⟩ := List.getElem_of_mem hd
  have hi' : i < cs.length := by rw [ih.length_eq]; exact hi
  refine (List.forall₂_iff_get.1 ih).2 i hi' hi ?_
  rcases hcheck with hcs | hds
  · exact Or.inl (hcs.2 _ (List.get_mem _ _))
  · exact Or.inr (hds.2 _ (List.get_mem _ _))

theorem checkFields_eq_ok_iff {fields : List String} :
    s.checkFields fields = .ok () ↔ ∀ f ∈ fields, ∃ c, s.column f = .ok c := by
  unfold checkFields
  rw [Outcome.forM_eq_ok_iff]
  refine forall₂_congr fun f _ => ?_
  rw [Outcome.bind_eq_ok_iff]
  exact exists_congr fun c => and_iff_left rfl

theorem checkAggregation_none {function : AggregateFunction} {groups : List AggregationGroup} :
    s.checkAggregation ⟨function, none, groups⟩ = .ok () ↔
      function = .count ∧ s.checkFields (groups.map AggregationGroup.field) = .ok () := by
  unfold checkAggregation
  dsimp only
  rw [Outcome.guard_eq_ok_iff, ne_eq, Decidable.not_not]

theorem checkAggregation_some {function : AggregateFunction} {field : String}
    {groups : List AggregationGroup} :
    s.checkAggregation ⟨function, some field, groups⟩ = .ok () ↔
      (∃ c, s.column field = .ok c ∧ (function = .sum ∨ function = .avg → c.columnType = .number)) ∧
        s.checkFields (groups.map AggregationGroup.field) = .ok () := by
  unfold checkAggregation
  rw [Outcome.bind_eq_ok_iff, ← exists_and_right]
  refine exists_congr fun c => ?_
  rw [and_assoc]
  refine and_congr_right fun _ => ?_
  dsimp only
  rw [Outcome.guard_eq_ok_iff, not_and, ne_eq, Decidable.not_not]

/-! ## Paths -/

/-- The collection that a relation leads to. -/
def foreign (s : Scope) (r : Relation) (schema : CollectionSchema) : Scope :=
  ⟨r.foreignCollection, schema, s.catalog⟩

theorem column_of_plain {name : String} (h : Path.Plain name) {c : Column} :
    s.column name = .ok c ↔ s.schema.column? name = some c := by
  rw [column, Path.hops_of_plain h, columnAt, CollectionSchema.column?]
  cases s.schema.fields.get? name with
  | none => simp
  | some f => cases f <;> simp [Field.column?]

theorem column_under {name : String} (h : Path.Plain name) {path : String} {c : Column} :
    s.column (Path.under name path) = .ok c ↔
      ∃ r schema, s.schema.relation? name = some r ∧ r.kind.isToOne = true ∧
        s.catalog r.foreignCollection = some schema ∧ (s.foreign r schema).column path = .ok c := by
  obtain ⟨hop, rest, hhops⟩ := List.exists_cons_of_ne_nil (Path.hops_ne_nil path)
  rw [column, Path.hops_under h, hhops, columnAt, CollectionSchema.relation?]
  · cases s.schema.fields.get? name with
    | none => simp
    | some f =>
      cases f with
      | column c => simp [Field.relation?]
      | relation r =>
        simp only [Option.bind_some, Field.relation?, Option.some.injEq]
        by_cases hone : r.kind.isToOne
        · cases hcatalog : s.catalog r.foreignCollection with
          | none =>
            simp only [hone, if_true]
            constructor
            · intro h
              cases h
            · rintro ⟨r', schema, rfl, _, hs, _⟩
              rw [hcatalog] at hs
              cases hs
          | some schema =>
            simp only [hone, if_true]
            constructor
            · intro h
              refine ⟨r, schema, rfl, hone, hcatalog, ?_⟩
              rw [column, hhops]
              exact h
            · rintro ⟨r', schema', rfl, _, hs, h⟩
              rw [hcatalog] at hs
              cases hs
              rw [column, hhops] at h
              exact h
        · simp only [hone]
          constructor
          · intro h
            cases h
          · rintro ⟨r', _, rfl, hone', _⟩
            exact absurd hone' hone
  · simp

theorem checkLeaf_nest_iff {name : String} (h : Path.Plain name) {l : Leaf} :
    s.checkLeaf (l.nest name) = .ok () ↔
      ∃ r schema, s.schema.relation? name = some r ∧ r.kind.isToOne = true ∧
        s.catalog r.foreignCollection = some schema ∧ (s.foreign r schema).checkLeaf l = .ok () := by
  rw [checkLeaf_eq_ok_iff]
  constructor
  · rintro ⟨c, hc, hadmits⟩
    obtain ⟨r, schema, hr, hone, hs, hc⟩ := (column_under h).1 hc
    exact ⟨r, schema, hr, hone, hs, checkLeaf_eq_ok_iff.2 ⟨c, hc, hadmits⟩⟩
  · rintro ⟨r, schema, hr, hone, hs, hl⟩
    obtain ⟨c, hc, hadmits⟩ := checkLeaf_eq_ok_iff.1 hl
    exact ⟨c, (column_under h).2 ⟨r, schema, hr, hone, hs, hc⟩, hadmits⟩

end Scope

/-! ## Records -/

/-- Every member is a column that accepts its value. -/
def Record.Fits (schema : CollectionSchema) (record : Record) : Prop :=
  ∀ e ∈ record, ∃ c, schema.column? e.1 = some c ∧ c.checkValue e.2 = .ok ()

theorem Scope.checkRecord_eq_ok_iff {s : Scope} {record : Record} :
    s.checkRecord record = .ok () ↔ record.Fits s.schema := by
  unfold checkRecord
  rw [Outcome.forM_eq_ok_iff]
  refine forall₂_congr fun e _ => ?_
  cases s.schema.column? e.1 <;> simp

namespace Record.Fits

variable {schema : CollectionSchema} {record : Record}

theorem get? (h : record.Fits schema) {name : String} {v : Value} (hv : record.get? name = some v) :
    ∃ c, schema.column? name = some c ∧ c.checkValue v = .ok () :=
  h _ (Entries.get?_eq_some_mem hv)

theorem get?_eq_none (h : record.Fits schema) {name : String} (hname : schema.column? name = none) :
    record.get? name = none := by
  cases hv : record.get? name with
  | none => rfl
  | some v =>
    obtain ⟨c, hc, _⟩ := h.get? hv
    rw [hname] at hc
    cases hc

theorem insert (h : record.Fits schema) {name : String} {v : Value} {c : Column}
    (hc : schema.column? name = some c) (hv : c.checkValue v = .ok ()) :
    (record.insert name v).Fits schema := by
  intro e he
  rcases Entries.mem_insert he with rfl | he
  · exact ⟨c, hc, hv⟩
  · exact h e he

end Record.Fits

end QueryLayer
