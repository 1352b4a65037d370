import QueryLayer.Proofs.Schema.Fields
import QueryLayer.Proofs.Typing.Check

/-! # Conditions under a relation

A condition under a to-one relation asks of the nested record what the condition itself asks of a record, and is
checked as it is in the collection that the relation leads to. Even its refusals are the same: only one of them
names the compared field, and then as the path that was checked.
-/
namespace QueryLayer

/-- The refusal of a query under a relation. -/
def Error.under (name : String) : Error → Error
  | .query (.unsupportedOperator field operator) => .query (.unsupportedOperator (Path.under name field) operator)
  | e => e

namespace Scope

/-- `f` is the collection that a to-one relation of `o` leads to, in the source to which both belong. -/
structure Leads (o : Scope) (name : String) (f : Scope) : Prop where
  plain : Path.Plain name
  related : ∃ r, o.schema.relation? name = some r ∧ r.kind.isToOne = true ∧ r.foreignCollection = f.name
  found : o.catalog f.name = some f.schema
  shared : f.catalog = o.catalog

variable {o f : Scope} {name : String}

/-- A path that goes through the relation is one of the collection behind it, whatever comes of it. -/
theorem Leads.column (h : o.Leads name f) (path : String) : o.column (Path.under name path) = f.column path := by
  obtain ⟨r, hr, hone, hforeign⟩ := h.related
  have hfield := CollectionSchema.relation?_eq_some_iff.1 hr
  obtain ⟨hop, rest, hhops⟩ := List.exists_cons_of_ne_nil (Path.hops_ne_nil path)
  unfold Scope.column
  rw [Path.hops_under h.plain, hhops, columnAt, hfield, h.shared]
  · simp only [hone, hforeign, h.found, if_true]
  · simp

/-- What is wrong with a path has nothing to do with an operator. -/
theorem under_of_columnAt {catalog : Catalog} {collection : String} {schema : CollectionSchema}
    {hops : List String} {e : Error} (h : columnAt catalog collection schema hops = .error e) :
    e.under name = e := by
  fun_induction columnAt catalog collection schema hops
  -- behind a relation the path goes on; everywhere else it ends
  case case5 ih => exact ih h
  all_goals cases h <;> rfl

theorem mapError_checkEnum (c : Column) (v : Value) :
    (c.checkEnum v).mapError (Error.under name) = c.checkEnum v := by
  unfold Column.checkEnum
  split
  · rfl
  · lift_lets
    intro allowed given
    split <;> rfl

theorem Leads.checkLeaf (h : o.Leads name f) (l : Leaf) :
    o.checkLeaf (l.nest name) = (f.checkLeaf l).mapError (Error.under name) := by
  unfold Scope.checkLeaf
  dsimp only [Leaf.nest]
  rw [h.column]
  cases hc : f.column l.field with
  | error e => exact congrArg Except.error (under_of_columnAt hc).symm
  | ok c =>
    rw [Outcome.ok_bind, Outcome.ok_bind]
    refine Outcome.guard_eq_mapError rfl (Outcome.guard_eq_mapError rfl (Outcome.guard_eq_mapError rfl ?_))
    have henum : c.checkEnum l.value = (c.checkEnum l.value).mapError (Error.under name) :=
      (mapError_checkEnum c l.value).symm
    refine Outcome.ite_eq_mapError ?_ henum
    cases c.columnType.valueTypes? with
    | none => exact henum
    | some allowed => exact Outcome.guard_eq_mapError rfl henum

/-- A condition under the relation is refused as the condition itself is. -/
theorem Leads.checkCondition (h : o.Leads name f) (c : Condition) :
    o.checkCondition (c.nest name) = (f.checkCondition c).mapError (Error.under name) := by
  induction c using Condition.induct with
  | hleaf l => exact h.checkLeaf l
  | hnot c ih => exact ih
  | hbranch a cs ih =>
    have hall : o.checkConditions (cs.map (Condition.nest name)) =
        (f.checkConditions cs).mapError (Error.under name) := by
      induction cs with
      | nil => rfl
      | cons c cs ihcs =>
        rw [List.forall_mem_cons] at ih
        exact Outcome.seq_eq_mapError ih.1 (ihcs ih.2)
    rw [Condition.nest_branch, Scope.checkCondition, Scope.checkCondition, List.length_map, hall]
    split <;> rfl

/-- A condition passes under a to-one relation exactly when it passes in the foreign collection. -/
theorem checkCondition_nest_iff (h : Path.Plain name) {r : Relation} {schema : CollectionSchema}
    (hr : o.schema.relation? name = some r) (hone : r.kind.isToOne = true)
    (hs : o.catalog r.foreignCollection = some schema) {c : Condition} :
    o.checkCondition (c.nest name) = .ok () ↔ (o.foreign r schema).checkCondition c = .ok () := by
  have hleads : o.Leads name (o.foreign r schema) := ⟨h, ⟨r, hr, hone, rfl⟩, hs, rfl⟩
  rw [hleads.checkCondition, Outcome.mapError_eq_ok_iff]

end Scope

end QueryLayer
