import QueryLayer.Proofs.Outcome
import QueryLayer.Proofs.Value.Same
import QueryLayer.Query.Identity

/-! # Keys of records

`Record.key` reads the primary key columns of any record; it is the id of one that has them all. Ids
are compared by an equivalence.
-/
namespace QueryLayer

theorem sameId_self (a : CompositeId) : sameId a a = true := Value.sameItems_self a

theorem sameId_comm (a b : CompositeId) : sameId a b = sameId b a := Value.sameItems_comm a b

theorem sameId_trans {a b c : CompositeId} (hab : sameId a b = true) (hbc : sameId b c = true) :
    sameId a c = true := Value.sameItems_trans a b c hab hbc

/-- Ids are the same when they are so value by value. -/
theorem sameId_iff {a b : CompositeId} :
    sameId a b = true ↔ List.Forall₂ (fun v w => Value.same v w = true) a b := by
  unfold sameId
  induction a generalizing b with
  | nil => cases b <;> simp [Value.sameItems]
  | cons v a ih => cases b <;> simp [Value.sameItems, ih]

namespace Record

/-- The values of the primary key columns, null where there is none. -/
def key (record : Record) (schema : CollectionSchema) : CompositeId :=
  schema.primaryKeys.map fun pk => (record.get? pk).getD .null

theorem id_eq_ok_iff {record : Record} {schema : CollectionSchema} {id : CompositeId} :
    record.id schema = .ok id ↔ id = record.key schema ∧ ∀ v ∈ record.key schema, v ≠ .null := by
  unfold Record.id
  refine (Outcome.mapM_eq_ok_map_iff (P := fun pk => (record.get? pk).getD .null ≠ .null)
    (g := fun pk => (record.get? pk).getD .null) fun pk v => ?_).trans ?_
  · cases record.get? pk with
    | none => simp
    | some w =>
      rw [Option.getD_some]
      dsimp only
      split
      · next hnull => simp [Value.isNull_eq_true.1 hnull]
      · next hnull =>
        rw [Except.ok.injEq, and_iff_right (mt Value.isNull_eq_true.2 hnull)]
        exact eq_comm
  · rw [key, List.forall_mem_map]
    exact and_comm

theorem id_of_present {record : Record} {schema : CollectionSchema}
    (h : ∀ v ∈ record.key schema, v ≠ .null) : record.id schema = .ok (record.key schema) :=
  id_eq_ok_iff.2 ⟨rfl, h⟩

/-- The key of a record depends on its primary key columns only. -/
theorem key_congr {a b : Record} {schema : CollectionSchema}
    (h : ∀ pk ∈ schema.primaryKeys, a.get? pk = b.get? pk) : a.key schema = b.key schema := by
  unfold key
  refine List.map_congr_left fun pk hpk => ?_
  rw [h pk hpk]

@[simp] theorem length_key (record : Record) (schema : CollectionSchema) :
    (record.key schema).length = schema.primaryKeys.length := by
  simp [key]

end Record

end QueryLayer
