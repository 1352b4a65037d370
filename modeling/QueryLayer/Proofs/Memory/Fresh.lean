import Mathlib.Data.List.Pairwise
import QueryLayer.Proofs.Memory.Run
import QueryLayer.Proofs.Query.Identity

/-! # Fresh ids

Ids are `Fresh` when they differ from each other and from those that are there already. A batch is accepted
when the ids that it is stored with, its own ones and the assigned ones, are fresh.
-/
namespace QueryLayer.Memory

theorem hasId_eq_false_iff {ids : List CompositeId} {id : CompositeId} :
    hasId ids id = false ↔ ∀ i ∈ ids, sameId i id = false := by
  simp [hasId]

/-- Ids that differ from each other and from all that are there. -/
structure Fresh (ids others : List CompositeId) : Prop where
  apart : ∀ id ∈ others, hasId ids id = false
  distinct : others.Pairwise fun a b => sameId a b = false

namespace Fresh

variable {ids others more : List CompositeId}

theorem nil (ids : List CompositeId) : Fresh ids [] := ⟨by simp, .nil⟩

theorem append_iff : Fresh ids (others ++ more) ↔ Fresh ids others ∧ Fresh (ids ++ others) more := by
  have hsplit : ∀ id, hasId (ids ++ others) id = false ↔
      hasId ids id = false ∧ ∀ other ∈ others, sameId other id = false := by
    intro id
    rw [hasId_eq_false_iff, hasId_eq_false_iff, List.forall_mem_append]
  constructor
  · intro h
    obtain ⟨hothers, hmore, hapart⟩ := List.pairwise_append.1 h.distinct
    refine ⟨⟨fun id hid => h.apart id (List.mem_append_left _ hid), hothers⟩, ⟨fun id hid => ?_, hmore⟩⟩
    have hnew := h.apart id (List.mem_append_right _ hid)
    exact (hsplit id).2 ⟨hnew, fun other hother => hapart other hother id hid⟩
  · rintro ⟨hothers, hmore⟩
    have hnew : ∀ id ∈ more, hasId ids id = false ∧ ∀ other ∈ others, sameId other id = false :=
      fun id hid => (hsplit id).1 (hmore.apart id hid)
    refine ⟨fun id hid => ?_, List.pairwise_append.2 ⟨hothers.distinct, hmore.distinct, ?_⟩⟩
    · rcases List.mem_append.1 hid with hid | hid
      · exact hothers.apart id hid
      · exact (hnew id hid).1
    · intro other hother id hid
      exact (hnew id hid).2 other hother

theorem cons_iff {id : CompositeId} :
    Fresh ids (id :: others) ↔ hasId ids id = false ∧ Fresh (ids ++ [id]) others := by
  have hone : Fresh ids [id] ↔ hasId ids id = false := by
    constructor
    · intro h
      exact h.apart id (List.mem_singleton_self id)
    · intro h
      exact ⟨by simpa using h, List.pairwise_singleton _ _⟩
  rw [← List.singleton_append, append_iff, hone]

theorem perm_iff (h : others.Perm more) : Fresh ids others ↔ Fresh ids more := by
  have hsymm : ∀ {a b : CompositeId}, sameId a b = false → sameId b a = false := by
    intro a b hab
    rw [sameId_comm]
    exact hab
  constructor
  · intro hf
    exact ⟨fun id hid => hf.apart id (h.mem_iff.2 hid), (h.pairwise_iff hsymm).1 hf.distinct⟩
  · intro hf
    exact ⟨fun id hid => hf.apart id (h.mem_iff.1 hid), (h.pairwise_iff hsymm).2 hf.distinct⟩

end Fresh

/-! ## Batches -/

/-- The key that is assigned is the only one. -/
theorem primaryKeys_of_assignedKey {schema : CollectionSchema} {pk : String}
    (h : assignedKey? schema = some pk) : schema.primaryKeys = [pk] := by
  unfold assignedKey? at h
  split at h
  · next hkeys =>
    split at h <;> cases h
    exact hkeys
  · cases h

/-- What a record becomes before its id is looked at, and the integer that the next one may get. -/
def keyedFrom (key? : Option String) (record : Record) (next : Int) : Record × Int :=
  match key? with
  | some pk =>
    if ((record.get? pk).getD .null).isNull then (record.insert pk (.int next), wrap64 (next + 1))
    else (record, next)
  | none => (record, next)

theorem keyedFrom_cases (key? : Option String) (record : Record) (next : Int) :
    (keyedFrom key? record next).1 = record ∨
      ∃ pk i, key? = some pk ∧ (keyedFrom key? record next).1 = record.insert pk (.int i) := by
  unfold keyedFrom
  cases key? with
  | none => exact Or.inl rfl
  | some pk =>
    dsimp only
    split
    · exact Or.inr ⟨pk, next, rfl, rfl⟩
    · exact Or.inl rfl

theorem assign_cons_eq (schema : CollectionSchema) (key? : Option String) (record : Record)
    (rest : List Record) (ids : List CompositeId) (next : Int) :
    assign schema key? (record :: rest) ids next = (do
      let id ← (keyedFrom key? record next).1.id schema
      if hasId ids id then throw (.query (.duplicatePrimaryKey id))
      let others ← assign schema key? rest (ids ++ [id]) (keyedFrom key? record next).2
      pure ((keyedFrom key? record next).1 :: others)) := by
  cases key? <;> rfl

/-- What the first record becomes: itself, or itself with an integer for its key. Its id is new. -/
theorem assign_cons {schema : CollectionSchema} {key? : Option String} {record : Record}
    {rest created : List Record} {ids : List CompositeId} {next : Int}
    (h : assign schema key? (record :: rest) ids next = .ok created) :
    ∃ first later others,
      (first = record ∨ ∃ pk i, key? = some pk ∧ first = record.insert pk (.int i)) ∧
      (∀ v ∈ first.key schema, v ≠ .null) ∧ hasId ids (first.key schema) = false ∧
      assign schema key? rest (ids ++ [first.key schema]) later = .ok others ∧
      created = first :: others := by
  rw [assign_cons_eq] at h
  obtain ⟨id, hid, h⟩ := Outcome.bind_eq_ok_iff.1 h
  obtain ⟨rfl, hpresent⟩ := Record.id_eq_ok_iff.1 hid
  dsimp only at h
  split at h
  · cases h
  · next hnew =>
    obtain ⟨others, hrest, h⟩ := Outcome.bind_eq_ok_iff.1 h
    cases h
    exact ⟨_, _, others, keyedFrom_cases key? record next, hpresent, Bool.eq_false_iff.2 hnew, hrest, rfl⟩

/-- The records as they are stored, with the numbers from `next` on for those that lack an id. -/
def numberedFrom (key? : Option String) : List Record → Int → List Record
  | [], _ => []
  | record :: rest, next =>
    (keyedFrom key? record next).1 :: numberedFrom key? rest (keyedFrom key? record next).2

/-- A batch is accepted when the ids that it is stored with are there and fresh. -/
theorem assign_eq_ok_iff {schema : CollectionSchema} {key? : Option String} {records created : List Record}
    {ids : List CompositeId} {next : Int} :
    assign schema key? records ids next = .ok created ↔
      created = numberedFrom key? records next ∧ (∀ r ∈ created, ∀ v ∈ r.key schema, v ≠ .null) ∧
        Fresh ids (created.map fun r => r.key schema) := by
  induction records generalizing ids next created with
  | nil =>
    unfold assign numberedFrom
    constructor
    · intro h
      cases h
      exact ⟨rfl, by simp, .nil ids⟩
    · rintro ⟨rfl, -⟩
      rfl
  | cons record rest ih =>
    rw [assign_cons_eq, Outcome.bind_eq_ok_iff, numberedFrom]
    constructor
    · rintro ⟨id, hid, h⟩
      obtain ⟨rfl, hpresent⟩ := Record.id_eq_ok_iff.1 hid
      obtain ⟨hnew, h⟩ := Outcome.guard_eq_ok_iff.1 h
      obtain ⟨others, hothers, h⟩ := Outcome.bind_eq_ok_iff.1 h
      cases h
      obtain ⟨rfl, hrest, hfresh⟩ := ih.1 hothers
      refine ⟨rfl, List.forall_mem_cons.2 ⟨hpresent, hrest⟩, ?_⟩
      rw [List.map_cons, Fresh.cons_iff]
      exact ⟨Bool.eq_false_iff.2 hnew, hfresh⟩
    · rintro ⟨rfl, hpresent, hfresh⟩
      obtain ⟨hfirst, hrest⟩ := List.forall_mem_cons.1 hpresent
      rw [List.map_cons, Fresh.cons_iff] at hfresh
      refine ⟨_, Record.id_of_present hfirst, Outcome.guard_eq_ok_iff.2 ⟨?_, ?_⟩⟩
      · exact Bool.eq_false_iff.1 hfresh.1
      · exact Outcome.bind_eq_ok_iff.2 ⟨_, ih.2 ⟨rfl, hrest, hfresh.2⟩, rfl⟩

/-- Where all ids are there, nothing but one that is taken stops a batch. -/
theorem failsAs_assign {schema : CollectionSchema} {key? : Option String} {records : List Record}
    {ids : List CompositeId} {next : Int}
    (h : ∀ r ∈ numberedFrom key? records next, ∀ v ∈ r.key schema, v ≠ .null) :
    Outcome.FailsAs (fun e => ∃ id, e = .query (.duplicatePrimaryKey id))
      (assign schema key? records ids next) := by
  induction records generalizing ids next with
  | nil => exact Outcome.failsAs_ok []
  | cons record rest ih =>
    obtain ⟨hfirst, hrest⟩ := List.forall_mem_cons.1 h
    rw [assign_cons_eq, Record.id_of_present hfirst, Outcome.ok_bind]
    refine Outcome.FailsAs.guard ⟨_, rfl⟩ ((ih hrest).bind fun others => ?_)
    exact Outcome.failsAs_ok _

end QueryLayer.Memory
