import QueryLayer.Emulation.Basic
import QueryLayer.Proofs.Memory.Run
import QueryLayer.Proofs.Emulation.BruteForce

/-! # Registrations on a memory source

Every registration that was accepted is for a column of a collection whose keys declare equality and
membership, so that brute force can be used for it if these keys can stand in conditions.
-/
namespace QueryLayer.Emulation

/-- Emulations over a memory source, with registrations that were accepted one after the other. -/
inductive Registered (db : Database) : Emulation Store → Prop
  | none : Registered db (ofSource (Memory.source db))
  | register {e e' : Emulation Store} {collection field : String} {operator : Operator}
    {rule : EmulationRule Store} : Registered db e →
    e.register collection field operator rule = .ok e' → Registered db e'

/-- What an accepted registration says of its collection. -/
structure Accepted (db : Database) (name : String) (r : Registration (EmulationRule Store))
    (schema : CollectionSchema) : Prop where
  schema_eq : db.schemas.get? name = some schema
  column : (schema.column? r.field).isSome
  nonempty : schema.primaryKeys ≠ []
  declared : ∀ pk ∈ schema.primaryKeys, ∃ c, schema.column? pk = some c ∧
    c.filterOperators.contains .equal = true ∧ c.filterOperators.contains .oneOf = true

theorem checkRegistration_eq_ok {σ : Type} {c : Collection σ} {field : String}
    (h : checkRegistration c field = .ok ()) :
    (c.schema.column? field).isSome ∧ c.schema.primaryKeys ≠ [] ∧
      ∀ pk ∈ c.schema.primaryKeys, ∃ column, c.schema.column? pk = some column ∧
        column.filterOperators.contains .equal = true ∧ column.filterOperators.contains .oneOf = true := by
  unfold checkRegistration at h
  dsimp only at h
  split at h
  · cases h
  · next husable =>
    rw [Bool.not_eq_true', Bool.not_eq_false, Bool.and_eq_true] at husable
    refine ⟨?_, by simpa using husable.1, fun pk hpk => ?_⟩
    · unfold CollectionSchema.column?
      split at h
      · next column hf => simp [hf, Field.column?]
      · cases h
      · cases h
    · have hpk := List.all_eq_true.1 husable.2 pk hpk
      cases hc : c.schema.column? pk with
      | none => simp [hc] at hpk
      | some column => exact ⟨column, rfl, by simpa [hc] using hpk⟩

theorem of_add {ρ : Type} (rs : Registrations ρ) (collection : String) (r : Registration ρ) (name : String) :
    (rs.add collection r).of name =
      if collection = name then r :: (rs.of collection).filter fun q => !q.isFor r.field r.operator
      else rs.of name := by
  unfold Registrations.add Registrations.of
  rw [Dict.get?_insert]
  split <;> rfl

namespace Registered

variable {db : Database} {e : Emulation Store}

theorem child_eq (h : Registered db e) : e.child = Memory.source db := by
  induction h with
  | none => rfl
  | register _ hregister ih =>
    obtain ⟨c, _, hregister⟩ := Outcome.bind_eq_ok_iff.1 hregister
    obtain ⟨_, hregister⟩ := Outcome.seq_eq_ok_iff.1 hregister
    cases hregister
    exact ih

theorem accepted (h : Registered db e) {name : String} {r : Registration (EmulationRule Store)}
    (hr : r ∈ e.registrations.of name) : ∃ schema, Accepted db name r schema := by
  induction h with
  | none => cases hr
  | @register e e' collection field operator rule hbefore hregister ih =>
    obtain ⟨c, hc, hregister⟩ := Outcome.bind_eq_ok_iff.1 hregister
    obtain ⟨hcheck, hregister⟩ := Outcome.seq_eq_ok_iff.1 hregister
    cases hregister
    dsimp only at hr
    rw [of_add] at hr
    split at hr
    · next hname =>
      subst hname
      rcases List.mem_cons.1 hr with rfl | hr
      · rw [hbefore.child_eq] at hc
        obtain ⟨schema, hs, rfl⟩ := Memory.collection_source_eq_ok_iff.1 hc
        obtain ⟨hcolumn, hnonempty, hdeclared⟩ := checkRegistration_eq_ok hcheck
        exact ⟨schema, hs, hcolumn, hnonempty, hdeclared⟩
      · exact ih (List.mem_of_mem_filter hr)
    · exact ih hr

end Registered

/-- The keys of collections with registrations have one hop and a type with membership. -/
def MatchableKeys (db : Database) (e : Emulation Store) : Prop :=
  ∀ name schema, db.schemas.get? name = some schema → e.registrations.of name ≠ [] →
    ∀ pk ∈ schema.primaryKeys, Path.Plain pk ∧ ∀ c, schema.column? pk = some c → c.HasMembership

theorem mem_of_find? {ρ : Type} {rs : Registrations ρ} {name field : String} {operator : Operator}
    {r : Registration ρ} (h : rs.find? name field operator = some r) :
    r ∈ rs.of name ∧ r.field = field ∧ r.operator = operator := by
  have hfor := List.find?_some h
  simp only [Registration.isFor, Bool.and_eq_true, decide_eq_true_eq] at hfor
  exact ⟨List.mem_of_find?_eq_some h, hfor⟩

/-- Brute force can be used where an operator is registered. -/
theorem Registered.usable {db : Database} {e : Emulation Store} (h : Registered db e)
    (hkeys : MatchableKeys db e) {name : String} {schema : CollectionSchema}
    (hs : db.schemas.get? name = some schema) {field : String} {operator : Operator}
    {r : Registration (EmulationRule Store)} (hr : e.registrations.find? name field operator = some r) :
    schema.UsableKeys ∧ (schema.column? field).isSome := by
  obtain ⟨hmem, rfl, rfl⟩ := mem_of_find? hr
  obtain ⟨schema', haccepted⟩ := h.accepted hmem
  have hs' := haccepted.schema_eq
  rw [hs] at hs'
  cases hs'
  refine ⟨⟨haccepted.nonempty, fun pk hpk => ?_⟩, haccepted.column⟩
  obtain ⟨c, hc, hequal, hone⟩ := haccepted.declared pk hpk
  obtain ⟨hplain, hmembership⟩ := hkeys name schema hs (List.ne_nil_of_mem hmem) pk hpk
  exact ⟨c, hc, hplain, hmembership c hc, hequal, hone⟩

end QueryLayer.Emulation
