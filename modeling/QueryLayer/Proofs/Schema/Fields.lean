import QueryLayer.Proofs.Data.Entries
import QueryLayer.Schema.Basic

/-! # The fields of a schema

Columns, relations and primary keys are listed in name order, each name once, and they are found by their
names.
-/
namespace QueryLayer.CollectionSchema

variable {schema : CollectionSchema} {f : String}

theorem column?_eq_some_iff {c : Column} :
    schema.column? f = some c ↔ schema.fields.get? f = some (.column c) := by
  unfold column?
  rw [Option.bind_eq_some_iff]
  constructor
  · rintro ⟨field, hfield, hcolumn⟩
    cases field with
    | column d => exact hfield.trans (congrArg (some ∘ Field.column) (Option.some.inj hcolumn))
    | relation r => cases hcolumn
  · exact fun hfield => ⟨.column c, hfield, rfl⟩

theorem relation?_eq_some_iff {r : Relation} :
    schema.relation? f = some r ↔ schema.fields.get? f = some (.relation r) := by
  unfold relation?
  rw [Option.bind_eq_some_iff]
  constructor
  · rintro ⟨field, hfield, hrelation⟩
    cases field with
    | column c => cases hrelation
    | relation d => exact hfield.trans (congrArg (some ∘ Field.relation) (Option.some.inj hrelation))
  · exact fun hfield => ⟨.relation r, hfield, rfl⟩

theorem isSome_get?_of_column? {c : Column} (h : schema.column? f = some c) :
    (schema.fields.get? f).isSome := by
  obtain ⟨field, hfield, _⟩ := Option.bind_eq_some_iff.1 h
  rw [hfield]
  rfl

theorem isSome_get?_of_relation? {r : Relation} (h : schema.relation? f = some r) :
    (schema.fields.get? f).isSome := by
  obtain ⟨field, hfield, _⟩ := Option.bind_eq_some_iff.1 h
  rw [hfield]
  rfl

theorem column?_or_relation? (h : (schema.fields.get? f).isSome) :
    (∃ c, schema.column? f = some c) ∨ ∃ r, schema.relation? f = some r := by
  obtain ⟨field, hfield⟩ := Option.isSome_iff_exists.1 h
  unfold column? relation?
  rw [hfield]
  cases field with
  | column c => exact Or.inl ⟨c, rfl⟩
  | relation r => exact Or.inr ⟨r, rfl⟩

/-- The fields of one sort are found by their names. -/
theorem mem_filterMap_fields_iff {α : Type} {g : Field → Option α} {e : String × α} :
    (e ∈ schema.fields.entries.filterMap fun d => (g d.2).map fun a => (d.1, a)) ↔
      (schema.fields.get? e.1).bind g = some e.2 := by
  rw [List.mem_filterMap]
  constructor
  · rintro ⟨d, hd, hg⟩
    obtain ⟨a, ha, rfl⟩ := Option.map_eq_some_iff.1 hg
    rw [Dict.get?_eq_some_iff.2 hd, Option.bind_some, ha]
  · intro h
    obtain ⟨field, hfield, ha⟩ := Option.bind_eq_some_iff.1 h
    exact ⟨(e.1, field), Dict.get?_eq_some_iff.1 hfield, by rw [ha]; rfl⟩

theorem mem_columns_iff {e : String × Column} : e ∈ schema.columns ↔ schema.column? e.1 = some e.2 :=
  mem_filterMap_fields_iff

theorem mem_relations_iff {e : String × Relation} :
    e ∈ schema.relations ↔ schema.relation? e.1 = some e.2 :=
  mem_filterMap_fields_iff

theorem sorted_columns (schema : CollectionSchema) : Entries.Sorted schema.columns := by
  refine List.Pairwise.filterMap _ (fun d e hlt a ha b hb => ?_) schema.fields.sorted
  obtain ⟨_, _, rfl⟩ := Option.map_eq_some_iff.1 ha
  obtain ⟨_, _, rfl⟩ := Option.map_eq_some_iff.1 hb
  exact hlt

theorem get?_columns (schema : CollectionSchema) (f : String) :
    Entries.get? schema.columns f = schema.column? f := by
  refine Option.ext fun c => ?_
  constructor
  · exact fun h => mem_columns_iff.1 (Entries.get?_eq_some_mem h)
  · exact fun h => Entries.get?_of_mem schema.sorted_columns (mem_columns_iff.2 h)

theorem mem_primaryKeys_iff {pk : String} :
    pk ∈ schema.primaryKeys ↔ ∃ c, schema.column? pk = some c ∧ c.isPrimaryKey = true := by
  unfold primaryKeys
  rw [List.mem_map]
  constructor
  · rintro ⟨e, he, rfl⟩
    obtain ⟨hmem, hkey⟩ := List.mem_filter.1 he
    exact ⟨e.2, mem_columns_iff.1 hmem, hkey⟩
  · rintro ⟨c, hc, hkey⟩
    exact ⟨(pk, c), List.mem_filter.2 ⟨mem_columns_iff.2 hc, hkey⟩, rfl⟩

theorem nodup_primaryKeys (schema : CollectionSchema) : schema.primaryKeys.Nodup := by
  have hsorted : Entries.Sorted (schema.columns.filter fun e => e.2.isPrimaryKey) :=
    schema.sorted_columns.filter _
  exact hsorted.nodup

end QueryLayer.CollectionSchema
