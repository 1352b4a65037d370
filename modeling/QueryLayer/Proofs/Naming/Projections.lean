import QueryLayer.Proofs.Naming.Paths

/-! # Projections by public and by own names

A projection by public names `Translates` to one by own names when their paths lead to the same columns,
one for one. The relations that both go through correspond, and so do the projections under these.
-/
namespace QueryLayer.FieldNaming

variable {n : FieldNaming Store} {db : Database} {name : String} {schema : CollectionSchema}

/-- A path by public names and a path by own names, to the same column. -/
def SamePath (n : FieldNaming Store) (db : Database) (name : String) (schema : CollectionSchema)
    (g f : String) : Prop :=
  ∃ c, Leads n db name schema (Path.hops g) (Path.hops f) c

/-- Either both are the name of a column, or both go through a relation. -/
theorem SamePath.cases {g f : String} (h : SamePath n db name schema g f) :
    (Path.split? g = none ∧ Path.split? f = none ∧ n.ownField name g = .ok f ∧
      ∃ c, schema.column? f = some c) ∨
    ∃ g₁ g₂ f₁ f₂ r foreign, Path.split? g = some (g₁, g₂) ∧ Path.split? f = some (f₁, f₂) ∧
      n.ownField name g₁ = .ok f₁ ∧ schema.relation? f₁ = some r ∧ r.kind.isToOne = true ∧
      db.schemas.get? r.foreignCollection = some foreign ∧
      SamePath n db r.foreignCollection foreign g₂ f₂ := by
  obtain ⟨c, h⟩ := h
  generalize hgs : Path.hops g = gs at h
  generalize hfs : Path.hops f = fs at h
  cases h with
  | @column _ _ g' f' _ hg hc =>
    have hjoin := Path.join_hops g
    have hjoin' := Path.join_hops f
    rw [hgs] at hjoin
    rw [hfs] at hjoin'
    obtain rfl : g' = g := hjoin
    obtain rfl : f' = f := hjoin'
    exact Or.inl ⟨Path.split?_eq_none_iff.2 hgs, Path.split?_eq_none_iff.2 hfs, hg, c, hc⟩
  | @through _ _ g₁ f₁ r foreign _ _ _ hg hr hone hforeign hrest =>
    obtain ⟨g₂, hg₂, rfl⟩ := Path.exists_split?_of_hops hgs hrest.ne_nil.1
    obtain ⟨f₂, hf₂, rfl⟩ := Path.exists_split?_of_hops hfs hrest.ne_nil.2
    exact Or.inr ⟨g₁, g₂, f₁, f₂, r, foreign, hg₂, hf₂, hg, hr, hone, hforeign, c, hrest⟩

structure Translates (n : FieldNaming Store) (db : Database) (name : String) (schema : CollectionSchema)
    (p q : Projection) : Prop where
  forth : ∀ g ∈ p.fields, ∃ f ∈ q.fields, SamePath n db name schema g f
  back : ∀ f ∈ q.fields, ∃ g ∈ p.fields, SamePath n db name schema g f

namespace Translates

variable {p q : Projection}

theorem empty : Translates n db name schema .empty .empty where
  forth _ h := by cases h
  back _ h := by cases h

theorem ofList {gs fs : List String} (h : List.Forall₂ (SamePath n db name schema) gs fs) :
    Translates n db name schema (.ofList gs) (.ofList fs) where
  forth g hg := by
    obtain ⟨f, hf, hsame⟩ := Outcome.exists_of_mem_left h (Projection.mem_ofList.1 hg)
    exact ⟨f, Projection.mem_ofList.2 hf, hsame⟩
  back f hf := by
    obtain ⟨g, hg, hsame⟩ := Outcome.exists_of_mem_right h (Projection.mem_ofList.1 hf)
    exact ⟨g, Projection.mem_ofList.2 hg, hsame⟩

theorem union {p' q' : Projection} (h : Translates n db name schema p q)
    (h' : Translates n db name schema p' q') : Translates n db name schema (p.union p') (q.union q') where
  forth g hg := by
    rcases Projection.mem_union.1 hg with hg | hg
    · obtain ⟨f, hf, hsame⟩ := h.forth g hg
      exact ⟨f, Projection.mem_union.2 (Or.inl hf), hsame⟩
    · obtain ⟨f, hf, hsame⟩ := h'.forth g hg
      exact ⟨f, Projection.mem_union.2 (Or.inr hf), hsame⟩
  back f hf := by
    rcases Projection.mem_union.1 hf with hf | hf
    · obtain ⟨g, hg, hsame⟩ := h.back f hf
      exact ⟨g, Projection.mem_union.2 (Or.inl hg), hsame⟩
    · obtain ⟨g, hg, hsame⟩ := h'.back f hf
      exact ⟨g, Projection.mem_union.2 (Or.inr hg), hsame⟩

theorem isSome_get?_heads_iff {p : Projection} {name : String} :
    (p.heads.get? name).isSome ↔ ∃ f ∈ p.fields, ∃ rest, Path.split? f = some (name, rest) :=
  Projection.isSome_get?_heads_iff.trans Projection.through_singleton_iff

/-- A relation that the own projection goes through is one that the public projection goes through. -/
theorem head_own (h : Translates n db name schema p q) {f : String} (hf : (q.heads.get? f).isSome) :
    ∃ g r foreign, n.ownField name g = .ok f ∧ (p.heads.get? g).isSome ∧ schema.relation? f = some r ∧
      r.kind.isToOne = true ∧ db.schemas.get? r.foreignCollection = some foreign := by
  obtain ⟨x, hx, rest, hsplit⟩ := isSome_get?_heads_iff.1 hf
  obtain ⟨y, hy, hsame⟩ := h.back x hx
  obtain ⟨_, hnone, _⟩ | ⟨g, g₂, f₁, f₂, r, foreign, hg₂, hf₂, hg, hr, hone, hforeign, _⟩ := hsame.cases
  · rw [hsplit] at hnone
    cases hnone
  · rw [hsplit] at hf₂
    cases hf₂
    exact ⟨g, r, foreign, hg, isSome_get?_heads_iff.2 ⟨y, hy, g₂, hg₂⟩, hr, hone, hforeign⟩

theorem head_public (h : Translates n db name schema p q) {g : String} (hg : (p.heads.get? g).isSome) :
    ∃ f, n.ownField name g = .ok f ∧ (q.heads.get? f).isSome := by
  obtain ⟨x, hx, rest, hsplit⟩ := isSome_get?_heads_iff.1 hg
  obtain ⟨y, hy, hsame⟩ := h.forth x hx
  obtain ⟨hnone, _⟩ | ⟨g₁, g₂, f, f₂, _, _, hg₂, hf₂, hg, _⟩ := hsame.cases
  · rw [hsplit] at hnone
    cases hnone
  · rw [hsplit] at hg₂
    cases hg₂
    exact ⟨f, hg, isSome_get?_heads_iff.2 ⟨y, hy, f₂, hf₂⟩⟩

/-- The paths behind a relation translate in the foreign collection. -/
theorem unnest (h : Translates n db name schema p q) (hn : n.Faithful db) {g f : String}
    (hg : n.ownField name g = .ok f) {r : Relation} {foreign : CollectionSchema}
    (hr : schema.relation? f = some r) (hforeign : db.schemas.get? r.foreignCollection = some foreign) :
    Translates n db r.foreignCollection foreign (p.unnest g) (q.unnest f) where
  forth x hx := by
    obtain ⟨y, hy, hsplit⟩ := Projection.mem_unnest.1 hx
    obtain ⟨z, hz, hsame⟩ := h.forth y hy
    obtain ⟨hnone, _⟩ | ⟨g₁, g₂, f₁, f₂, r', foreign', hg₂, hf₂, hg', hr', _, hforeign', hrest⟩ := hsame.cases
    · rw [hsplit] at hnone
      cases hnone
    · rw [hsplit] at hg₂
      cases hg₂
      obtain rfl : f = f₁ := Except.ok.inj (hg.symm.trans hg')
      obtain rfl : r = r' := Option.some.inj (hr.symm.trans hr')
      obtain rfl : foreign = foreign' := Option.some.inj (hforeign.symm.trans hforeign')
      exact ⟨f₂, Projection.mem_unnest.2 ⟨z, hz, hf₂⟩, hrest⟩
  back x hx := by
    obtain ⟨y, hy, hsplit⟩ := Projection.mem_unnest.1 hx
    obtain ⟨z, hz, hsame⟩ := h.back y hy
    obtain ⟨_, hnone, _⟩ | ⟨g₁, g₂, f₁, f₂, r', foreign', hg₂, hf₂, hg', hr', _, hforeign', hrest⟩ :=
      hsame.cases
    · rw [hsplit] at hnone
      cases hnone
    · rw [hsplit] at hf₂
      cases hf₂
      obtain rfl : g = g₁ := (hn.publicField_of_ownField hg).symm.trans (hn.publicField_of_ownField hg')
      obtain rfl : r = r' := Option.some.inj (hr.symm.trans hr')
      obtain rfl : foreign = foreign' := Option.some.inj (hforeign.symm.trans hforeign')
      exact ⟨g₂, Projection.mem_unnest.2 ⟨z, hz, hg₂⟩, hrest⟩

theorem mem_columns_iff {p : Projection} {f : String} :
    f ∈ p.columns ↔ f ∈ p.fields ∧ Path.split? f = none := by
  unfold Projection.columns
  rw [List.mem_filter, Option.isNone_iff_eq_none]

theorem column_own (h : Translates n db name schema p q) {f : String} (hf : f ∈ q.columns) :
    ∃ g c, n.ownField name g = .ok f ∧ schema.column? f = some c ∧ g ∈ p.columns := by
  obtain ⟨hmem, hplain⟩ := mem_columns_iff.1 hf
  obtain ⟨g, hg, hsame⟩ := h.back f hmem
  obtain ⟨hgplain, _, hown, c, hc⟩ | ⟨_, _, _, _, _, _, _, hsplit, _⟩ := hsame.cases
  · exact ⟨g, c, hown, hc, mem_columns_iff.2 ⟨hg, hgplain⟩⟩
  · rw [hplain] at hsplit
    cases hsplit

theorem column_public (h : Translates n db name schema p q) {g : String} (hg : g ∈ p.columns) :
    ∃ f c, n.ownField name g = .ok f ∧ schema.column? f = some c ∧ f ∈ q.columns := by
  obtain ⟨hmem, hplain⟩ := mem_columns_iff.1 hg
  obtain ⟨f, hf, hsame⟩ := h.forth g hmem
  obtain ⟨_, hfplain, hown, c, hc⟩ | ⟨_, _, _, _, _, _, hsplit, _⟩ := hsame.cases
  · exact ⟨f, c, hown, hc, mem_columns_iff.2 ⟨hf, hfplain⟩⟩
  · rw [hplain] at hsplit
    cases hsplit

theorem head_iff (h : Translates n db name schema p q) (hn : n.Faithful db) {f : String}
    (hf : db.HasField name f) :
    (p.heads.get? (n.publicField name f)).isSome ↔ (q.heads.get? f).isSome := by
  constructor
  · intro hg
    obtain ⟨f', hown, hf'⟩ := h.head_public hg
    rw [hn.ownField_publicField hf] at hown
    cases hown
    exact hf'
  · intro hf'
    obtain ⟨g, _, _, hown, hg, _⟩ := h.head_own hf'
    rw [hn.publicField_of_ownField hown]
    exact hg

theorem column_iff (h : Translates n db name schema p q) (hn : n.Faithful db) {f : String}
    (hf : db.HasField name f) : n.publicField name f ∈ p.columns ↔ f ∈ q.columns := by
  constructor
  · intro hg
    obtain ⟨f', _, hown, _, hf'⟩ := h.column_public hg
    rw [hn.ownField_publicField hf] at hown
    cases hown
    exact hf'
  · intro hf'
    obtain ⟨g, _, hown, _, hg⟩ := h.column_own hf'
    rw [hn.publicField_of_ownField hown]
    exact hg

theorem exists_relation (h : Translates n db name schema p q) {f : String}
    (hf : (q.heads.get? f).isSome) : ∃ r, schema.relation? f = some r := by
  obtain ⟨_, r, _, _, _, hr, _⟩ := h.head_own hf
  exact ⟨r, hr⟩

theorem exists_column (h : Translates n db name schema p q) {f : String} (hf : f ∈ q.columns) :
    ∃ c, schema.column? f = some c := by
  obtain ⟨_, c, _, hc, _⟩ := h.column_own hf
  exact ⟨c, hc⟩

/-- By own names, what is left of a record are fields of the collection. -/
theorem isSome_field_of_apply (h : Translates n db name schema p q) {own : Record} {f : String}
    (hf : ((q.apply own).get? f).isSome) : (schema.fields.get? f).isSome := by
  rw [Projection.get?_apply] at hf
  split at hf
  · next hhead =>
    obtain ⟨r, hr⟩ := h.exists_relation hhead
    exact CollectionSchema.isSome_get?_of_relation? hr
  · split at hf
    · next hmem =>
      obtain ⟨c, hc⟩ := h.exists_column hmem
      exact CollectionSchema.isSome_get?_of_column? hc
    · cases hf

/-- By public names, what is left of a record are fields that have an own name. -/
theorem exists_field_of_apply (h : Translates n db name schema p q) {shown : Record} {g : String}
    (hg : ((p.apply shown).get? g).isSome) :
    ∃ f, n.ownField name g = .ok f ∧ (schema.fields.get? f).isSome := by
  rw [Projection.get?_apply] at hg
  split at hg
  · next hhead =>
    obtain ⟨f, hown, hf⟩ := h.head_public hhead
    obtain ⟨r, hr⟩ := h.exists_relation hf
    exact ⟨f, hown, CollectionSchema.isSome_get?_of_relation? hr⟩
  · split at hg
    · next hmem =>
      obtain ⟨f, c, hown, hc, _⟩ := h.column_public hmem
      exact ⟨f, hown, CollectionSchema.isSome_get?_of_column? hc⟩
    · cases hg

end Translates

end QueryLayer.FieldNaming
