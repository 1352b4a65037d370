import QueryLayer.Naming.Fields
import QueryLayer.Proofs.Memory.Run
import QueryLayer.Proofs.Naming.Names
import QueryLayer.Proofs.Outcome
import QueryLayer.Proofs.Schema.Fields
import QueryLayer.Proofs.Source.Calls

/-! # The schemas that renamed fields show

A naming of the fields of a memory source is `Fair` when each field is found by the name it is known by,
and `Faithful` when no field has a name that reads as a path besides. Every sequence of accepted renames
leads to such a naming. The `direct` database has the schemas that it shows: their columns and relations
are those of the source, by public names.
-/
namespace QueryLayer

/-- Whether a collection has a field. -/
def Database.HasField (db : Database) (name field : String) : Prop :=
  ∃ schema, db.schemas.get? name = some schema ∧ (schema.fields.get? field).isSome

namespace Database.HasField

variable {db : Database} {name f : String} {schema : CollectionSchema}

theorem of_column (hs : db.schemas.get? name = some schema) {c : Column} (hc : schema.column? f = some c) :
    db.HasField name f := ⟨schema, hs, CollectionSchema.isSome_get?_of_column? hc⟩

theorem of_relation (hs : db.schemas.get? name = some schema) {r : Relation}
    (hr : schema.relation? f = some r) : db.HasField name f :=
  ⟨schema, hs, CollectionSchema.isSome_get?_of_relation? hr⟩

end Database.HasField

/-- No field has a name that reads as a path. -/
def Database.Plain (db : Database) : Prop := ∀ name field, db.HasField name field → Path.Plain field

theorem Database.plain_iff {db : Database} :
    db.Plain ↔ ∀ e ∈ db.schemas.entries, ∀ d ∈ e.2.fields.entries, Path.Plain d.1 := by
  constructor
  · intro h e he d hd
    refine h e.1 d.1 ⟨e.2, Dict.get?_eq_some_iff.2 he, ?_⟩
    rw [Dict.get?_eq_some_iff.2 hd]
    rfl
  · rintro h name field ⟨schema, hs, hfield⟩
    obtain ⟨d, hd⟩ := Option.isSome_iff_exists.1 hfield
    exact h _ (Dict.get?_eq_some_iff.1 hs) _ (Dict.get?_eq_some_iff.1 hd)

instance (db : Database) : Decidable db.Plain := decidable_of_iff' _ Database.plain_iff

/-- The schemas of the collections of a source. -/
def Source.schemas {σ : Type} (s : Source σ) : Dict CollectionSchema :=
  Dict.ofList (s.collections.map fun c => (c.name, c.schema))

namespace FieldNaming

/-- The schema that a naming shows for a collection of a memory source. -/
abbrev view (n : FieldNaming Store) (db : Database) (name : String) (schema : CollectionSchema) :
    CollectionSchema := n.publicSchema (Memory.collection db name schema)

/-- A database with the schemas that a naming of the fields of another one shows. -/
def direct (n : FieldNaming Store) (db : Database) : Database := ⟨n.source.schemas, db.charts⟩

/-- A naming over a memory source by which every field can be found. -/
structure Fair (n : FieldNaming Store) (db : Database) : Prop where
  child : n.child = Memory.source db
  fair : ∀ name, (n.names name).Fair (db.HasField name)

/-- A fair naming of fields whose names do not read as paths. -/
structure Faithful (n : FieldNaming Store) (db : Database) : Prop extends n.Fair db where
  plain : db.Plain

/-! ## The collections -/

section

variable {n : FieldNaming Store} {db : Database}

theorem collections_source (hchild : n.child = Memory.source db) :
    n.source.collections = db.schemas.entries.map fun e => n.collection (Memory.collection db e.1 e.2) := by
  unfold source
  rw [hchild, Memory.values_members_source]
  exact List.map_map ..

theorem collection?_source (hchild : n.child = Memory.source db) (name : String) :
    n.source.collection? name =
      (db.schemas.get? name).map fun schema => n.collection (Memory.collection db name schema) := by
  unfold Source.collection?
  rw [collections_source hchild]
  exact Source.find?_named (fun _ => rfl) db.schemas.entries name

theorem get?_schemas_direct (hchild : n.child = Memory.source db) (name : String) :
    (n.direct db).schemas.get? name = (db.schemas.get? name).map fun schema => n.view db name schema := by
  have hentries : n.source.collections.map (fun c => (c.name, c.schema)) =
      db.schemas.entries.map fun e => (e.1, n.view db e.1 e.2) := by
    rw [collections_source hchild, List.map_map]
    rfl
  have hsorted := Entries.sorted_map db.schemas.sorted fun e => n.view db e.1 e.2
  unfold direct Source.schemas Dict.get? Dict.ofList
  dsimp only
  rw [hentries, Entries.ofList_of_sorted hsorted]
  exact Dict.get?_mapEntries db.schemas (fun e => n.view db e.1 e.2) name

theorem child_collection_iff (hchild : n.child = Memory.source db) {name : String} {c : Collection Store} :
    n.child.collection name = .ok c ↔
      ∃ schema, db.schemas.get? name = some schema ∧ c = Memory.collection db name schema :=
  hchild ▸ Memory.collection_source_eq_ok_iff

end

/-! ## The fields -/

theorem ownField_publicField_of_fair {σ : Type} {n : FieldNaming σ} {D : String → Prop} {name f : String}
    (h : (n.names name).Fair D) (hf : D f) : n.ownField name (n.publicField name f) = .ok f := by
  have hfound := h.ownName?_publicName hf
  unfold ownField publicField
  rw [hfound]

theorem publicField_of_ownField_of_fair {σ : Type} {n : FieldNaming σ} {D : String → Prop} {name f g : String}
    (h : (n.names name).Fair D) (hg : n.ownField name g = .ok f) : n.publicField name f = g := by
  unfold ownField at hg
  split at hg
  · next hown =>
    cases hg
    exact h.publicName_of_ownName? hown
  · cases hg

theorem names_insert {σ : Type} (n : FieldNaming σ) (collection : String) (t : Names) (name : String) :
    ({ n with tables := n.tables.insert collection t } : FieldNaming σ).names name =
      if collection = name then t else n.names name := by
  unfold names
  dsimp only
  rw [Dict.get?_insert]
  split <;> rfl

/-- A field as it is shown: relations with the public names of their keys. -/
def shownField (n : FieldNaming Store) (name : String) : Field → Field
  | .column c => .column c
  | .relation r => .relation (n.publicRelation name r)

@[simp] theorem kind_publicRelation (n : FieldNaming Store) (name : String) (r : Relation) :
    (n.publicRelation name r).kind = r.kind := by
  unfold publicRelation
  dsimp only
  split <;> simp_all

@[simp] theorem foreignCollection_publicRelation (n : FieldNaming Store) (name : String) (r : Relation) :
    (n.publicRelation name r).foreignCollection = r.foreignCollection := by
  unfold publicRelation
  dsimp only
  split <;> rfl

@[simp] theorem throughCollection_publicRelation (n : FieldNaming Store) (name : String) (r : Relation) :
    (n.publicRelation name r).throughCollection = r.throughCollection := by
  unfold publicRelation
  dsimp only
  split <;> rfl

theorem fields_view (n : FieldNaming Store) (db : Database) (name : String) (schema : CollectionSchema) :
    (n.view db name schema).fields.entries =
      Entries.rename (n.publicField name) (schema.fields.entries.map fun e => (e.1, n.shownField name e.2)) := by
  unfold Entries.rename
  rw [List.map_map]
  refine congrArg Entries.ofList (List.map_congr_left fun e _ => ?_)
  obtain ⟨field, c | r⟩ := e <;> rfl

namespace Fair

variable {n : FieldNaming Store} {db : Database} {name : String} {schema : CollectionSchema}

theorem ownField_publicField (h : n.Fair db) {f : String} (hf : db.HasField name f) :
    n.ownField name (n.publicField name f) = .ok f := ownField_publicField_of_fair (h.fair name) hf

theorem publicField_of_ownField (h : n.Fair db) {g f : String} (hg : n.ownField name g = .ok f) :
    n.publicField name f = g := publicField_of_ownField_of_fair (h.fair name) hg

theorem publicField_inj (h : n.Fair db) {f g : String} (hf : db.HasField name f)
    (hg : db.HasField name g) (heq : n.publicField name f = n.publicField name g) : f = g :=
  (h.fair name).publicName_inj hf hg heq

theorem get?_fields_view (h : n.Fair db) (hs : db.schemas.get? name = some schema) {g : String}
    {shown : Field} : (n.view db name schema).fields.get? g = some shown ↔
      ∃ f field, n.ownField name g = .ok f ∧ schema.fields.get? f = some field ∧
        shown = n.shownField name field := by
  have hget : ∀ f, db.HasField name f → (n.view db name schema).fields.get? (n.publicField name f) =
      (schema.fields.get? f).map (n.shownField name) := by
    intro f hf
    unfold Dict.get?
    rw [fields_view]
    refine (Entries.get?_rename (D := db.HasField name) (fun a b ha hb => h.publicField_inj ha hb) ?_
      ?_ hf).trans (Dict.get?_mapEntries schema.fields (fun e => n.shownField name e.2) f)
    · intro e he
      obtain ⟨d, hd, rfl⟩ := List.mem_map.1 he
      exact ⟨schema, hs, by rw [Dict.get?_eq_some_iff.2 hd]; rfl⟩
    · exact (Entries.sorted_map schema.fields.sorted fun e => n.shownField name e.2).nodup
  constructor
  · intro hshown
    have hrename : Entries.get? (Entries.rename (n.publicField name)
        (schema.fields.entries.map fun e => (e.1, n.shownField name e.2))) g = some shown := by
      rw [← fields_view n db]
      exact hshown
    obtain ⟨e, he, rfl⟩ := Entries.exists_of_get?_rename hrename
    obtain ⟨d, hd, rfl⟩ := List.mem_map.1 he
    have hfound := Dict.get?_eq_some_iff.2 hd
    have hf : db.HasField name d.1 := ⟨schema, hs, by rw [hfound]; rfl⟩
    rw [hget d.1 hf, hfound] at hshown
    exact ⟨d.1, d.2, h.ownField_publicField hf, hfound, (Option.some.inj hshown).symm⟩
  · rintro ⟨f, field, hg, hfield, rfl⟩
    have hf : db.HasField name f := ⟨schema, hs, by rw [hfield]; rfl⟩
    rw [← h.publicField_of_ownField hg, hget f hf, hfield]
    rfl

theorem contains_view_iff (h : n.Fair db) (hs : db.schemas.get? name = some schema) {g : String} :
    (n.view db name schema).fields.contains g = true ↔
      ∃ f, db.HasField name f ∧ n.publicField name f = g := by
  unfold Dict.contains
  rw [Option.isSome_iff_exists]
  constructor
  · rintro ⟨shown, hshown⟩
    obtain ⟨f, field, hg, hfield, _⟩ := (h.get?_fields_view hs).1 hshown
    exact ⟨f, ⟨schema, hs, by rw [hfield]; rfl⟩, h.publicField_of_ownField hg⟩
  · rintro ⟨f, hf, rfl⟩
    obtain ⟨schema', hs', hfield⟩ := hf
    rw [hs] at hs'
    cases hs'
    obtain ⟨field, hfield⟩ := Option.isSome_iff_exists.1 hfield
    exact ⟨_, (h.get?_fields_view hs).2
      ⟨f, field, h.ownField_publicField ⟨schema, hs, by rw [hfield]; rfl⟩, hfield, rfl⟩⟩

theorem column?_view (h : n.Fair db) (hs : db.schemas.get? name = some schema) {g : String}
    {c : Column} : (n.view db name schema).column? g = some c ↔
      ∃ f, n.ownField name g = .ok f ∧ schema.column? f = some c := by
  rw [CollectionSchema.column?_eq_some_iff, h.get?_fields_view hs]
  constructor
  · rintro ⟨f, field, hg, hfield, hshown⟩
    cases field with
    | column d =>
      obtain rfl := Field.column.inj hshown
      exact ⟨f, hg, CollectionSchema.column?_eq_some_iff.2 hfield⟩
    | relation r => cases hshown
  · rintro ⟨f, hg, hc⟩
    exact ⟨f, .column c, hg, CollectionSchema.column?_eq_some_iff.1 hc, rfl⟩

theorem column?_publicField (h : n.Fair db) (hs : db.schemas.get? name = some schema) {f : String}
    (hf : db.HasField name f) :
    (n.view db name schema).column? (n.publicField name f) = schema.column? f := by
  refine Option.ext fun c => ?_
  rw [h.column?_view hs, h.ownField_publicField hf]
  constructor
  · rintro ⟨_, hown, hc⟩
    cases hown
    exact hc
  · exact fun hc => ⟨f, rfl, hc⟩

/-- A column by its public name. -/
theorem column?_public (h : n.Fair db) (hs : db.schemas.get? name = some schema) {f : String}
    {c : Column} (hc : schema.column? f = some c) :
    (n.view db name schema).column? (n.publicField name f) = some c := by
  rw [h.column?_publicField hs (.of_column hs hc), hc]

theorem relation?_view (h : n.Fair db) (hs : db.schemas.get? name = some schema) {g : String}
    {shown : Relation} : (n.view db name schema).relation? g = some shown ↔
      ∃ f r, n.ownField name g = .ok f ∧ schema.relation? f = some r ∧ shown = n.publicRelation name r := by
  rw [CollectionSchema.relation?_eq_some_iff, h.get?_fields_view hs]
  constructor
  · rintro ⟨f, field, hg, hfield, hshown⟩
    cases field with
    | column c => cases hshown
    | relation r =>
      exact ⟨f, r, hg, CollectionSchema.relation?_eq_some_iff.2 hfield, Field.relation.inj hshown⟩
  · rintro ⟨f, r, hg, hr, rfl⟩
    exact ⟨f, .relation r, hg, CollectionSchema.relation?_eq_some_iff.1 hr, rfl⟩

/-- A relation by its public name. -/
theorem relation?_public (h : n.Fair db) (hs : db.schemas.get? name = some schema) {f : String}
    {r : Relation} (hr : schema.relation? f = some r) :
    (n.view db name schema).relation? (n.publicField name f) = some (n.publicRelation name r) :=
  (h.relation?_view hs).2 ⟨f, r, h.ownField_publicField (.of_relation hs hr), hr, rfl⟩

theorem mem_primaryKeys_view (h : n.Fair db) (hs : db.schemas.get? name = some schema) {pk : String} :
    pk ∈ (n.view db name schema).primaryKeys ↔
      ∃ own ∈ schema.primaryKeys, n.publicField name own = pk := by
  rw [CollectionSchema.mem_primaryKeys_iff]
  constructor
  · rintro ⟨c, hc, hkey⟩
    obtain ⟨f, hf, hc⟩ := (h.column?_view hs).1 hc
    exact ⟨f, CollectionSchema.mem_primaryKeys_iff.2 ⟨c, hc, hkey⟩, h.publicField_of_ownField hf⟩
  · rintro ⟨f, hf, rfl⟩
    obtain ⟨c, hc, hkey⟩ := CollectionSchema.mem_primaryKeys_iff.1 hf
    exact ⟨c, h.column?_public hs hc, hkey⟩

/-! ## Renaming -/

theorem ofSource (db : Database) : (FieldNaming.ofSource (Memory.source db)).Fair db where
  child := rfl
  fair name := .empty (db.HasField name)

theorem rename (h : n.Fair db) {collection current new : String} {m : FieldNaming Store}
    (hm : n.rename collection current new = .ok m) : m.Fair db := by
  unfold FieldNaming.rename at hm
  obtain ⟨c, hc, hm⟩ := Outcome.bind_eq_ok_iff.1 hm
  obtain ⟨schema, hs, rfl⟩ := (child_collection_iff h.child).1 hc
  split at hm
  · cases hm
    exact h
  · obtain ⟨hknown, hm⟩ := Outcome.guard_eq_ok_iff.1 hm
    obtain ⟨hfree, hm⟩ := Outcome.guard_eq_ok_iff.1 hm
    cases hm
    -- a field is known as `current`, none as `new`
    rw [Bool.not_eq_true', Bool.not_eq_false, h.contains_view_iff hs] at hknown
    rw [h.contains_view_iff hs, not_exists] at hfree
    obtain ⟨own, hown, rfl⟩ := hknown
    refine ⟨h.child, fun name => ?_⟩
    rw [names_insert]
    split
    · next hname =>
      subst hname
      exact (h.fair collection).rename hown fun other hother heq => hfree other ⟨hother, heq⟩
    · exact h.fair name

end Fair

theorem Faithful.plain_of_ownField {n : FieldNaming Store} {db : Database} (h : n.Faithful db)
    {name g f : String} (hplain : Path.Plain g) (hg : n.ownField name g = .ok f) : Path.Plain f := by
  unfold ownField at hg
  split at hg
  · next hown =>
    cases hg
    exact (h.fair name).plain_of_ownName? (h.plain name) hplain hown
  · cases hg

/-- A field of a collection, given a new name. -/
structure Rename where
  collection : String
  current : String
  new : String

/-- Renames fields one after the other; all renames have to be accepted. -/
def renameAll {σ : Type} (n : FieldNaming σ) (renames : List Rename) : Except Error (FieldNaming σ) :=
  renames.foldlM (fun n r => n.rename r.collection r.current r.new) n

theorem Faithful.renameAll {db : Database} (hdb : db.Plain) {renames : List Rename} {n : FieldNaming Store}
    (hn : (FieldNaming.ofSource (Memory.source db)).renameAll renames = .ok n) : n.Faithful db :=
  ⟨Outcome.foldlM_keeps (P := fun n : FieldNaming Store => n.Fair db) (fun _ _ _ _ h hm => h.rename hm)
    (.ofSource db) hn, hdb⟩

end FieldNaming

end QueryLayer
