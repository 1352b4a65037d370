import Mathlib.Data.List.Induction
import QueryLayer.Proofs.Naming.Shown

/-! # Relation keys under public names

The keys of a relation name fields of up to three collections, which have tables of names of their own. In
every schema that is shown, each key is the public name of the field that it names in the source, on the
collection where that field is, however the fields of all collections are renamed. Main statement:
`FieldNaming.sameKeys_run`.
-/
namespace QueryLayer

/-- The keys that a relation may have. -/
inductive KeyRole where
  | foreignKey
  | foreignKeyTarget
  | originKey
  | originKeyTarget
deriving DecidableEq

namespace KeyRole

def all : List KeyRole := [foreignKey, foreignKeyTarget, originKey, originKeyTarget]

theorem mem_all (role : KeyRole) : role ∈ all := by cases role <;> decide

end KeyRole

namespace Relation

def key? (r : Relation) : KeyRole → Option String
  | .foreignKey => r.foreignKey
  | .foreignKeyTarget => r.foreignKeyTarget
  | .originKey => r.originKey
  | .originKeyTarget => r.originKeyTarget

/-- The collection that has the field which a key names, for a relation of the collection `here`. -/
def home? (r : Relation) (here : String) (role : KeyRole) : Option String :=
  match r.kind, role with
  | .manyToOne, .foreignKey => some here
  | .manyToOne, .foreignKeyTarget => some r.foreignCollection
  | .oneToOne, .originKeyTarget | .oneToMany, .originKeyTarget | .manyToMany, .originKeyTarget => some here
  | .oneToOne, .originKey | .oneToMany, .originKey | .manyToMany, .foreignKeyTarget =>
    some r.foreignCollection
  | .manyToMany, .originKey | .manyToMany, .foreignKey => r.throughCollection
  | _, _ => none

end Relation

/-- The keys of all relations name fields of the collections that these should be on. -/
def Database.Linked (db : Database) : Prop :=
  ∀ e ∈ db.schemas.entries, ∀ d ∈ e.2.relations, ∀ role ∈ KeyRole.all,
    ∀ home ∈ d.2.home? e.1 role, ∀ key ∈ d.2.key? role, db.HasField home key

theorem Database.hasField_iff {db : Database} {name field : String} : db.HasField name field ↔
    ∃ schema ∈ db.schemas.get? name, schema.fields.contains field = true := Iff.rfl

instance (db : Database) (name field : String) : Decidable (db.HasField name field) :=
  decidable_of_iff' _ Database.hasField_iff

instance (db : Database) : Decidable db.Linked := by
  unfold Database.Linked
  infer_instance

theorem Database.Linked.hasField {db : Database} (h : db.Linked) {name : String} {schema : CollectionSchema}
    (hs : db.schemas.get? name = some schema) {f : String} {r : Relation} (hr : schema.relation? f = some r)
    (role : KeyRole) : ∀ home ∈ r.home? name role, ∀ key ∈ r.key? role, db.HasField home key :=
  h (name, schema) (Dict.get?_eq_some_iff.1 hs) (f, r) (CollectionSchema.mem_relations_iff.2 hr) role
    role.mem_all

namespace FieldNaming

/-- Each key gets its public name on the collection that it is on. -/
theorem key?_publicRelation (n : FieldNaming Store) (name : String) (r : Relation) (role : KeyRole) :
    (n.publicRelation name r).key? role = match r.home? name role with
      | some home => (r.key? role).map (n.publicField home)
      | none => r.key? role := by
  obtain ⟨kind, _, _, _, _, _, _⟩ := r
  cases kind <;> cases role <;> rfl

/-! ## Renaming -/

/-- The naming after a call, whether it was accepted or refused. -/
def after {σ : Type} (n : FieldNaming σ) (r : Rename) : FieldNaming σ :=
  match n.rename r.collection r.current r.new with
  | .ok renamed => renamed
  | .error _ => n

/-- The naming after calls in order, from own names on. -/
def run {σ : Type} (child : Source σ) (renames : List Rename) : FieldNaming σ :=
  renames.foldl after (ofSource child)

namespace Fair

variable {n : FieldNaming Store} {db : Database}

theorem after (h : n.Fair db) (r : Rename) : (n.after r).Fair db := by
  unfold FieldNaming.after
  split
  · next renamed hok => exact h.rename hok
  · exact h

theorem run (db : Database) (renames : List Rename) : (run (Memory.source db) renames).Fair db := by
  induction renames using List.reverseRecOn with
  | nil => exact .ofSource db
  | append_singleton renames r ih =>
    rw [FieldNaming.run, List.foldl_append]
    exact ih.after r

end Fair

/-! ## Keys -/

/-- A key as it is seen names a public field of its collection, whose own name is the key of the source. -/
def SameKey (n : FieldNaming Store) (home key seen : String) : Prop :=
  (∃ c, n.source.collection home = .ok c ∧ c.schema.fields.contains seen = true) ∧ n.ownField home seen = .ok key

/-- A relation of the collection `here`, and how it is seen. -/
structure SameKeys (n : FieldNaming Store) (here : String) (r seen : Relation) : Prop where
  kind : seen.kind = r.kind
  foreign : seen.foreignCollection = r.foreignCollection
  through : seen.throughCollection = r.throughCollection
  keys : ∀ role home, r.home? here role = some home →
    Option.Rel (n.SameKey home) (r.key? role) (seen.key? role)
  others : ∀ role, r.home? here role = none → seen.key? role = r.key? role

section

variable {n : FieldNaming Store} {db : Database}

theorem sameKey_publicField (h : n.Fair db) {home key : String} (hkey : db.HasField home key) :
    n.SameKey home key (n.publicField home key) := by
  refine ⟨?_, h.ownField_publicField hkey⟩
  obtain ⟨schema, hs, hfield⟩ := hkey
  refine ⟨n.collection (Memory.collection db home schema), ?_, ?_⟩
  · rw [Source.collection, collection?_source h.child, hs]
    rfl
  · exact (h.contains_view_iff hs).2 ⟨key, ⟨schema, hs, hfield⟩, rfl⟩

theorem sameKeys_publicRelation (h : n.Fair db) {here : String} {r : Relation}
    (hkeys : ∀ role, ∀ home ∈ r.home? here role, ∀ key ∈ r.key? role, db.HasField home key) :
    n.SameKeys here r (n.publicRelation here r) where
  kind := n.kind_publicRelation here r
  foreign := n.foreignCollection_publicRelation here r
  through := n.throughCollection_publicRelation here r
  keys role home hhome := by
    rw [key?_publicRelation, hhome]
    cases hkey : r.key? role with
    | none => exact .none
    | some key => exact .some (sameKey_publicField h (hkeys role home hhome key hkey))
  others role hhome := by
    rw [key?_publicRelation, hhome]

end

/-- However fields were renamed, a relation of a public schema is one of the source, and its keys are the
public names of the fields that this one is joined by, each on the collection of the field. -/
theorem sameKeys_run {db : Database} (hdb : db.Linked) (renames : List Rename) :
    ∀ c ∈ (run (Memory.source db) renames).source.collections, ∀ g seen, c.schema.relation? g = some seen →
      ∃ schema f r, db.schemas.get? c.name = some schema ∧
        (run (Memory.source db) renames).ownField c.name g = .ok f ∧ schema.relation? f = some r ∧
        (run (Memory.source db) renames).SameKeys c.name r seen := by
  intro c hc g seen hseen
  have hfair := Fair.run db renames
  rw [collections_source hfair.child] at hc
  obtain ⟨e, he, rfl⟩ := List.mem_map.1 hc
  have hs : db.schemas.get? e.1 = some e.2 := Dict.get?_eq_some_iff.2 he
  obtain ⟨f, r, hown, hr, rfl⟩ := (hfair.relation?_view hs).1 hseen
  exact ⟨e.2, f, r, hs, hown, hr, sameKeys_publicRelation hfair (hdb.hasField hs hr)⟩

/-! ## A catalogue -/

/-- Relations of all kinds between books, people, blurbs and tags. -/
def catalogue : Database :=
  let table (names : List String) : CollectionSchema :=
    names.foldl (fun s name => s.withField name (.column (.ofType .number))) .empty
  let tags : Relation :=
    ⟨.manyToMany, "tags", some "tag_id", some "id", some "book_id", some "id", some "taggings"⟩
  let books := (table ["id", "author_id"]).withField "author" (.relation (.manyToOne "people" "author_id" "id"))
    |>.withField "blurb" (.relation (.oneToOne "blurbs" "book_id" "id")) |>.withField "tags" (.relation tags)
  let people := (table ["id"]).withField "books" (.relation (.oneToMany "books" "author_id" "id"))
  ⟨Dict.ofList [("books", books), ("people", people), ("blurbs", table ["id", "book_id"]),
    ("tags", table ["id"]), ("taggings", table ["tag_id", "book_id"])], ∅⟩

/-- The keys between books and tags exchange their names, and other fields are renamed once or twice. Two of
the calls are refused. -/
def relabellings : List Rename :=
  [⟨"taggings", "tag_id", "key"⟩, ⟨"taggings", "book_id", "tag_id"⟩, ⟨"books", "id", "number"⟩,
    ⟨"taggings", "key", "book_id"⟩, ⟨"taggings", "tag_id", "book_id"⟩, ⟨"books", "tags", "labels"⟩,
    ⟨"shelves", "id", "key"⟩, ⟨"books", "author_id", "id"⟩, ⟨"tags", "id", "key"⟩, ⟨"blurbs", "book_id", "book"⟩,
    ⟨"tags", "key", "name"⟩]

theorem sameKeys_run_relabellings : catalogue.Linked ∧
    ((run (Memory.source catalogue) relabellings).source.catalog "books").bind
        (fun s => s.relation? "labels") = some ⟨.manyToMany, "tags", some "book_id", some "name", some "tag_id",
      some "number", some "taggings"⟩ ∧
    ∀ c ∈ (run (Memory.source catalogue) relabellings).source.collections, ∀ g seen,
      c.schema.relation? g = some seen → ∃ schema f r, catalogue.schemas.get? c.name = some schema ∧
        (run (Memory.source catalogue) relabellings).ownField c.name g = .ok f ∧ schema.relation? f = some r ∧
        (run (Memory.source catalogue) relabellings).SameKeys c.name r seen := by
  have hlinked : catalogue.Linked := by decide +kernel
  exact ⟨hlinked, by decide +kernel, sameKeys_run hlinked relabellings⟩

end FieldNaming

end QueryLayer
