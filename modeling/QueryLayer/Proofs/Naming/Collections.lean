import Mathlib.Data.List.Induction
import QueryLayer.Naming.Collections
import QueryLayer.Proofs.Naming.Names
import QueryLayer.Proofs.Schema.Fields
import QueryLayer.Proofs.Source.Calls
import QueryLayer.Source.Memory.Basic

/-! # Collections under public names

However the collections of a source are renamed, each public name stands for one of them: it is found by
this name, and relations lead to the names that their collections have now. Main statements:
`CollectionNaming.fair_run` on the table of names, `CollectionNaming.shows_run` on the source.
-/
namespace QueryLayer

variable {σ : Type}

namespace Source

/-- All relations lead to collections of the source, and through such ones. -/
def Closed (s : Source σ) : Prop :=
  ∀ c ∈ s.collections, ∀ e ∈ c.schema.relations,
    e.2.foreignCollection ∈ s.names ∧ ∀ through ∈ e.2.throughCollection, through ∈ s.names

instance (s : Source σ) : Decidable s.Closed := by
  unfold Closed
  infer_instance

end Source

theorem CollectionSchema.relation?_renameCollections (names : Names) (s : CollectionSchema) (f : String) :
    (s.renameCollections names).relation? f = (s.relation? f).map (Relation.renameCollections names) := by
  unfold relation? renameCollections Dict.map
  rw [Dict.get?_mapEntries]
  cases s.fields.get? f with
  | none => rfl
  | some field => cases field <;> rfl

namespace CollectionNaming

/-! ## The table of names -/

/-- The table after a call, whether it was accepted or refused. -/
def after (own : List String) (names : Names) (call : String × String) : Names :=
  (renameAll own [call] names).2

/-- The table after calls in order, from own names on. -/
def run (own : List String) (calls : List (String × String)) : Names := calls.foldl (after own) .empty

section

variable {own : List String} {names renamed : Names} {current new : String}

/-- A new name that none of the collections has is given to one of them. -/
theorem rename_eq_ok_iff : rename names own current new = .ok renamed ↔
    current = new ∧ renamed = names ∨
      current ≠ new ∧ new ∉ own.map names.publicName ∧ current ∈ own.map names.publicName ∧
        renamed = names.rename current new := by
  unfold rename
  by_cases heq : current = new
  · simp [heq, eq_comm]
  by_cases hnew : new ∈ own.map names.publicName
  · simp [heq, hnew]
  by_cases hcurrent : current ∈ own.map names.publicName
  · simp [heq, hnew, hcurrent, eq_comm]
  · simp [heq, hnew, hcurrent]

theorem exists_rename_iff : (∃ renamed, rename names own current new = .ok renamed) ↔
    current = new ∨ current ∈ own.map names.publicName ∧ new ∉ own.map names.publicName := by
  simp only [rename_eq_ok_iff, exists_or, exists_and_left, exists_eq, and_true]
  by_cases heq : current = new
  · simp [heq]
  · simp [heq, and_comm]

theorem renameAll_singleton_error_iff {call : String × String} {e : Error} :
    (renameAll own [call] names).1 = .error e ↔ rename names own call.1 call.2 = .error e := by
  rw [renameAll]
  cases rename names own call.1 call.2 <;> simp [renameAll]

theorem renameAll_singleton_ok_iff {call : String × String} :
    (renameAll own [call] names).1 = .ok () ↔ ∃ renamed, rename names own call.1 call.2 = .ok renamed := by
  rw [renameAll]
  cases rename names own call.1 call.2 <;> simp [renameAll]

theorem after_of_error {call : String × String} {e : Error} (h : rename names own call.1 call.2 = .error e) :
    after own names call = names := by
  rw [after, renameAll, h]

theorem after_of_ok {call : String × String} (h : rename names own call.1 call.2 = .ok renamed) :
    after own names call = renamed := by
  rw [after, renameAll, h]
  rfl

theorem run_append_singleton (own : List String) (calls : List (String × String)) (call : String × String) :
    run own (calls ++ [call]) = after own (run own calls) call := by
  simp [run]

theorem fair_of_rename (h : names.Fair (· ∈ own)) (hok : rename names own current new = .ok renamed) :
    renamed.Fair (· ∈ own) := by
  obtain ⟨-, rfl⟩ | ⟨-, hfree, hcurrent, rfl⟩ := rename_eq_ok_iff.1 hok
  · exact h
  · obtain ⟨name, hname, rfl⟩ := List.mem_map.1 hcurrent
    exact h.rename hname fun other hother hnew => hfree (hnew ▸ List.mem_map_of_mem hother)

theorem fair_after (h : names.Fair (· ∈ own)) (call : String × String) :
    (after own names call).Fair (· ∈ own) := by
  cases hcall : rename names own call.1 call.2 with
  | error e =>
    rw [after_of_error hcall]
    exact h
  | ok renamed =>
    rw [after_of_ok hcall]
    exact fair_of_rename h hcall

/-- In every table that calls lead to, each name stands for one collection. -/
theorem fair_run (own : List String) (calls : List (String × String)) :
    (run own calls).Fair (· ∈ own) := by
  induction calls using List.reverseRecOn with
  | nil => exact .empty _
  | append_singleton calls call ih =>
    rw [run_append_singleton]
    exact fair_after ih call

end

/-! ## The source -/

/-- A collection as it is seen under its public name. -/
def shown (names : Names) (child : Source σ) (c : Collection σ) : Collection σ :=
  present names child (names.publicName c.name) c

/-- One name among those of a source, and one among the public names, stand for the same collection. -/
def SameTarget (names : Names) (child : Source σ) (own name : String) : Prop :=
  ∃ c, child.collection own = .ok c ∧ (source names child).collection name = .ok (shown names child c)

/-- A relation as it is seen leads to the same collection, and through the same one, by the same keys. -/
structure SameRelation (names : Names) (child : Source σ) (r seen : Relation) : Prop where
  foreign : SameTarget names child r.foreignCollection seen.foreignCollection
  through : Option.Rel (SameTarget names child) r.throughCollection seen.throughCollection
  keys : { seen with foreignCollection := r.foreignCollection, throughCollection := r.throughCollection } = r

/-- The public collections are those of the source, each under a name of its own by which it is found, and
by no other name is anything found; their relations lead where they led. -/
structure Shows (names : Names) (child : Source σ) : Prop where
  perm : (source names child).collections.Perm (child.collections.map (shown names child))
  distinct : (source names child).names.Nodup
  found : ∀ c ∈ child.collections, (source names child).collection (names.publicName c.name) =
    .ok (shown names child c)
  missing : ∀ name, (source names child).collection name = .error (.setup (.collectionNotFound name)) ↔
    name ∉ (source names child).names
  relations : ∀ c ∈ child.collections, ∀ f, Option.Rel (SameRelation names child) (c.schema.relation? f)
    ((shown names child c).schema.relation? f)

section

variable {names : Names} {child : Source σ}

theorem names_source (names : Names) (child : Source σ) :
    (source names child).names = (members names child).keys := by
  unfold Source.names source
  rw [List.map_map]
  rfl

theorem nodup_names_source (names : Names) (child : Source σ) : (source names child).names.Nodup := by
  rw [names_source]
  exact Dict.nodup_keys _

theorem mem_names_source_iff {name : String} :
    name ∈ (source names child).names ↔ ∃ own ∈ child.names, names.publicName own = name := by
  rw [names_source, Dict.mem_keys_iff, ← List.mem_map, Source.names, List.map_map]
  refine Entries.isSome_get?_ofList_iff.trans ?_
  rw [List.map_map]
  rfl

/-- Behind every public collection is one of the source, under the name that it was given. -/
theorem exists_of_mem_source {x : Collection σ} (hx : x ∈ (source names child).collections) :
    ∃ own ∈ child.collections, x = present names child (names.publicName own.name) own := by
  obtain ⟨e, he, rfl⟩ := List.mem_map.1 hx
  obtain ⟨own, hown, rfl⟩ := List.mem_map.1 (Entries.mem_of_mem_ofList he)
  exact ⟨own, hown, rfl⟩

theorem nodup_publicNames (h : names.Fair (· ∈ child.names)) (hnames : child.names.Nodup) :
    (child.names.map names.publicName).Nodup :=
  List.Nodup.map_on (fun _ ha _ hb heq => h.publicName_inj ha hb heq) hnames

theorem perm_members (h : names.Fair (· ∈ child.names)) (hnames : child.names.Nodup) :
    (members names child).entries.Perm (child.collections.map fun c => (names.publicName c.name, c)) := by
  have hnodup := nodup_publicNames h hnames
  unfold Source.names at hnodup
  refine Entries.perm_ofList ?_
  rw [List.map_map] at hnodup ⊢
  exact hnodup

theorem perm_collections (h : names.Fair (· ∈ child.names)) (hnames : child.names.Nodup) :
    (source names child).collections.Perm (child.collections.map (shown names child)) := by
  have hperm := (perm_members h hnames).map fun e => present names child e.1 e.2
  rwa [List.map_map] at hperm

theorem get?_members_iff (h : names.Fair (· ∈ child.names)) (hnames : child.names.Nodup) {name : String}
    {c : Collection σ} : (members names child).get? name = some c ↔
      c ∈ child.collections ∧ names.publicName c.name = name := by
  rw [Dict.get?_eq_some_iff, (perm_members h hnames).mem_iff, List.mem_map]
  constructor
  · rintro ⟨d, hd, heq⟩
    cases heq
    exact ⟨hd, rfl⟩
  · rintro ⟨hc, rfl⟩
    exact ⟨c, hc, rfl⟩

theorem get?_members_of_not_mem (h : names.Fair (· ∈ child.names)) (hnames : child.names.Nodup)
    {name : String} (hfree : name ∉ child.names.map names.publicName) :
    (members names child).get? name = none := by
  refine Option.eq_none_iff_forall_ne_some.2 fun c hget => ?_
  obtain ⟨hc, rfl⟩ := (get?_members_iff h hnames).1 hget
  exact hfree (List.mem_map_of_mem (List.mem_map_of_mem hc))

/-- The collection known by the old name is taken out, and put in under the new one, which is free. -/
theorem members_rename (h : names.Fair (· ∈ child.names)) (hnames : child.names.Nodup)
    {current new : String} {renamed : Names} (hne : current ≠ new)
    (hok : rename names child.names current new = .ok renamed) : ∃ c,
      (members names child).get? current = some c ∧ (members names child).get? new = none ∧
        members renamed child = ((members names child).erase current).insert new c := by
  have hrenamed := fair_of_rename h hok
  obtain ⟨heq, -⟩ | ⟨-, hfree, hcurrent, rfl⟩ := rename_eq_ok_iff.1 hok
  · exact absurd heq hne
  obtain ⟨own, hown, rfl⟩ := List.mem_map.1 hcurrent
  obtain ⟨c, hc, rfl⟩ := List.mem_map.1 hown
  refine ⟨c, (get?_members_iff h hnames).2 ⟨hc, rfl⟩, get?_members_of_not_mem h hnames hfree,
    Dict.ext fun name => Option.ext fun d => ?_⟩
  rw [get?_members_iff hrenamed hnames, h.publicName_rename hown, Dict.get?_insert, Dict.get?_erase]
  by_cases hname : c.name = d.name
  · rw [if_pos hname]
    constructor
    · rintro ⟨hd, rfl⟩
      rw [if_pos rfl, List.inj_on_of_nodup_map hnames hc hd hname]
    · intro hget
      split at hget
      · next hnew => exact ⟨Option.some.inj hget ▸ hc, hnew⟩
      · split at hget
        · cases hget
        · next hold =>
          obtain ⟨-, rfl⟩ := (get?_members_iff h hnames).1 hget
          exact absurd (congrArg names.publicName hname) hold
  · rw [if_neg hname, ← get?_members_iff h hnames]
    constructor
    · intro hget
      obtain ⟨hd, rfl⟩ := (get?_members_iff h hnames).1 hget
      have hnew : new ≠ names.publicName d.name :=
        fun heq => hfree (heq ▸ List.mem_map_of_mem (List.mem_map_of_mem hd))
      have hold : names.publicName c.name ≠ names.publicName d.name :=
        fun heq => hname (h.publicName_inj hown (List.mem_map_of_mem hd) heq)
      rw [if_neg hnew, if_neg hold, hget]
    · intro hget
      split at hget
      · cases hget
        exact absurd rfl hname
      · split at hget
        · cases hget
        · exact hget

theorem perm_names (h : names.Fair (· ∈ child.names)) (hnames : child.names.Nodup) :
    (source names child).names.Perm (child.names.map names.publicName) := by
  have hperm := (perm_collections h hnames).map fun c => c.name
  rw [List.map_map] at hperm
  unfold Source.names
  rwa [List.map_map]

theorem collection_publicName (h : names.Fair (· ∈ child.names)) (hnames : child.names.Nodup)
    {c : Collection σ} (hc : c ∈ child.collections) :
    (source names child).collection (names.publicName c.name) = .ok (shown names child c) :=
  (Source.collection_eq_ok_iff (nodup_names_source names child)).2
    ⟨(perm_collections h hnames).mem_iff.2 (List.mem_map_of_mem hc), rfl⟩

theorem sameTarget_publicName (h : names.Fair (· ∈ child.names)) (hnames : child.names.Nodup)
    {own : String} (hown : own ∈ child.names) : SameTarget names child own (names.publicName own) := by
  obtain ⟨c, hc, rfl⟩ := List.mem_map.1 hown
  exact ⟨c, (Source.collection_eq_ok_iff hnames).2 ⟨hc, rfl⟩, collection_publicName h hnames hc⟩

theorem sameRelation_renameCollections (h : names.Fair (· ∈ child.names)) (hnames : child.names.Nodup)
    {r : Relation} (hforeign : r.foreignCollection ∈ child.names)
    (hthrough : ∀ through ∈ r.throughCollection, through ∈ child.names) :
    SameRelation names child r (r.renameCollections names) := by
  refine ⟨sameTarget_publicName h hnames hforeign, ?_, rfl⟩
  unfold Relation.renameCollections
  cases hbetween : r.throughCollection with
  | none => exact .none
  | some between => exact .some (sameTarget_publicName h hnames (hthrough between hbetween))

theorem shows_of_fair (h : names.Fair (· ∈ child.names)) (hnames : child.names.Nodup)
    (hclosed : child.Closed) : Shows names child where
  perm := perm_collections h hnames
  distinct := nodup_names_source names child
  found _ hc := collection_publicName h hnames hc
  missing _ := Source.collection_eq_error_iff
  relations c hc f := by
    have hseen : (shown names child c).schema.relation? f =
        (c.schema.relation? f).map (Relation.renameCollections names) :=
      CollectionSchema.relation?_renameCollections names c.schema f
    rw [hseen]
    cases hr : c.schema.relation? f with
    | none => exact .none
    | some r =>
      obtain ⟨hforeign, hthrough⟩ := hclosed c hc (f, r) (CollectionSchema.mem_relations_iff.2 hr)
      exact .some (sameRelation_renameCollections h hnames hforeign hthrough)

end

/-- Whatever was renamed before, the public names stand for the collections of the source. The next call is
accepted when it renames a collection to a name that is free, or asks for nothing; then it moves this one
collection, and a call that is refused changes nothing. -/
theorem shows_run {child : Source σ} (hnames : child.names.Nodup) (hclosed : child.Closed)
    (calls : List (String × String)) :
    Shows (run child.names calls) child ∧ ∀ current new,
      ((renameAll child.names [(current, new)] (run child.names calls)).1 = .ok () ↔ current = new ∨
        current ∈ (source (run child.names calls) child).names ∧
          new ∉ (source (run child.names calls) child).names) ∧
      (current ≠ new → (renameAll child.names [(current, new)] (run child.names calls)).1 = .ok () →
        ∃ c, (members (run child.names calls) child).get? current = some c ∧
          (members (run child.names calls) child).get? new = none ∧
          members (run child.names (calls ++ [(current, new)])) child =
            ((members (run child.names calls) child).erase current).insert new c) ∧
      ∀ e, (renameAll child.names [(current, new)] (run child.names calls)).1 = .error e →
        run child.names (calls ++ [(current, new)]) = run child.names calls := by
  have hfair := fair_run child.names calls
  refine ⟨shows_of_fair hfair hnames hclosed, fun current new => ⟨?_, fun hne h => ?_, fun e h => ?_⟩⟩
  · rw [renameAll_singleton_ok_iff, exists_rename_iff, (perm_names hfair hnames).mem_iff,
      (perm_names hfair hnames).mem_iff]
  · rw [run_append_singleton]
    obtain ⟨renamed, hok⟩ := renameAll_singleton_ok_iff.1 h
    rw [after_of_ok hok]
    exact members_rename hfair hnames hne hok
  · rw [run_append_singleton]
    exact after_of_error (renameAll_singleton_error_iff.1 h)

/-! ## A library -/

/-- Books with their authors, and tags by way of taggings. -/
def library : Database :=
  let keyed := CollectionSchema.empty.withField "id" (.column (Column.primaryKey (.ofType .number)))
  let tags : Relation :=
    ⟨.manyToMany, "tags", some "tag_id", some "id", some "book_id", some "id", some "taggings"⟩
  let books : Relation :=
    ⟨.manyToMany, "books", some "book_id", some "id", some "tag_id", some "id", some "taggings"⟩
  ⟨Dict.ofList [
    ("books", (keyed.withField "author" (.relation (.manyToOne "people" "author_id" "id"))).withField "tags"
      (.relation tags)),
    ("people", keyed), ("taggings", .empty), ("tags", keyed.withField "books" (.relation books))], ∅⟩

/-- Books are renamed twice, people and tags exchange their names by way of a third one, and taggings get
their own name back. Two of the calls are refused. -/
def swaps : List (String × String) :=
  [("books", "works"), ("works", "volumes"), ("people", "labels"), ("tags", "people"), ("people", "volumes"),
    ("labels", "tags"), ("taggings", "links"), ("labels", "writers"), ("links", "taggings")]

theorem shows_run_swaps :
    (Memory.source library).names.Nodup ∧ (Memory.source library).Closed ∧
    (source (run (Memory.source library).names swaps) (Memory.source library)).names =
      ["people", "taggings", "tags", "volumes"] ∧
    (run (Memory.source library).names swaps).publicName "people" = "tags" ∧
    Shows (run (Memory.source library).names swaps) (Memory.source library) := by
  have hnames : (Memory.source library).names.Nodup := by decide +kernel
  have hclosed : (Memory.source library).Closed := by decide +kernel
  exact ⟨hnames, hclosed, by decide +kernel, by decide +kernel, (shows_run hnames hclosed swaps).1⟩

end CollectionNaming

end QueryLayer
