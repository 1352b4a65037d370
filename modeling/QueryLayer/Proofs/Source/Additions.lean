import QueryLayer.Proofs.Naming.Collections
import QueryLayer.Proofs.Outcome
import QueryLayer.Source.Composite

/-! # Sources added to a composite

However many sources were added, under whatever names, and however many of them were refused: every name
stands for one collection, every chart belongs to one source, and both are found there. Main statement:
`Composite.routes_run`.
-/
namespace QueryLayer

variable {σ : Type}

/-- At place `i` of a list stands `x`, which has the property, and nothing at another place has it. -/
structure OnlyAt {α : Type} (P : α → Prop) (xs : List α) (i : Nat) (x : α) : Prop where
  stands : xs[i]? = some x
  holds : P x
  only : ∀ j y, xs[j]? = some y → P y → j = i

namespace OnlyAt

variable {α : Type} {P : α → Prop} {xs : List α} {i : Nat} {x y : α}

theorem getElem?_concat_eq_some_iff : (xs ++ [y])[i]? = some x ↔ xs[i]? = some x ∨ i = xs.length ∧ y = x := by
  rcases Nat.lt_trichotomy i xs.length with hi | rfl | hi
  · simp [List.getElem?_append_left hi, Nat.ne_of_lt hi]
  · simp
  · rw [List.getElem?_eq_none (by simpa using Nat.succ_le_of_lt hi), List.getElem?_eq_none (Nat.le_of_lt hi)]
    simp [Nat.ne_of_gt hi]

theorem concat_left (h : OnlyAt P xs i x) (hy : ¬P y) : OnlyAt P (xs ++ [y]) i x where
  stands := getElem?_concat_eq_some_iff.2 (Or.inl h.stands)
  holds := h.holds
  only j z hz hP := by
    obtain hz | ⟨-, rfl⟩ := getElem?_concat_eq_some_iff.1 hz
    · exact h.only j z hz hP
    · exact absurd hP hy

theorem concat_right (hxs : ∀ x ∈ xs, ¬P x) (hy : P y) : OnlyAt P (xs ++ [y]) xs.length y where
  stands := getElem?_concat_eq_some_iff.2 (Or.inr ⟨rfl, rfl⟩)
  holds := hy
  only j z hz hP := by
    obtain hz | ⟨rfl, -⟩ := getElem?_concat_eq_some_iff.1 hz
    · exact absurd hP (hxs z (List.mem_of_getElem? hz))
    · rfl

theorem mem (h : OnlyAt P xs i x) : x ∈ xs := List.mem_of_getElem? h.stands

end OnlyAt

namespace Composite

/-- What is passed to add a source: the source, and new names for its collections. -/
structure Addition (σ : Type) where
  source : Source σ
  renames : Dict String

namespace Addition

def names (a : Addition σ) : Names := (CollectionNaming.renameAll a.source.names a.renames.entries .empty).2

/-- The source under its new names. -/
def part (a : Addition σ) : Source σ := CollectionNaming.source a.names a.source

end Addition

/-- The owners when a source is put at the end. -/
def ownersWith (c : Composite σ) (part : Source σ) : Dict Nat :=
  part.charts.keys.foldl (fun owners chart => owners.insert chart c.parts.length) c.owners

/-- An addition step by step. Nothing is taken back when a step fails. -/
def Addition.steps (a : Addition σ) : Action (Composite σ) Unit := do
  Action.ofExcept (CollectionNaming.renameAll a.source.names a.renames.entries .empty).1
  Action.reading fun c =>
    match a.part.names.find? fun name => (c.collection? name).isSome with
    | some name => .error (.setup (.duplicateCollection name))
    | none => .ok ()
  Action.reading fun c =>
    match a.part.charts.keys.find? c.owners.contains with
    | some name => .error (.setup (.duplicateChart name))
    | none => .ok ()
  Action.updating fun c => (.ok (), { c with owners := c.ownersWith a.part })
  Action.updating fun c => (.ok (), { c with parts := c.parts ++ [a.part] })

theorem add_eq (a : Addition σ) (c : Composite σ) : c.add a.source a.renames =
    ((CollectionNaming.renameAll a.source.names a.renames.entries .empty).1 >>= fun _ => c.append a.part) := by
  unfold add Addition.part Addition.names
  rcases CollectionNaming.renameAll a.source.names a.renames.entries .empty with ⟨_ | _, names⟩ <;> rfl

/-- Every step that can fail comes before those that change something. -/
theorem runOn_steps (a : Addition σ) (c : Composite σ) : a.steps.runOn c =
    match c.add a.source a.renames with
    | .ok added => (.ok (), added)
    | .error e => (.error e, c) := by
  rw [add_eq, Addition.steps, Action.runOn_bind, Action.runOn_ofExcept]
  cases (CollectionNaming.renameAll a.source.names a.renames.entries .empty).1 with
  | error e => rfl
  | ok u =>
    rw [Outcome.ok_bind, append]
    dsimp only
    rw [Action.runOn_bind, Action.runOn_reading]
    cases a.part.names.find? fun name => (c.collection? name).isSome with
    | some name => rfl
    | none =>
      dsimp only
      rw [Action.runOn_bind, Action.runOn_reading]
      cases a.part.charts.keys.find? c.owners.contains with
      | some name => rfl
      | none => rfl

theorem append_eq_ok_iff {part : Source σ} {c added : Composite σ} : c.append part = .ok added ↔
    (∀ name ∈ part.names, c.collection? name = none) ∧ (∀ chart ∈ part.charts.keys, c.owners.get? chart = none) ∧
      added = ⟨c.parts ++ [part], c.ownersWith part⟩ := by
  have hnames : (part.names.find? fun name => (c.collection? name).isSome) = none ↔
      ∀ name ∈ part.names, c.collection? name = none := by
    simp [List.find?_eq_none]
  have hcharts : part.charts.keys.find? c.owners.contains = none ↔
      ∀ chart ∈ part.charts.keys, c.owners.get? chart = none := by
    simp [List.find?_eq_none, Dict.contains]
  rw [← hnames, ← hcharts, append]
  cases part.names.find? fun name => (c.collection? name).isSome with
  | some name => simp
  | none =>
    cases part.charts.keys.find? c.owners.contains with
    | some name => simp
    | none => simp [ownersWith, eq_comm]

theorem add_eq_ok_iff {a : Addition σ} {c added : Composite σ} : c.add a.source a.renames = .ok added ↔
    (CollectionNaming.renameAll a.source.names a.renames.entries .empty).1 = .ok () ∧
      (∀ name ∈ a.part.names, c.collection? name = none) ∧
      (∀ chart ∈ a.source.charts.keys, c.owners.get? chart = none) ∧
      added = ⟨c.parts ++ [a.part], c.ownersWith a.part⟩ := by
  rw [add_eq, Outcome.seq_eq_ok_iff, append_eq_ok_iff]
  rfl

/-- The composite after an addition, whether it was accepted or refused. -/
def after (c : Composite σ) (a : Addition σ) : Composite σ := (a.steps.runOn c).2

/-- The composite after additions in order, from none on. -/
def run (additions : List (Addition σ)) : Composite σ := additions.foldl after .empty

/-- The additions that are accepted, in order. -/
def accepted : Composite σ → List (Addition σ) → List (Addition σ)
  | _, [] => []
  | c, a :: rest =>
    match a.steps.runOn c with
    | (.ok (), added) => a :: accepted added rest
    | (.error _, left) => accepted left rest

theorem collection?_source (c : Composite σ) (name : String) :
    c.source.collection? name = c.collection? name :=
  List.find?_flatMap

theorem mem_names_iff {c : Composite σ} {name : String} : name ∈ c.source.names ↔ (c.collection? name).isSome := by
  rw [← collection?_source, Source.mem_names_iff]

theorem collection?_concat (c : Composite σ) (part : Source σ) (owners : Dict Nat) (name : String) :
    collection? ⟨c.parts ++ [part], owners⟩ name = (c.collection? name).or (part.collection? name) := by
  simp [collection?, List.findSome?_append]

/-- What every accepted addition keeps: the parts are the added sources, a name is found in the only one
that has it, and the owner of a chart is the only one that has it. -/
structure Kept (taken : List (Addition σ)) (c : Composite σ) : Prop where
  parts : c.parts = taken.map Addition.part
  distinct : c.source.names.Nodup
  found : ∀ name x, c.collection? name = some x →
    ∃ i a, OnlyAt (fun a => name ∈ a.part.names) taken i a ∧ a.part.collection name = .ok x
  owned : ∀ chart i, c.owners.get? chart = some i →
    ∃ a, OnlyAt (fun a => chart ∈ a.source.charts.keys) taken i a
  unowned : ∀ chart, c.owners.get? chart = none → ∀ a ∈ taken, chart ∉ a.source.charts.keys

namespace Kept

variable {taken : List (Addition σ)} {c added : Composite σ} {a : Addition σ}

theorem empty : Kept [] (.empty : Composite σ) where
  parts := rfl
  distinct := List.nodup_nil
  found _ _ h := by cases h
  owned _ _ h := by cases h
  unowned _ _ _ h := by cases h

theorem collections_eq (h : Kept taken c) : c.source.collections = taken.flatMap fun a => a.part.collections := by
  rw [source, h.parts, List.flatMap_map]

theorem mem_names_iff (h : Kept taken c) {name : String} :
    name ∈ c.source.names ↔ ∃ a ∈ taken, name ∈ a.part.names := by
  rw [Source.names, h.collections_eq, List.map_flatMap, List.mem_flatMap]
  rfl

theorem unnamed (h : Kept taken c) {name : String} (hfree : c.collection? name = none) :
    ∀ a ∈ taken, name ∉ a.part.names := by
  intro a ha hname
  have hfound := Composite.mem_names_iff.1 (h.mem_names_iff.2 ⟨a, ha, hname⟩)
  rw [hfree] at hfound
  cases hfound

theorem distinct_add (h : Kept taken c) (hfree : ∀ name ∈ a.part.names, c.collection? name = none)
    (owners : Dict Nat) : (source ⟨c.parts ++ [a.part], owners⟩).names.Nodup := by
  have hsplit : (source ⟨c.parts ++ [a.part], owners⟩).names = c.source.names ++ a.part.names := by
    simp [source, Source.names]
  rw [hsplit, List.nodup_append']
  refine ⟨h.distinct, CollectionNaming.nodup_names_source _ _, fun name hname hpart => ?_⟩
  rw [Composite.mem_names_iff, hfree name hpart] at hname
  cases hname

theorem found_add (h : Kept taken c) (hfree : ∀ name ∈ a.part.names, c.collection? name = none)
    {name : String} {x : Collection σ} (hx : (c.collection? name).or (a.part.collection? name) = some x) :
    ∃ i b, OnlyAt (fun a => name ∈ a.part.names) (taken ++ [a]) i b ∧ b.part.collection name = .ok x := by
  cases hold : c.collection? name with
  | some y =>
    obtain ⟨i, b, honly, hb⟩ := h.found name y hold
    have hnew : name ∉ a.part.names := by
      intro hpart
      rw [hfree name hpart] at hold
      cases hold
    rw [hold] at hx
    exact ⟨i, b, honly.concat_left hnew, Option.some.inj hx ▸ hb⟩
  | none =>
    rw [hold, Option.none_or] at hx
    have hnew : name ∈ a.part.names := Source.mem_names_iff.2 (Option.isSome_of_eq_some hx)
    exact ⟨taken.length, a, .concat_right (h.unnamed hold) hnew, Source.collection_eq_ok_iff_collection?.2 hx⟩

theorem add (h : Kept taken c) (hok : c.add a.source a.renames = .ok added) : Kept (taken ++ [a]) added := by
  obtain ⟨-, hfree, hcharts, rfl⟩ := add_eq_ok_iff.1 hok
  refine ⟨?_, h.distinct_add hfree _, fun name x hx => ?_, fun chart i hi => ?_, fun chart hnone b hb => ?_⟩
  · rw [List.map_append, h.parts]
    rfl
  · rw [collection?_concat] at hx
    exact h.found_add hfree hx
  · rw [ownersWith, Dict.get?_foldl_insert, h.parts, List.length_map] at hi
    split at hi
    · next hchart =>
      cases hi
      exact ⟨a, .concat_right (h.unowned chart (hcharts chart hchart)) hchart⟩
    · next hchart =>
      obtain ⟨b, honly⟩ := h.owned chart i hi
      exact ⟨b, honly.concat_left hchart⟩
  · rw [ownersWith, Dict.get?_foldl_insert] at hnone
    split at hnone
    · cases hnone
    · next hchart =>
      rcases List.mem_append.1 hb with hb | hb
      · exact h.unowned chart hnone b hb
      · obtain rfl := List.mem_singleton.1 hb
        exact hchart

theorem run (h : Kept taken c) (additions : List (Addition σ)) :
    Kept (taken ++ accepted c additions) (additions.foldl after c) := by
  induction additions generalizing taken c with
  | nil =>
    rw [accepted, List.append_nil]
    exact h
  | cons a rest ih =>
    rw [List.foldl_cons, accepted, after, runOn_steps]
    cases hadd : c.add a.source a.renames with
    | error e => exact ih h
    | ok added =>
      have hrest := ih (h.add hadd)
      rwa [List.append_assoc] at hrest

end Kept

/-- How names and charts lead to the sources that were taken in. -/
structure Routes (taken : List (Addition σ)) (c : Composite σ) : Prop where
  collections : c.source.collections = taken.flatMap fun a => a.part.collections
  distinct : c.source.names.Nodup
  /-- The parts are asked for a name one after the other. -/
  asked : ∀ name, c.source.collection? name = c.collection? name
  found : ∀ name ∈ c.source.names, ∃ i a x, OnlyAt (fun a => name ∈ a.part.names) taken i a ∧
    a.part.collection name = .ok x ∧ c.source.collection name = .ok x
  missing : ∀ name, name ∉ c.source.names →
    c.source.collection name = .error (.setup (.collectionNotFound name))
  /-- What a name stands for is a collection of the source, under the name that it was given. -/
  brought : ∀ a ∈ taken, ∀ x ∈ a.part.collections, ∃ own ∈ a.source.collections,
    x = CollectionNaming.present a.names a.source (a.names.publicName own.name) own
  charts : ∀ chart, chart ∈ c.source.charts.keys ↔ ∃ a ∈ taken, chart ∈ a.source.charts.keys
  rendered : ∀ chart ∈ c.source.charts.keys, ∃ i a,
    OnlyAt (fun a => chart ∈ a.source.charts.keys) taken i a ∧ c.owners.get? chart = some i ∧
      ∀ caller, c.source.renderChart caller chart = a.source.renderChart caller chart
  unknown : ∀ chart, chart ∉ c.source.charts.keys → ∀ caller,
    c.source.renderChart caller chart = throw (.setup (.unknownChart chart))

theorem mem_charts_iff {c : Composite σ} {chart : String} :
    chart ∈ c.source.charts.keys ↔ (c.owners.get? chart).isSome := by
  rw [← Dict.mem_keys_iff]
  unfold source Dict.map
  rw [Dict.keys_mapEntries]

theorem Kept.routes {taken : List (Addition σ)} {c : Composite σ} (h : Kept taken c) : Routes taken c where
  collections := h.collections_eq
  distinct := h.distinct
  asked := collection?_source c
  found name hname := by
    obtain ⟨x, hx⟩ := Source.exists_collection hname
    obtain ⟨i, a, honly, ha⟩ := h.found name x (by
      rw [← collection?_source, Source.collection_eq_ok_iff_collection?.1 hx])
    exact ⟨i, a, x, honly, ha, hx⟩
  missing _ := Source.collection_eq_error_iff.2
  brought _ _ _ hx := CollectionNaming.exists_of_mem_source hx
  charts chart := by
    rw [mem_charts_iff]
    cases howner : c.owners.get? chart with
    | none => simpa using h.unowned chart howner
    | some i =>
      obtain ⟨a, honly⟩ := h.owned chart i howner
      simpa using ⟨a, honly.mem, honly.holds⟩
  rendered chart hchart := by
    obtain ⟨i, howner⟩ := Option.isSome_iff_exists.1 (mem_charts_iff.1 hchart)
    obtain ⟨a, honly⟩ := h.owned chart i howner
    refine ⟨i, a, honly, howner, fun caller => ?_⟩
    have hpart : c.parts[i]? = some a.part := by
      rw [h.parts, List.getElem?_map, honly.stands]
      rfl
    change c.renderChart caller chart = _
    rw [renderChart, howner, Option.bind_some, hpart]
    rfl
  unknown chart hchart caller := by
    rw [mem_charts_iff, Option.not_isSome_iff_eq_none] at hchart
    change c.renderChart caller chart = _
    rw [renderChart, hchart]
    rfl

/-- After any additions, of which some may have been refused, the composite routes to the sources that were
accepted. The next addition is accepted or leaves everything as it is. -/
theorem routes_run (additions : List (Addition σ)) :
    Routes (accepted .empty additions) (run additions) ∧ ∀ a : Addition σ, a.steps.runOn (run additions) =
      match (run additions).add a.source a.renames with
      | .ok added => (.ok (), added)
      | .error e => (.error e, run additions) :=
  ⟨((Kept.empty (σ := σ)).run additions).routes, fun a => runOn_steps a (run additions)⟩

end Composite

end QueryLayer
