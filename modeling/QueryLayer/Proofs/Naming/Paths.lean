import QueryLayer.Proofs.Memory.Hydration
import QueryLayer.Proofs.Naming.Shown
import QueryLayer.Proofs.Query.Projection
import QueryLayer.Proofs.Typing.Check

/-! # Paths by public and by own names

`Leads gs fs c` says that the hops `gs`, by public names, are the hops `fs`, by own names, and that they
lead to the column `c`. These are the paths that the direct database accepts, and those whose translation
the source accepts. Translating such a path back gives it again.
-/
namespace QueryLayer

theorem Path.hops_join {names : List String} (h : ∀ name ∈ names, Path.Plain name) (hne : names ≠ []) :
    Path.hops (Path.join names) = names := by
  induction names with
  | nil => exact absurd rfl hne
  | cons name rest ih =>
    have hname := h name List.mem_cons_self
    cases rest with
    | nil => exact Path.hops_of_plain hname
    | cons second rest =>
      have hrest := ih (fun hop hhop => h hop (List.mem_cons_of_mem _ hhop)) (by simp)
      change Path.hops (Path.under name (Path.join (second :: rest))) = _
      rw [Path.hops_under hname, hrest]

/-- What reads as one hop was joined from one. -/
theorem Path.eq_singleton_of_plain_join {names : List String} (hne : names ≠ [])
    (h : Path.Plain (Path.join names)) : names = [Path.join names] := by
  match names with
  | [name] => rfl
  | name :: second :: rest => exact absurd (by simp [Path.join]) h

namespace FieldNaming

variable {σ : Type} {n : FieldNaming σ} {c : Collection σ} {g f : String}

/-- A name that does not read as a path is translated as a whole. -/
theorem ownPath_of_plain (n : FieldNaming σ) (c : Collection σ) (h : Path.Plain g) :
    n.ownPath c g = n.ownField c.name g := by
  unfold ownPath
  rw [Path.hops_of_plain h, ownHops]
  cases n.ownField c.name g <;> rfl

theorem length_of_ownHops {gs fs : List String} (h : n.ownHops c gs = .ok fs) : fs.length = gs.length := by
  induction gs generalizing c fs with
  | nil =>
    cases h
    rfl
  | cons g rest ih =>
    cases rest with
    | nil =>
      obtain ⟨f, -, h⟩ := Outcome.bind_eq_ok_iff.1 h
      cases h
      rfl
    | cons second rest =>
      rw [ownHops] at h
      · obtain ⟨f, -, h⟩ := Outcome.bind_eq_ok_iff.1 h
        split at h
        · obtain ⟨foreign, -, h⟩ := Outcome.bind_eq_ok_iff.1 h
          obtain ⟨fs, hfs, h⟩ := Outcome.bind_eq_ok_iff.1 h
          cases h
          exact congrArg Nat.succ (ih hfs)
        · cases h
          rfl
      · simp

/-- A translation has as many hops as the path, so that only plain names are translated to plain ones. -/
theorem plain_of_ownPath (h : n.ownPath c g = .ok f) (hf : Path.Plain f) :
    Path.Plain g ∧ n.ownField c.name g = .ok f := by
  have hg : Path.Plain g := by
    unfold ownPath at h
    cases hfs : n.ownHops c (Path.hops g) with
    | error e =>
      rw [hfs] at h
      cases h
    | ok fs =>
      rw [hfs] at h
      obtain rfl : Path.join fs = f := Except.ok.inj h
      have hlength := length_of_ownHops hfs
      have hne : fs ≠ [] := by
        rintro rfl
        exact Path.hops_ne_nil g (List.length_eq_zero_iff.1 hlength.symm)
      rw [Path.eq_singleton_of_plain_join hne hf] at hlength
      obtain ⟨hop, hhop⟩ := List.length_eq_one_iff.1 hlength.symm
      rw [← Path.join_hops g, hhop]
      exact Path.plain_of_mem_hops (hhop ▸ List.mem_singleton_self hop)
  exact ⟨hg, (n.ownPath_of_plain c hg).symm.trans h⟩

end FieldNaming

namespace Scope

variable {catalog : Catalog} {name : String} {schema : CollectionSchema} {c : Column}

theorem columnAt_singleton {f : String} :
    columnAt catalog name schema [f] = .ok c ↔ schema.column? f = some c := by
  rw [columnAt, CollectionSchema.column?]
  cases schema.fields.get? f with
  | none => simp
  | some field => cases field <;> simp [Field.column?]

theorem columnAt_cons {f : String} {rest : List String} (hrest : rest ≠ []) :
    columnAt catalog name schema (f :: rest) = .ok c ↔
      ∃ r foreign, schema.relation? f = some r ∧ r.kind.isToOne = true ∧
        catalog r.foreignCollection = some foreign ∧
        columnAt catalog r.foreignCollection foreign rest = .ok c := by
  rw [columnAt, CollectionSchema.relation?]
  · cases schema.fields.get? f with
    | none => simp
    | some field =>
      cases field with
      | column c => simp [Field.relation?]
      | relation r =>
        simp only [Option.bind_some, Field.relation?, Option.some.injEq]
        by_cases hone : r.kind.isToOne
        · cases hcatalog : catalog r.foreignCollection with
          | none =>
            rw [if_pos hone]
            constructor
            · intro h
              cases h
            · rintro ⟨_, _, rfl, _, hforeign, _⟩
              rw [hcatalog] at hforeign
              cases hforeign
          | some foreign =>
            rw [if_pos hone]
            constructor
            · intro h
              exact ⟨r, foreign, rfl, hone, hcatalog, h⟩
            · rintro ⟨_, _, rfl, _, hforeign, h⟩
              rw [hcatalog] at hforeign
              cases hforeign
              exact h
        · rw [if_neg hone]
          constructor
          · intro h
            cases h
          · rintro ⟨_, _, rfl, hone', _⟩
            exact absurd hone' hone
  · exact hrest

theorem columnAt_nil : columnAt catalog name schema [] ≠ .ok c := by
  rw [columnAt]
  simp

end Scope

namespace FieldNaming

variable {n : FieldNaming Store} {db : Database} {name : String} {schema : CollectionSchema}

inductive Leads (n : FieldNaming Store) (db : Database) :
    String → CollectionSchema → List String → List String → Column → Prop
  | column {name : String} {schema : CollectionSchema} {g f : String} {c : Column} :
    n.ownField name g = .ok f → schema.column? f = some c → Leads n db name schema [g] [f] c
  | through {name : String} {schema : CollectionSchema} {g f : String} {r : Relation}
    {foreign : CollectionSchema} {gs fs : List String} {c : Column} :
    n.ownField name g = .ok f → schema.relation? f = some r → r.kind.isToOne = true →
    db.schemas.get? r.foreignCollection = some foreign →
    Leads n db r.foreignCollection foreign gs fs c → Leads n db name schema (g :: gs) (f :: fs) c

namespace Leads

variable {gs fs : List String} {c : Column}

theorem ne_nil (h : Leads n db name schema gs fs c) : gs ≠ [] ∧ fs ≠ [] := by
  cases h <;> simp

theorem plain_own (h : Leads n db name schema gs fs c) (hn : n.Faithful db)
    (hgs : ∀ g ∈ gs, Path.Plain g) : ∀ f ∈ fs, Path.Plain f := by
  induction h with
  | column hg _ =>
    intro f hf
    obtain rfl := List.mem_singleton.1 hf
    exact hn.plain_of_ownField (hgs _ List.mem_cons_self) hg
  | through hg _ _ _ _ ih =>
    intro f hf
    rcases List.mem_cons.1 hf with rfl | hf
    · exact hn.plain_of_ownField (hgs _ List.mem_cons_self) hg
    · exact ih (fun g hg => hgs g (List.mem_cons_of_mem _ hg)) f hf

theorem publicHops_eq (h : Leads n db name schema gs fs c) (hn : n.Faithful db) :
    n.publicHops (Memory.collection db name schema) fs = .ok gs := by
  induction h with
  | column hg _ =>
    rw [publicHops]
    exact congrArg (fun g => Except.ok [g]) (hn.publicField_of_ownField hg)
  | @through name schema g f r foreign gs fs c hg hr _ hforeign hrest ih =>
    have hcollection := (child_collection_iff hn.child).2 ⟨foreign, hforeign, rfl⟩
    have hr' : (Memory.collection db name schema).schema.relation? f = some r := hr
    rw [publicHops, hr']
    · dsimp only
      rw [hcollection, Outcome.ok_bind, ih, Outcome.ok_bind]
      exact congrArg (fun g => Except.ok (g :: gs)) (hn.publicField_of_ownField hg)
    · exact hrest.ne_nil.2

theorem ownHops_eq (h : Leads n db name schema gs fs c) (hchild : n.child = Memory.source db) :
    n.ownHops (Memory.collection db name schema) gs = .ok fs := by
  induction h with
  | column hg _ =>
    rw [ownHops]
    exact Outcome.bind_eq_ok_iff.2 ⟨_, hg, rfl⟩
  | @through name schema g f r foreign gs fs c hg hr _ hforeign hrest ih =>
    have hcollection := (child_collection_iff hchild).2 ⟨foreign, hforeign, rfl⟩
    have hr' : (Memory.collection db name schema).schema.relation? f = some r := hr
    rw [ownHops]
    · refine Outcome.bind_eq_ok_iff.2 ⟨f, hg, ?_⟩
      rw [hr']
      dsimp only
      rw [hcollection, Outcome.ok_bind, ih]
      rfl
    · exact hrest.ne_nil.1

theorem columnAt_eq (h : Leads n db name schema gs fs c) :
    Scope.columnAt db.catalog name schema fs = .ok c := by
  induction h with
  | column _ hc => exact Scope.columnAt_singleton.2 hc
  | through _ hr hone hforeign hrest ih =>
    exact (Scope.columnAt_cons hrest.ne_nil.2).2 ⟨_, _, hr, hone, hforeign, ih⟩

end Leads

theorem leads_of_ownHops (hchild : n.child = Memory.source db) {gs fs : List String} {c : Column}
    (hfs : n.ownHops (Memory.collection db name schema) gs = .ok fs)
    (hc : Scope.columnAt db.catalog name schema fs = .ok c) : Leads n db name schema gs fs c := by
  induction gs generalizing name schema fs with
  | nil =>
    rw [ownHops] at hfs
    cases hfs
    exact absurd hc Scope.columnAt_nil
  | cons g rest ih =>
    by_cases hnil : rest = []
    · subst hnil
      rw [ownHops] at hfs
      obtain ⟨f, hg, hfs⟩ := Outcome.bind_eq_ok_iff.1 hfs
      cases hfs
      exact .column hg (Scope.columnAt_singleton.1 hc)
    · rw [ownHops] at hfs
      · obtain ⟨f, hg, hfs⟩ := Outcome.bind_eq_ok_iff.1 hfs
        cases hr : (Memory.collection db name schema).schema.relation? f with
        | none =>
          rw [hr] at hfs
          cases hfs
          obtain ⟨r, _, hr', _⟩ := (Scope.columnAt_cons hnil).1 hc
          exact absurd (hr.symm.trans hr') (by simp)
        | some r =>
          rw [hr] at hfs
          obtain ⟨collection, hcollection, hfs⟩ := Outcome.bind_eq_ok_iff.1 hfs
          obtain ⟨foreign, hforeign, rfl⟩ := (child_collection_iff hchild).1 hcollection
          obtain ⟨fs, hrest, hfs⟩ := Outcome.bind_eq_ok_iff.1 hfs
          cases hfs
          have hne : fs ≠ [] := by
            rintro rfl
            have hnone : schema.column? f = none := Memory.column?_eq_none_of_relation? hr
            rw [Scope.columnAt_singleton.1 hc] at hnone
            cases hnone
          obtain ⟨r', foreign', hr', hone, hforeign', hc⟩ := (Scope.columnAt_cons hne).1 hc
          obtain rfl : r = r' := Option.some.inj (hr.symm.trans hr')
          obtain rfl : foreign = foreign' := Option.some.inj (hforeign.symm.trans hforeign')
          exact .through hg hr hone hforeign (ih hrest hc)
      · exact hnil

/-- The hops that the source accepts once they are translated. -/
theorem leads_iff_ownHops (hchild : n.child = Memory.source db) {gs fs : List String} {c : Column} :
    Leads n db name schema gs fs c ↔
      n.ownHops (Memory.collection db name schema) gs = .ok fs ∧
        Scope.columnAt db.catalog name schema fs = .ok c :=
  ⟨fun h => ⟨h.ownHops_eq hchild, h.columnAt_eq⟩, fun h => leads_of_ownHops hchild h.1 h.2⟩

/-- The hops that the direct database accepts. -/
theorem columnAt_direct_iff (hn : n.Faithful db) (hs : db.schemas.get? name = some schema)
    {gs : List String} {c : Column} :
    Scope.columnAt (n.direct db).catalog name (n.view db name schema) gs = .ok c ↔
      ∃ fs, Leads n db name schema gs fs c := by
  induction gs generalizing name schema with
  | nil =>
    constructor
    · intro h
      exact absurd h Scope.columnAt_nil
    · rintro ⟨fs, h⟩
      exact absurd rfl h.ne_nil.1
  | cons g rest ih =>
    by_cases hrest : rest = []
    · subst hrest
      rw [Scope.columnAt_singleton, hn.column?_view hs]
      constructor
      · rintro ⟨f, hg, hc⟩
        exact ⟨[f], .column hg hc⟩
      · rintro ⟨fs, h⟩
        cases h with
        | column hg hc => exact ⟨_, hg, hc⟩
        | through _ _ _ _ hrest => exact absurd rfl hrest.ne_nil.1
    · rw [Scope.columnAt_cons hrest]
      constructor
      · rintro ⟨shown, foreign', hshown, hone, hforeign', hc⟩
        obtain ⟨f, r, hg, hr, rfl⟩ := (hn.relation?_view hs).1 hshown
        rw [kind_publicRelation] at hone
        rw [foreignCollection_publicRelation] at hforeign' hc
        rw [Database.catalog, get?_schemas_direct hn.child] at hforeign'
        obtain ⟨foreign, hforeign, rfl⟩ := Option.map_eq_some_iff.1 hforeign'
        obtain ⟨fs, hfs⟩ := (ih hforeign).1 hc
        exact ⟨f :: fs, .through hg hr hone hforeign hfs⟩
      · rintro ⟨fs, h⟩
        cases h with
        | column _ _ => exact absurd rfl hrest
        | @through _ _ _ f r foreign _ fs _ hg hr hone hforeign hfs =>
          refine ⟨_, n.view db r.foreignCollection foreign,
            (hn.relation?_view hs).2 ⟨f, r, hg, hr, rfl⟩, ?_, ?_, ?_⟩
          · rw [kind_publicRelation]
            exact hone
          · rw [foreignCollection_publicRelation, Database.catalog, get?_schemas_direct hn.child, hforeign]
            rfl
          · rw [foreignCollection_publicRelation]
            exact (ih hforeign).2 ⟨fs, hfs⟩

/-! ## Whole paths -/

theorem plain_of_ownHops (hn : n.Faithful db) {c : Collection Store} {gs fs : List String}
    (hgs : ∀ g ∈ gs, Path.Plain g) (h : n.ownHops c gs = .ok fs) :
    (∀ f ∈ fs, Path.Plain f) ∧ (gs ≠ [] → fs ≠ []) := by
  induction gs generalizing c fs with
  | nil =>
    rw [ownHops] at h
    cases h
    simp
  | cons g rest ih =>
    have hg := hgs g List.mem_cons_self
    have hrest : ∀ g ∈ rest, Path.Plain g := fun g hg => hgs g (List.mem_cons_of_mem _ hg)
    cases rest with
    | nil =>
      rw [ownHops] at h
      obtain ⟨f, hf, h⟩ := Outcome.bind_eq_ok_iff.1 h
      cases h
      have hplain := hn.plain_of_ownField hg hf
      simp [hplain]
    | cons second rest =>
      rw [ownHops] at h
      · obtain ⟨f, hf, h⟩ := Outcome.bind_eq_ok_iff.1 h
        have hplain := hn.plain_of_ownField hg hf
        split at h
        · obtain ⟨foreign, _, h⟩ := Outcome.bind_eq_ok_iff.1 h
          obtain ⟨fs, hfs, h⟩ := Outcome.bind_eq_ok_iff.1 h
          cases h
          refine ⟨fun f hf => ?_, by simp⟩
          rcases List.mem_cons.1 hf with rfl | hf
          · exact hplain
          · exact (ih hrest hfs).1 f hf
        · cases h
          refine ⟨fun f hf => ?_, by simp⟩
          rcases List.mem_cons.1 hf with rfl | hf
          · exact hplain
          · exact hrest f hf
      · simp

/-- A path that the source accepts once it is translated. -/
theorem leads_iff_ownPath (hn : n.Faithful db) {g f : String} {c : Column} :
    Leads n db name schema (Path.hops g) (Path.hops f) c ↔
      n.ownPath (Memory.collection db name schema) g = .ok f ∧ (db.scope name schema).column f = .ok c := by
  rw [leads_iff_ownHops hn.child]
  refine and_congr_left fun _ => ?_
  unfold ownPath
  constructor
  · intro h
    rw [h]
    exact congrArg Except.ok (Path.join_hops f)
  · intro h
    cases hhops : n.ownHops (Memory.collection db name schema) (Path.hops g) with
    | error e =>
      rw [hhops] at h
      cases h
    | ok fs =>
      rw [hhops] at h
      cases h
      obtain ⟨hplain, hne⟩ := plain_of_ownHops hn (fun g hg => Path.plain_of_mem_hops hg) hhops
      rw [Path.hops_join hplain (hne (Path.hops_ne_nil g))]

/-- A path that the direct database accepts. -/
theorem column_direct_iff (hn : n.Faithful db) (hs : db.schemas.get? name = some schema) {g : String}
    {c : Column} : ((n.direct db).scope name (n.view db name schema)).column g = .ok c ↔
      ∃ f, Leads n db name schema (Path.hops g) (Path.hops f) c := by
  refine (columnAt_direct_iff hn hs).trans ⟨?_, fun ⟨f, hf⟩ => ⟨_, hf⟩⟩
  rintro ⟨fs, hfs⟩
  have hplain := hfs.plain_own hn fun g hg => Path.plain_of_mem_hops hg
  refine ⟨Path.join fs, ?_⟩
  rw [Path.hops_join hplain hfs.ne_nil.2]
  exact hfs

theorem Leads.publicPath_eq {g f : String} {c : Column}
    (h : Leads n db name schema (Path.hops g) (Path.hops f) c) (hn : n.Faithful db) :
    n.publicPath (Memory.collection db name schema) f = .ok g := by
  unfold publicPath
  rw [h.publicHops_eq hn]
  exact congrArg Except.ok (Path.join_hops g)

end FieldNaming

end QueryLayer
