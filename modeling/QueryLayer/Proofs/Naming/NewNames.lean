import QueryLayer.Proofs.Naming.FieldNames
import QueryLayer.Proofs.Naming.Paths

/-! # New names in queries

A field can be given any name that no field of its collection has, also one with a colon. Written records are
translated by whole names, but conditions, sort clauses and projections hold paths, and there such a name is taken
apart, so that no path leads to the field. With other names nothing is lost: what names the new name is translated
as what named the old one, and every path of fields is still reached. Main statement: `follows_rename`.
-/
namespace QueryLayer.FieldNaming

variable {σ : Type}

/-- What names the new name after a rename is translated as what named the current one before. -/
structure TranslatedAlike (before after : FieldNaming σ) (c : Collection σ) (current new : String) : Prop where
  leaf : ∀ operator value, after.ownCondition c (.leaf ⟨new, operator, value⟩) =
    before.ownCondition c (.leaf ⟨current, operator, value⟩)
  clause : ∀ ascending,
    after.ownSorting c ⟨[⟨new, ascending⟩]⟩ = before.ownSorting c ⟨[⟨current, ascending⟩]⟩
  projection : after.ownProjection c (.ofList [new]) = before.ownProjection c (.ofList [current])
  record : ∀ v, after.ownRecord c [(new, v)] = before.ownRecord c [(current, v)]

/-- Fields by their own names, each but the last a relation to the collection that has the next one. -/
inductive FieldPath (child : Source σ) : String → List String → Prop
  | field {name f : String} : child.HasField name f → FieldPath child name [f]
  | through {name f : String} {c : Collection σ} {r : Relation} {fs : List String} :
    child.collection name = .ok c → c.schema.relation? f = some r →
      FieldPath child r.foreignCollection fs → FieldPath child name (f :: fs)

/-- Whether some path in a query is translated to these own names. -/
def Reaches (n : FieldNaming σ) (name : String) (fs : List String) : Prop :=
  ∃ c path, n.child.collection name = .ok c ∧ n.ownHops c (Path.hops path) = .ok fs

/-- What an accepted rename does to queries and written records. -/
structure Follows (child : Source σ) (before after : FieldNaming σ) (c : Collection σ)
    (current new : String) : Prop where
  /-- Written records follow the field to any name. -/
  record : ∀ v, after.ownRecord c [(new, v)] = before.ownRecord c [(current, v)]
  alike : Path.Plain current → Path.Plain new → TranslatedAlike before after c current new
  found : Path.Plain new → ∀ f, child.HasField c.name f → before.publicField c.name f = current →
    after.ownPath c new = .ok f
  kept : Path.Plain new → ∀ start fs, FieldPath child start fs →
    before.Reaches start fs → after.Reaches start fs
  /-- A name that reads as a path is translated to something else, if the field could be queried before. -/
  astray : ¬Path.Plain new → Path.Plain current → ∀ f, child.HasField c.name f → Path.Plain f →
    before.publicField c.name f = current → after.ownPath c new ≠ before.ownPath c current
  /-- Nor does any other path lead to the field. -/
  lost : ¬Path.Plain new → ∀ f, child.HasField c.name f → before.publicField c.name f = current →
    ¬after.Reaches c.name [f]

section

variable {n m : FieldNaming σ} {child : Source σ} {c foreign : Collection σ} {r : Relation}
  {current new f g name : String} {fs gs : List String}

/-! ## Paths of fields -/

theorem FieldPath.ne_nil (h : FieldPath child name fs) : fs ≠ [] := by
  cases h <;> simp

theorem FieldPath.exists_collection (h : FieldPath child name fs) : ∃ c, child.collection name = .ok c := by
  cases h with
  | field hf => exact ⟨_, hf.choose_spec.1⟩
  | through hc => exact ⟨_, hc⟩

theorem ownHops_singleton_iff : n.ownHops c [g] = .ok [f] ↔ n.ownField c.name g = .ok f := by
  rw [ownHops, Outcome.bind_eq_ok_iff]
  constructor
  · rintro ⟨own, hown, h⟩
    cases h
    exact hown
  · exact fun h => ⟨f, h, rfl⟩

theorem ownHops_cons_iff (hr : c.schema.relation? f = some r)
    (hforeign : n.child.collection r.foreignCollection = .ok foreign) (hgs : gs ≠ []) :
    n.ownHops c (g :: gs) = .ok (f :: fs) ↔ n.ownField c.name g = .ok f ∧ n.ownHops foreign gs = .ok fs := by
  rw [ownHops, Outcome.bind_eq_ok_iff]
  · constructor
    · rintro ⟨own, hown, h⟩
      split at h
      · next r' hr' =>
        obtain ⟨d, hd, h⟩ := Outcome.bind_eq_ok_iff.1 h
        obtain ⟨rest, hrest, h⟩ := Outcome.bind_eq_ok_iff.1 h
        cases h
        rw [hr] at hr'
        cases hr'
        rw [hforeign] at hd
        cases hd
        exact ⟨hown, hrest⟩
      · next hnone =>
        cases h
        rw [hr] at hnone
        cases hnone
    · rintro ⟨hown, hrest⟩
      refine ⟨f, hown, ?_⟩
      simp only [hr, hforeign, hrest, Outcome.ok_bind]
      rfl
  · exact hgs

namespace FairOver

/-- A field can be named in a query when its public name is not read as a path. -/
theorem reaches_field_iff (h : n.FairOver child) (hf : child.HasField name f) :
    n.Reaches name [f] ↔ Path.Plain (n.publicField name f) := by
  constructor
  · rintro ⟨c, path, hc, hpath⟩
    obtain rfl := Source.name_of_collection hc
    obtain ⟨g, hg⟩ := List.length_eq_one_iff.1 (length_of_ownHops hpath).symm
    rw [hg, ownHops_singleton_iff] at hpath
    rw [publicField_of_ownField_of_fair (h.fair c.name) hpath]
    exact Path.plain_of_mem_hops (hg ▸ List.mem_singleton_self g)
  · intro hplain
    obtain ⟨c, hc, -⟩ := id hf
    obtain rfl := Source.name_of_collection hc
    refine ⟨c, n.publicField c.name f, h.child_eq ▸ hc, ?_⟩
    rw [Path.hops_of_plain hplain, ownHops_singleton_iff]
    exact ownField_publicField_of_fair (h.fair c.name) hf

/-- A path of fields can be named hop by hop. -/
theorem reaches_through_iff (h : n.FairOver child) (hc : child.collection name = .ok c)
    (hr : c.schema.relation? f = some r) (hfs : FieldPath child r.foreignCollection fs) :
    n.Reaches name (f :: fs) ↔ Path.Plain (n.publicField name f) ∧ n.Reaches r.foreignCollection fs := by
  obtain rfl := Source.name_of_collection hc
  rw [← h.child_eq] at hc
  constructor
  · rintro ⟨d, path, hd, hpath⟩
    obtain rfl : c = d := Except.ok.inj (hc.symm.trans hd)
    obtain ⟨foreign, hforeign⟩ := hfs.exists_collection
    rw [← h.child_eq] at hforeign
    obtain ⟨g, gs, hhops⟩ := List.exists_cons_of_ne_nil (Path.hops_ne_nil path)
    have hplain : ∀ hop ∈ g :: gs, Path.Plain hop := fun hop hhop => Path.plain_of_mem_hops (hhops ▸ hhop)
    rw [hhops] at hpath
    have hgs : gs ≠ [] := by
      rintro rfl
      exact hfs.ne_nil (List.length_eq_zero_iff.1 (Nat.succ.inj (length_of_ownHops hpath)))
    rw [ownHops_cons_iff hr hforeign hgs] at hpath
    rw [publicField_of_ownField_of_fair (h.fair c.name) hpath.1]
    refine ⟨hplain g List.mem_cons_self, foreign, Path.join gs, hforeign, ?_⟩
    rw [Path.hops_join (fun hop hhop => hplain hop (List.mem_cons_of_mem _ hhop)) hgs]
    exact hpath.2
  · rintro ⟨hplain, foreign, path, hforeign, hpath⟩
    refine ⟨c, Path.under (n.publicField c.name f) path, hc, ?_⟩
    rw [Path.hops_under hplain, ownHops_cons_iff hr hforeign (Path.hops_ne_nil path)]
    refine ⟨ownField_publicField_of_fair (h.fair c.name) ⟨c, h.child_eq ▸ hc, ?_⟩, hpath⟩
    exact Dict.mem_keys_iff.2 (CollectionSchema.isSome_get?_of_relation? hr)

/-- What every field keeps of its public name, paths of fields keep too. -/
theorem reaches_of_plain (h : n.FairOver child) (hm : m.FairOver child)
    (hplain : ∀ name f, child.HasField name f → Path.Plain (n.publicField name f) →
      Path.Plain (m.publicField name f)) (hfs : FieldPath child name fs) (hreached : n.Reaches name fs) :
    m.Reaches name fs := by
  induction hfs with
  | field hf =>
    rw [h.reaches_field_iff hf] at hreached
    exact (hm.reaches_field_iff hf).2 (hplain _ _ hf hreached)
  | @through name f c r fs hc hr hfs ih =>
    obtain ⟨hfield, hrest⟩ := (h.reaches_through_iff hc hr hfs).1 hreached
    have hf : child.HasField name f :=
      ⟨c, hc, Dict.mem_keys_iff.2 (CollectionSchema.isSome_get?_of_relation? hr)⟩
    exact (hm.reaches_through_iff hc hr hfs).2 ⟨hplain name f hf hfield, ih hrest⟩

/-! ## An accepted rename -/

theorem publicField_of_rename (h : n.FairOver child) (hc : child.collection c.name = .ok c)
    (hm : n.rename c.name current new = .ok m) {name f : String} (hf : child.HasField name f) :
    m.publicField name f =
      if name = c.name ∧ n.publicField name f = current then new else n.publicField name f := by
  by_cases hname : name = c.name
  · subst hname
    rw [h.publicField_rename hc hm ((Source.hasField_iff hc).1 hf)]
    simp
  · have hnames := ((h.answers hc current new).renamed m hm).2.2 name hname
    unfold publicField
    rw [hnames, if_neg fun heq => hname heq.1]

theorem ownField_of_rename (h : n.FairOver child) (hc : child.collection c.name = .ok c)
    (hm : n.rename c.name current new = .ok m) : m.ownField c.name new = n.ownField c.name current := by
  obtain ⟨rfl, rfl⟩ | ⟨-, hcurrent, -, -⟩ := (rename_eq_ok_iff (h.child_eq ▸ hc)).1 hm
  · rfl
  · obtain ⟨f, hmem, hf⟩ := mem_publicKeys_iff.1 hcurrent
    have hfield := (Source.hasField_iff hc).2 hmem
    have hnew : m.publicField c.name f = new := by
      rw [h.publicField_of_rename hc hm hfield, if_pos ⟨rfl, hf⟩]
    rw [← hnew, ← hf, ownField_publicField_of_fair ((h.rename hm).fair c.name) hfield,
      ownField_publicField_of_fair (h.fair c.name) hfield]

end FairOver

theorem ownRecord_of_own (hfield : m.ownField c.name new = n.ownField c.name current) (v : Value) :
    m.ownRecord c [(new, v)] = n.ownRecord c [(current, v)] := by
  unfold ownRecord
  rw [List.mapM_cons, List.mapM_cons, hfield]
  rfl

theorem translatedAlike_of_own (hpath : m.ownPath c new = n.ownPath c current)
    (hfield : m.ownField c.name new = n.ownField c.name current) : TranslatedAlike n m c current new where
  leaf operator value := by
    unfold ownCondition
    rw [Condition.replaceLeavesM, Condition.replaceLeavesM, hpath]
  clause ascending := by
    unfold ownSorting
    rw [List.mapM_cons, List.mapM_cons, hpath]
    rfl
  projection := by
    have hfields : ∀ g, (Projection.ofList [g]).fields = [g] := fun _ => rfl
    unfold ownProjection
    rw [hfields, hfields, List.mapM_cons, List.mapM_cons, hpath]
    rfl
  record := ownRecord_of_own hfield

/-- Whichever calls were made before, an accepted rename takes the field along in written records. Queries can name
it afterwards when its new name has no colon, and then as before, and they reach what they reached. -/
theorem follows_rename (hc : child.collection c.name = .ok c) (calls : List Rename)
    (hm : (run child calls).rename c.name current new = .ok m) :
    Follows child (run child calls) m c current new := by
  have h := FairOver.run child calls
  have hfair := h.rename hm
  have hown := h.ownField_of_rename hc hm
  have hpublic : ∀ f, child.HasField c.name f → (run child calls).publicField c.name f = current →
      m.publicField c.name f = new := fun f hf heq => by
    rw [h.publicField_of_rename hc hm hf, if_pos ⟨rfl, heq⟩]
  have hpath : Path.Plain current → Path.Plain new → m.ownPath c new = (run child calls).ownPath c current :=
    fun hcurrent hnew => by rw [ownPath_of_plain _ _ hcurrent, ownPath_of_plain _ _ hnew, hown]
  refine ⟨ownRecord_of_own hown, fun hcurrent hnew => ?_, fun hnew f hf heq => ?_, fun hnew start fs => ?_,
    fun hnew hcurrent f hf hplain heq hsame => ?_, fun hnew f hf heq hreached => ?_⟩
  · exact translatedAlike_of_own (hpath hcurrent hnew) hown
  · rw [ownPath_of_plain _ _ hnew, ← hpublic f hf heq]
    exact ownField_publicField_of_fair (hfair.fair c.name) hf
  · refine h.reaches_of_plain hfair fun name f hf hplain => ?_
    rw [h.publicField_of_rename hc hm hf]
    split
    · exact hnew
    · exact hplain
  · have hbefore : (run child calls).ownPath c current = .ok f := by
      rw [ownPath_of_plain _ _ hcurrent, ← heq]
      exact ownField_publicField_of_fair (h.fair c.name) hf
    exact hnew (plain_of_ownPath (hsame.trans hbefore) hplain).1
  · rw [hfair.reaches_field_iff hf, hpublic f hf heq] at hreached
    exact hnew hreached

end

/-! ## A shelf of books -/

namespace Shelf

def books : CollectionSchema :=
  let sequel := Relation.manyToOne "books" "sequel_id" "id"
  (((CollectionSchema.empty.withField "id" (.column (.primaryKey (.ofType .number)))).withField "title"
    (.column (.ofType .string))).withField "sequel_id" (.column (.ofType .number))).withField "sequel"
      (.relation sequel)

def database : Database := ⟨Dict.empty.insert "books" books, ∅⟩

def collection : Collection Store := Memory.collection database "books" books

/-- The title of a book has another name already. -/
def headed : List Rename := [⟨"books", "title", "heading"⟩]

end Shelf

/-- The sequel of a book gets a new name, by which its title is still reached. -/
theorem follows_rename_shelf :
    (Memory.source Shelf.database).collection Shelf.collection.name = .ok Shelf.collection ∧
    ∃ m, (run (Memory.source Shelf.database) Shelf.headed).rename Shelf.collection.name "sequel" "next" = .ok m ∧
      m.ownPath Shelf.collection "next:heading" = .ok "sequel:title" ∧
      Follows (Memory.source Shelf.database) (run (Memory.source Shelf.database) Shelf.headed) m
        Shelf.collection "sequel" "next" := by
  have hm : (run (Memory.source Shelf.database) Shelf.headed).rename Shelf.collection.name "sequel" "next" =
      .ok _ := rfl
  exact ⟨rfl, _, hm, Outcome.eq_ok_of_toOption (by decide +kernel), follows_rename rfl Shelf.headed hm⟩

/-- A projection of `name:full` is not one of the title that was given this name. -/
theorem not_translatedAlike :
    ¬ ∀ (db : Database) (calls : List Rename) (c : Collection Store) (current new : String)
      (m : FieldNaming Store), (Memory.source db).collection c.name = .ok c →
        (run (Memory.source db) calls).rename c.name current new = .ok m →
          TranslatedAlike (run (Memory.source db) calls) m c current new := by
  intro h
  have halike := h Shelf.database [] Shelf.collection "title" "name:full" _ rfl rfl
  have hprojection := congrArg Except.toOption halike.projection
  revert hprojection
  decide +kernel

end QueryLayer.FieldNaming
