import QueryLayer.Proofs.Alike
import QueryLayer.Proofs.Naming.Projections
import QueryLayer.Proofs.Query.Condition

/-! # Queries by public and by own names

The direct database accepts a query exactly when its translation succeeds and the source accepts what it
comes to. What a query is translated to then is the same query, with the own path to the same column in
the place of every public path.
-/
namespace QueryLayer

namespace Outcome

variable {ε α β : Type}

theorem exists_forall₂ {R : α → β → Prop} {xs : List α} (h : ∀ x ∈ xs, ∃ y, R x y) :
    ∃ ys, List.Forall₂ R xs ys := by
  induction xs with
  | nil => exact ⟨[], .nil⟩
  | cons x xs ih =>
    obtain ⟨y, hy⟩ := h x List.mem_cons_self
    obtain ⟨ys, hys⟩ := ih fun z hz => h z (List.mem_cons_of_mem _ hz)
    exact ⟨y :: ys, .cons hy hys⟩

/-- A translation that may fail, with a check of what it comes to. -/
theorem forM_translated_iff {xs : List α} {check : α → Except ε Unit} {translate : α → Except ε β}
    {check' : β → Except ε Unit}
    (h : ∀ x, check x = .ok () ↔ ∃ y, translate x = .ok y ∧ check' y = .ok ()) :
    xs.forM check = .ok () ↔ ∃ ys, xs.mapM translate = .ok ys ∧ ys.forM check' = .ok () := by
  rw [forM_eq_ok_iff]
  constructor
  · intro hxs
    obtain ⟨ys, hys⟩ := exists_forall₂ fun x hx => (h x).1 (hxs x hx)
    refine ⟨ys, mapM_eq_ok_iff.2 (hys.imp fun x y hxy => hxy.1), forM_eq_ok_iff.2 fun y hy => ?_⟩
    obtain ⟨x, _, _, hpass⟩ := exists_of_mem_right hys hy
    exact hpass
  · rintro ⟨ys, hys, hpass⟩ x hx
    obtain ⟨y, hy, hxy⟩ := exists_of_mem_left (mapM_eq_ok_iff.1 hys) hx
    exact (h x).2 ⟨y, hxy, forM_eq_ok_iff.1 hpass y hy⟩

end Outcome

namespace Condition

theorem replaceLeavesOfM_eq (f : Leaf → Except Error Condition) (cs : List Condition) :
    replaceLeavesOfM f cs = cs.mapM (replaceLeavesM f) := by
  induction cs with
  | nil => rfl
  | cons c cs ih =>
    rw [replaceLeavesOfM, ih, List.mapM_cons]

/-- Leaves replaced one after the other are leaves replaced. -/
theorem replaceLeavesM_eq_ok_iff {f : Leaf → Except Error Condition} {c d : Condition} :
    c.replaceLeavesM f = .ok d ↔ Replaced (fun l t => f l = .ok t) c d := by
  induction c using Condition.induct generalizing d with
  | hleaf l =>
    constructor
    · exact fun h => .leaf h
    · intro h
      cases h with
      | leaf h => exact h
  | hnot c ih =>
    rw [replaceLeavesM, Outcome.bind_eq_ok_iff]
    constructor
    · rintro ⟨e, he, h⟩
      cases h
      exact .not (ih.1 he)
    · intro h
      cases h with
      | not h => exact ⟨_, ih.2 h, rfl⟩
  | hbranch a cs ih =>
    rw [replaceLeavesM, replaceLeavesOfM_eq, Outcome.bind_eq_ok_iff]
    constructor
    · rintro ⟨ds, hds, h⟩
      cases h
      have hall := Outcome.mapM_eq_ok_iff.1 hds
      exact .branch (Outcome.forall₂_imp_of_mem hall fun c hc _ _ hcd => (ih c hc).1 hcd)
    · intro h
      cases h with
      | branch h =>
        have hall := Outcome.forall₂_imp_of_mem h fun c hc _ _ hcd => (ih c hc).2 hcd
        exact ⟨_, Outcome.mapM_eq_ok_iff.2 hall, rfl⟩

end Condition

namespace FieldNaming

variable {n : FieldNaming Store} {db : Database} {name : String} {schema : CollectionSchema}

/-- A collection of the direct database, as checks see it. -/
abbrev shownScope (n : FieldNaming Store) (db : Database) (name : String) (schema : CollectionSchema) : Scope :=
  (n.direct db).scope name (n.view db name schema)

theorem column_iff_ownPath (hn : n.Faithful db) (hs : db.schemas.get? name = some schema) {g : String}
    {c : Column} : (n.shownScope db name schema).column g = .ok c ↔
      ∃ f, n.ownPath (Memory.collection db name schema) g = .ok f ∧ (db.scope name schema).column f = .ok c := by
  rw [column_direct_iff hn hs]
  exact exists_congr fun f => leads_iff_ownPath hn

theorem samePath_of_ownPath (hn : n.Faithful db) {g f : String} {c : Column}
    (hf : n.ownPath (Memory.collection db name schema) g = .ok f)
    (hc : (db.scope name schema).column f = .ok c) : SamePath n db name schema g f :=
  ⟨c, (leads_iff_ownPath hn).2 ⟨hf, hc⟩⟩

/-! ## Lists of paths -/

section

variable {α : Type} {get : α → String} {translate : α → Except Error α}

/-- Things with a path in them, whose paths are translated. -/
theorem checkFields_iff (hn : n.Faithful db) (hs : db.schemas.get? name = some schema)
    (htranslate : ∀ x f, n.ownPath (Memory.collection db name schema) (get x) = .ok f ↔
      ∃ y, translate x = .ok y ∧ get y = f) (xs : List α) :
    (n.shownScope db name schema).checkFields (xs.map get) = .ok () ↔
      ∃ ys, xs.mapM translate = .ok ys ∧ (db.scope name schema).checkFields (ys.map get) = .ok () := by
  have hcheck : ∀ (s : Scope) (zs : List α), s.checkFields (zs.map get) = .ok () ↔
      (zs.forM fun z => do let _ ← s.column (get z)) = .ok () := by
    intro s zs
    unfold Scope.checkFields
    rw [Outcome.forM_eq_ok_iff, Outcome.forM_eq_ok_iff, List.forall_mem_map]
  have hstep : ∀ (s : Scope) (f : String),
      (do let _ ← s.column f) = Except.ok () ↔ ∃ c, s.column f = .ok c := by
    intro s f
    rw [Outcome.bind_eq_ok_iff]
    exact exists_congr fun c => and_iff_left rfl
  simp only [hcheck]
  refine Outcome.forM_translated_iff fun x => ?_
  simp only [hstep]
  constructor
  · rintro ⟨c, hc⟩
    obtain ⟨f, hf, hc⟩ := (column_iff_ownPath hn hs).1 hc
    obtain ⟨y, hy, rfl⟩ := (htranslate x f).1 hf
    exact ⟨y, hy, c, hc⟩
  · rintro ⟨y, hy, c, hc⟩
    exact ⟨c, (column_iff_ownPath hn hs).2 ⟨get y, (htranslate x _).2 ⟨y, hy, rfl⟩, hc⟩⟩

theorem samePaths_of_checked (hn : n.Faithful db)
    (htranslate : ∀ x f, n.ownPath (Memory.collection db name schema) (get x) = .ok f ↔
      ∃ y, translate x = .ok y ∧ get y = f) {xs ys : List α} (hys : xs.mapM translate = .ok ys)
    (hcheck : (db.scope name schema).checkFields (ys.map get) = .ok ()) :
    List.Forall₂ (fun x y => translate x = .ok y ∧ SamePath n db name schema (get x) (get y)) xs ys := by
  refine Outcome.forall₂_imp_of_mem (Outcome.mapM_eq_ok_iff.1 hys) fun x _ y hy hxy => ?_
  obtain ⟨c, hc⟩ := Scope.checkFields_eq_ok_iff.1 hcheck (get y) (List.mem_map_of_mem hy)
  exact ⟨hxy, samePath_of_ownPath hn ((htranslate x _).2 ⟨y, hxy, rfl⟩) hc⟩

end

/-! ## Projections -/

theorem checkProjection_iff (hn : n.Faithful db) (hs : db.schemas.get? name = some schema) (p : Projection) :
    (n.shownScope db name schema).checkProjection p = .ok () ↔
      ∃ q, n.ownProjection (Memory.collection db name schema) p = .ok q ∧
        (db.scope name schema).checkProjection q = .ok () := by
  have hall : ∀ (s : Scope) (fields : List String), s.checkFields (Projection.ofList fields).fields = .ok () ↔
      s.checkFields fields = .ok () := by
    intro s fields
    simp only [Scope.checkFields_eq_ok_iff, Projection.mem_ofList]
  have hfields : (n.shownScope db name schema).checkFields (p.fields.map id) = .ok () ↔
      ∃ fs, p.fields.mapM (n.ownPath (Memory.collection db name schema)) = .ok fs ∧
        (db.scope name schema).checkFields (fs.map id) = .ok () :=
    checkFields_iff hn hs (fun x f => by simp) p.fields
  rw [List.map_id] at hfields
  unfold Scope.checkProjection ownProjection
  rw [hfields]
  constructor
  · rintro ⟨fs, hfs, hcheck⟩
    rw [List.map_id] at hcheck
    exact ⟨_, Outcome.bind_eq_ok_iff.2 ⟨fs, hfs, rfl⟩, (hall _ fs).2 hcheck⟩
  · rintro ⟨q, hq, hcheck⟩
    obtain ⟨fs, hfs, hq⟩ := Outcome.bind_eq_ok_iff.1 hq
    cases hq
    exact ⟨fs, hfs, by rw [List.map_id]; exact (hall _ fs).1 hcheck⟩

theorem translates_of_ownProjection (hn : n.Faithful db) {p q : Projection}
    (hq : n.ownProjection (Memory.collection db name schema) p = .ok q)
    (hcheck : (db.scope name schema).checkProjection q = .ok ()) : Translates n db name schema p q := by
  unfold ownProjection at hq
  obtain ⟨fs, hfs, hq⟩ := Outcome.bind_eq_ok_iff.1 hq
  cases hq
  have hall : List.Forall₂ (SamePath n db name schema) p.fields fs := by
    refine Outcome.forall₂_imp_of_mem (Outcome.mapM_eq_ok_iff.1 hfs) fun g _ f hf hgf => ?_
    obtain ⟨c, hc, _⟩ := Outcome.bind_eq_ok_iff.1 (Outcome.forM_eq_ok_iff.1 hcheck f
      (Projection.mem_ofList.2 hf))
    exact samePath_of_ownPath hn hgf hc
  rw [← Projection.ofList_fields p]
  exact .ofList hall

/-! ## Sort clauses -/

/-- The same order, by public and by own names. -/
def SameSorting (n : FieldNaming Store) (db : Database) (name : String) (schema : CollectionSchema)
    (s t : Sorting) : Prop :=
  List.Forall₂ (fun c d => d.ascending = c.ascending ∧ SamePath n db name schema c.field d.field)
    s.clauses t.clauses

theorem clause_translated (c : SortClause) (f : String) :
    n.ownPath (Memory.collection db name schema) c.field = .ok f ↔
      ∃ d, (do pure { c with field := ← n.ownPath (Memory.collection db name schema) c.field } :
        Except Error SortClause) = .ok d ∧ d.field = f :=
  Outcome.eq_ok_iff_map fun _ => rfl

theorem checkSorting_iff (hn : n.Faithful db) (hs : db.schemas.get? name = some schema) (sort : Sorting) :
    (n.shownScope db name schema).checkFields sort.fields = .ok () ↔
      ∃ t, n.ownSorting (Memory.collection db name schema) sort = .ok t ∧
        (db.scope name schema).checkFields t.fields = .ok () := by
  unfold Sorting.fields
  rw [checkFields_iff hn hs clause_translated sort.clauses]
  unfold ownSorting
  constructor
  · rintro ⟨clauses, hclauses, hcheck⟩
    exact ⟨⟨clauses⟩, Outcome.bind_eq_ok_iff.2 ⟨clauses, hclauses, rfl⟩, hcheck⟩
  · rintro ⟨t, ht, hcheck⟩
    obtain ⟨clauses, hclauses, ht⟩ := Outcome.bind_eq_ok_iff.1 ht
    cases ht
    exact ⟨clauses, hclauses, hcheck⟩

theorem sameSorting_of_ownSorting (hn : n.Faithful db) {sort t : Sorting}
    (ht : n.ownSorting (Memory.collection db name schema) sort = .ok t)
    (hcheck : (db.scope name schema).checkFields t.fields = .ok ()) : SameSorting n db name schema sort t := by
  unfold ownSorting at ht
  obtain ⟨clauses, hclauses, ht⟩ := Outcome.bind_eq_ok_iff.1 ht
  cases ht
  refine (samePaths_of_checked hn clause_translated hclauses hcheck).imp fun c d h => ?_
  obtain ⟨f, _, hd⟩ := Outcome.bind_eq_ok_iff.1 h.1
  cases hd
  exact ⟨rfl, h.2⟩

/-! ## Conditions -/

/-- A leaf on the same column. -/
def SameLeaf (n : FieldNaming Store) (db : Database) (name : String) (schema : CollectionSchema) (l : Leaf)
    (c : Condition) : Prop :=
  ∃ f, SamePath n db name schema l.field f ∧ c = .leaf { l with field := f }

theorem ownLeaf_eq_ok_iff {c : Collection Store} {l : Leaf} {d : Condition} :
    (do pure (.leaf { l with field := ← n.ownPath c l.field }) : Except Error Condition) = .ok d ↔
      ∃ f, n.ownPath c l.field = .ok f ∧ d = .leaf { l with field := f } := by
  rw [Outcome.bind_eq_ok_iff]
  refine exists_congr fun f => and_congr_right fun _ => ?_
  constructor
  · intro h
    cases h
    rfl
  · rintro rfl
    rfl

theorem checkLeaf_iff (hn : n.Faithful db) (hs : db.schemas.get? name = some schema) (l : Leaf) :
    (n.shownScope db name schema).checkLeaf l = .ok () ↔
      ∃ f, n.ownPath (Memory.collection db name schema) l.field = .ok f ∧
        (db.scope name schema).checkLeaf { l with field := f } = .ok () := by
  simp only [Scope.checkLeaf_eq_ok_iff]
  constructor
  · rintro ⟨c, hc, hadmits⟩
    obtain ⟨f, hf, hc⟩ := (column_iff_ownPath hn hs).1 hc
    exact ⟨f, hf, c, hc, hadmits⟩
  · rintro ⟨f, hf, c, hc, hadmits⟩
    exact ⟨c, (column_iff_ownPath hn hs).2 ⟨f, hf, hc⟩, hadmits⟩

theorem checkCondition_iff (hn : n.Faithful db) (hs : db.schemas.get? name = some schema) (c : Condition) :
    (n.shownScope db name schema).checkCondition c = .ok () ↔
      ∃ d, n.ownCondition (Memory.collection db name schema) c = .ok d ∧
        (db.scope name schema).checkCondition d = .ok () := by
  unfold ownCondition
  simp only [Condition.replaceLeavesM_eq_ok_iff, ownLeaf_eq_ok_iff]
  constructor
  · intro hcheck
    induction c using Condition.induct with
    | hleaf l =>
      obtain ⟨f, hf, hleaf⟩ := (checkLeaf_iff hn hs l).1 hcheck
      exact ⟨_, .leaf ⟨f, hf, rfl⟩, hleaf⟩
    | hnot c ih =>
      obtain ⟨d, hd, hpass⟩ := ih hcheck
      exact ⟨_, .not hd, hpass⟩
    | hbranch a cs ih =>
      obtain ⟨hlength, hcs⟩ := Scope.checkCondition_branch_eq_ok_iff.1 hcheck
      obtain ⟨ds, hds⟩ := Outcome.exists_forall₂ fun c hc => ih c hc (hcs c hc)
      refine ⟨_, .branch (hds.imp fun c d h => h.1), Scope.checkCondition_branch_eq_ok_iff.2 ⟨?_, ?_⟩⟩
      · rw [← hds.length_eq]
        exact hlength
      · intro d hd
        obtain ⟨_, _, _, hpass⟩ := Outcome.exists_of_mem_right hds hd
        exact hpass
  · rintro ⟨d, hd, hpass⟩
    revert hpass
    refine hd.induct (motive := fun c d => (db.scope name schema).checkCondition d = .ok () →
      (n.shownScope db name schema).checkCondition c = .ok ()) (fun l t _ hl hpass => ?_)
      (fun c d ih hpass => ih hpass) fun a cs ds ih hpass => ?_
    · obtain ⟨f, hf, rfl⟩ := hl
      exact (checkLeaf_iff hn hs l).2 ⟨f, hf, hpass⟩
    · obtain ⟨hlength, hds⟩ := Scope.checkCondition_branch_eq_ok_iff.1 hpass
      refine Scope.checkCondition_branch_eq_ok_iff.2 ⟨?_, fun c hc => ?_⟩
      · rw [ih.length_eq]
        exact hlength
      · obtain ⟨d, hd, hcd⟩ := Outcome.exists_of_mem_left ih hc
        exact hcd (hds d hd)

theorem replaced_of_ownCondition (hn : n.Faithful db) {c d : Condition}
    (hd : n.ownCondition (Memory.collection db name schema) c = .ok d)
    (hcheck : (db.scope name schema).checkCondition d = .ok ()) :
    Condition.Replaced (SameLeaf n db name schema) c d := by
  unfold ownCondition at hd
  simp only [Condition.replaceLeavesM_eq_ok_iff, ownLeaf_eq_ok_iff] at hd
  revert hcheck
  refine hd.induct (motive := fun c d => (db.scope name schema).checkCondition d = .ok () →
    Condition.Replaced (SameLeaf n db name schema) c d) (fun l t _ hl hpass => ?_)
    (fun c d ih hpass => .not (ih hpass)) fun a cs ds ih hpass => .branch ?_
  · obtain ⟨f, hf, rfl⟩ := hl
    obtain ⟨c, hc, _⟩ := Scope.checkLeaf_eq_ok_iff.1 hpass
    exact .leaf ⟨f, samePath_of_ownPath hn hf hc, rfl⟩
  · have hds := (Scope.checkCondition_branch_eq_ok_iff.1 hpass).2
    exact Outcome.forall₂_imp_of_mem ih fun _ _ d hd hcd => hcd (hds d hd)

/-! ## Filters -/

/-- The same filter, by public and by own names. -/
structure SameFilter (n : FieldNaming Store) (db : Database) (name : String) (schema : CollectionSchema)
    (g f : Filter) : Prop where
  search : f.search = g.search
  segment : f.segment = g.segment
  condition : (g.condition = none ∧ f.condition = none) ∨
    ∃ c d, g.condition = some c ∧ f.condition = some d ∧ Condition.Replaced (SameLeaf n db name schema) c d

theorem checkFilter_iff (hn : n.Faithful db) (hs : db.schemas.get? name = some schema) (g : Filter) :
    (n.shownScope db name schema).checkFilter g = .ok () ↔
      ∃ f, n.ownFilter (Memory.collection db name schema) g = .ok f ∧
        (db.scope name schema).checkFilter f = .ok () := by
  obtain ⟨condition, search, extended, segment⟩ := g
  unfold Scope.checkFilter ownFilter
  cases condition with
  | none => exact ⟨fun _ => ⟨_, rfl, rfl⟩, fun _ => rfl⟩
  | some c =>
    dsimp only
    rw [checkCondition_iff hn hs c]
    constructor
    · rintro ⟨d, hd, hpass⟩
      exact ⟨_, Outcome.bind_eq_ok_iff.2 ⟨d, hd, rfl⟩, hpass⟩
    · rintro ⟨f, hf, hpass⟩
      obtain ⟨d, hd, hf⟩ := Outcome.bind_eq_ok_iff.1 hf
      cases hf
      exact ⟨d, hd, hpass⟩

theorem sameFilter_of_ownFilter (hn : n.Faithful db) {g f : Filter}
    (hf : n.ownFilter (Memory.collection db name schema) g = .ok f)
    (hcheck : (db.scope name schema).checkFilter f = .ok ()) : SameFilter n db name schema g f := by
  obtain ⟨condition, search, extended, segment⟩ := g
  unfold ownFilter at hf
  cases condition with
  | none =>
    cases hf
    exact ⟨rfl, rfl, Or.inl ⟨rfl, rfl⟩⟩
  | some c =>
    obtain ⟨d, hd, hf⟩ := Outcome.bind_eq_ok_iff.1 hf
    cases hf
    exact ⟨rfl, rfl, Or.inr ⟨c, d, rfl, rfl, replaced_of_ownCondition hn hd hcheck⟩⟩

/-! ## Aggregations -/

/-- The same aggregation, by public and by own names. -/
structure SameAggregation (n : FieldNaming Store) (db : Database) (name : String)
    (schema : CollectionSchema) (b a : Aggregation) : Prop where
  function : a.function = b.function
  field : (b.field = none ∧ a.field = none) ∨
    ∃ g f, b.field = some g ∧ a.field = some f ∧ SamePath n db name schema g f
  groups : List.Forall₂ (fun g f => f.unit = g.unit ∧ SamePath n db name schema g.field f.field)
    b.groups a.groups

theorem group_translated (g : AggregationGroup) (f : String) :
    n.ownPath (Memory.collection db name schema) g.field = .ok f ↔
      ∃ d, (do pure { g with field := ← n.ownPath (Memory.collection db name schema) g.field } :
        Except Error AggregationGroup) = .ok d ∧ d.field = f :=
  Outcome.eq_ok_iff_map fun _ => rfl

theorem checkAggregation_iff (hn : n.Faithful db) (hs : db.schemas.get? name = some schema)
    (b : Aggregation) : (n.shownScope db name schema).checkAggregation b = .ok () ↔
      ∃ a, n.ownAggregation (Memory.collection db name schema) b = .ok a ∧
        (db.scope name schema).checkAggregation a = .ok () := by
  obtain ⟨function, field, groups⟩ := b
  have hgroups := checkFields_iff hn hs group_translated groups
  unfold ownAggregation
  cases field with
  | none =>
    rw [Scope.checkAggregation_none, hgroups]
    constructor
    · rintro ⟨hcount, gs, hgs, hpass⟩
      exact ⟨⟨function, none, gs⟩, Outcome.bind_eq_ok_iff.2 ⟨none, rfl, Outcome.bind_eq_ok_iff.2 ⟨gs, hgs, rfl⟩⟩,
        Scope.checkAggregation_none.2 ⟨hcount, hpass⟩⟩
    · rintro ⟨a, ha, hpass⟩
      obtain ⟨_, hfield, ha⟩ := Outcome.bind_eq_ok_iff.1 ha
      cases hfield
      obtain ⟨gs, hgs, ha⟩ := Outcome.bind_eq_ok_iff.1 ha
      cases ha
      obtain ⟨hcount, hpass⟩ := Scope.checkAggregation_none.1 hpass
      exact ⟨hcount, gs, hgs, hpass⟩
  | some g =>
    rw [Scope.checkAggregation_some, hgroups]
    constructor
    · rintro ⟨⟨c, hc, hnumber⟩, gs, hgs, hpass⟩
      obtain ⟨f, hf, hc⟩ := (column_iff_ownPath hn hs).1 hc
      refine ⟨⟨function, some f, gs⟩, Outcome.bind_eq_ok_iff.2 ⟨some f, ?_, ?_⟩,
        Scope.checkAggregation_some.2 ⟨⟨c, hc, hnumber⟩, hpass⟩⟩
      · exact Outcome.bind_eq_ok_iff.2 ⟨f, hf, rfl⟩
      · exact Outcome.bind_eq_ok_iff.2 ⟨gs, hgs, rfl⟩
    · rintro ⟨a, ha, hpass⟩
      obtain ⟨_, hfield, ha⟩ := Outcome.bind_eq_ok_iff.1 ha
      obtain ⟨f, hf, hfield⟩ := Outcome.bind_eq_ok_iff.1 hfield
      cases hfield
      obtain ⟨gs, hgs, ha⟩ := Outcome.bind_eq_ok_iff.1 ha
      cases ha
      obtain ⟨⟨c, hc, hnumber⟩, hpass⟩ := Scope.checkAggregation_some.1 hpass
      exact ⟨⟨c, (column_iff_ownPath hn hs).2 ⟨f, hf, hc⟩, hnumber⟩, gs, hgs, hpass⟩

theorem sameAggregation_of_ownAggregation (hn : n.Faithful db) {b a : Aggregation}
    (ha : n.ownAggregation (Memory.collection db name schema) b = .ok a)
    (hcheck : (db.scope name schema).checkAggregation a = .ok ()) :
    SameAggregation n db name schema b a := by
  obtain ⟨function, field, groups⟩ := b
  unfold ownAggregation at ha
  obtain ⟨field', hfield, ha⟩ := Outcome.bind_eq_ok_iff.1 ha
  obtain ⟨gs, hgs, ha⟩ := Outcome.bind_eq_ok_iff.1 ha
  cases ha
  have hpaths : (db.scope name schema).checkFields (gs.map AggregationGroup.field) = .ok () →
      List.Forall₂ (fun g f => f.unit = g.unit ∧ SamePath n db name schema g.field f.field) groups gs := by
    intro hpass
    refine (samePaths_of_checked hn group_translated hgs hpass).imp fun g f h => ?_
    obtain ⟨_, _, hf⟩ := Outcome.bind_eq_ok_iff.1 h.1
    cases hf
    exact ⟨rfl, h.2⟩
  cases field with
  | none =>
    cases hfield
    exact ⟨rfl, Or.inl ⟨rfl, rfl⟩, hpaths (Scope.checkAggregation_none.1 hcheck).2⟩
  | some g =>
    obtain ⟨f, hf, hfield⟩ := Outcome.bind_eq_ok_iff.1 hfield
    cases hfield
    obtain ⟨⟨c, hc, _⟩, hpass⟩ := Scope.checkAggregation_some.1 hcheck
    exact ⟨rfl, Or.inr ⟨g, f, rfl, rfl, samePath_of_ownPath hn hf hc⟩, hpaths hpass⟩

end FieldNaming

end QueryLayer
