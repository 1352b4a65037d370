import QueryLayer.Proofs.Emulation.Native
import QueryLayer.Proofs.Emulation.Replacement
import QueryLayer.Proofs.Memory.Keeping
import QueryLayer.Proofs.Typing.Nesting

/-! # Refined filters are accepted by the source

Whatever replaces a leaf passes the check of the source if the leaf, or what replaced it, passed that of the
emulation: `acceptanceRules`. So the source refuses no filter that an emulation hands down, at any depth of
relations and after any chain of replacements.
-/
namespace QueryLayer.Emulation

variable {db : Database} {e : Emulation Store} {decorated : Unit → Source Store} {caller : Caller}

/-- A collection of the source. -/
def Member (db : Database) (c : Collection Store) : Prop :=
  ∃ name schema, db.schemas.get? name = some schema ∧ c = Memory.collection db name schema

/-- The source accepts the replacement if the emulation accepts the leaf or the replacement. -/
def Accepts (e : Emulation Store) (c : Collection Store) (l : Leaf) (t : Condition) : Prop :=
  (e.scope c).checkLeaf l = .ok () ∨ (e.scope c).checkCondition t = .ok () →
    c.toScope.checkCondition t = .ok ()

theorem catalog_eq_some (h : e.child = Memory.source db) {name : String} {schema : CollectionSchema}
    (hs : db.schemas.get? name = some schema) :
    e.catalog name = some (e.schema (Memory.collection db name schema)) := by
  unfold catalog
  rw [h, Memory.collection?_source, hs]
  rfl

/-- The emulation accepts a path through a relation where it accepts the rest in the foreign collection. -/
theorem checkLeaf_nest_iff (h : e.child = Memory.source db) {name : String} {schema : CollectionSchema}
    {first : String} (hplain : Path.Plain first) {l : Leaf} :
    (e.scope (Memory.collection db name schema)).checkLeaf (l.nest first) = .ok () ↔
      ∃ r foreign, schema.relation? first = some r ∧ r.kind.isToOne = true ∧
        db.schemas.get? r.foreignCollection = some foreign ∧
        (e.scope (Memory.collection db r.foreignCollection foreign)).checkLeaf l = .ok () := by
  have hrelation : (e.scope (Memory.collection db name schema)).schema.relation? first =
      schema.relation? first := e.relation?_schema (Memory.collection db name schema) first
  rw [Scope.checkLeaf_nest_iff hplain, hrelation]
  refine exists_congr fun r => ?_
  constructor
  · rintro ⟨foreign', hr, hone, hcatalog, hl⟩
    change (e.child.collection? r.foreignCollection).map e.schema = some foreign' at hcatalog
    rw [h, Memory.collection?_source, Option.map_map] at hcatalog
    obtain ⟨foreign, hforeign, rfl⟩ := Option.map_eq_some_iff.1 hcatalog
    exact ⟨foreign, hr, hone, hforeign, hl⟩
  · rintro ⟨foreign, hr, hone, hforeign, hl⟩
    exact ⟨_, hr, hone, catalog_eq_some h hforeign, hl⟩

theorem accepts_nest (h : e.child = Memory.source db) (name : String) {schema : CollectionSchema}
    {first : String} (hplain : Path.Plain first) {r : Relation} (hr : schema.relation? first = some r)
    {foreign : CollectionSchema} (hforeign : db.schemas.get? r.foreignCollection = some foreign)
    {l : Leaf} {t : Condition}
    (ht : e.Accepts (Memory.collection db r.foreignCollection foreign) l t) :
    e.Accepts (Memory.collection db name schema) (l.nest first) (t.nest first) := by
  have hpath : ∀ m : Leaf,
      (e.scope (Memory.collection db name schema)).checkLeaf (m.nest first) = .ok () →
        r.kind.isToOne = true ∧
          (e.scope (Memory.collection db r.foreignCollection foreign)).checkLeaf m = .ok () := by
    intro m hm
    obtain ⟨r', foreign', hr', hone, hforeign', hm⟩ := (checkLeaf_nest_iff h hplain).1 hm
    rw [hr] at hr'
    cases hr'
    rw [hforeign] at hforeign'
    cases hforeign'
    exact ⟨hone, hm⟩
  have hdecorated : (e.scope (Memory.collection db name schema)).schema.relation? first = some r := by
    change (e.schema (Memory.collection db name schema)).relation? first = some r
    rw [relation?_schema]
    exact hr
  rintro (hl | hcheck)
  · obtain ⟨hone, hl⟩ := hpath l hl
    exact (Scope.checkCondition_nest_iff hplain hr hone hforeign).2 (ht (Or.inl hl))
  · obtain ⟨m, others, hleaves⟩ := List.exists_cons_of_ne_nil (Scope.leaves_ne_nil_of_check hcheck)
    have hm := Scope.checkLeaf_of_mem_leaves hcheck (hleaves ▸ List.mem_cons_self)
    rw [Condition.leaves_nest] at hleaves
    obtain ⟨m', _, rfl⟩ := List.mem_map.1 (hleaves ▸ List.mem_cons_self : m ∈ t.leaves.map _)
    have hone := (hpath m' hm).1
    have hcatalog := catalog_eq_some h hforeign
    have hinner := (Scope.checkCondition_nest_iff hplain hdecorated hone hcatalog).1 hcheck
    exact (Scope.checkCondition_nest_iff hplain hr hone hforeign).2 (ht (Or.inr hinner))

theorem accepts_of_native {name : String} {schema : CollectionSchema} {l : Leaf}
    (hsplit : Path.split? l.field = none) (hfind : e.registrations.find? name l.field l.operator = none) :
    e.Accepts (Memory.collection db name schema) l (.leaf l) :=
  fun hcheck => checkLeaf_of_native hsplit hfind (hcheck.elim id id)

theorem accepts_of_replaced {c : Collection Store} {l : Leaf} {condition t : Condition}
    (ht : condition.Replaced (e.Accepts c) t) (hok : (e.scope c).checkCondition t = .ok ()) :
    e.Accepts c l t :=
  fun _ => Scope.checkCondition_of_replaced ht (fun _ _ hlt => hlt) (Or.inr hok)

theorem accepts_of_matchRecords {store : Store} (hstore : Memory.Fitting db store) {name : String}
    {schema : CollectionSchema} (hs : db.schemas.get? name = some schema) (hkeys : schema.UsableKeys)
    {l : Leaf} {t : Condition} (ht : Condition.matchRecords schema ((store.rows name).filter l.holds) = .ok t) :
    e.Accepts (Memory.collection db name schema) l t :=
  fun _ => Condition.checkCondition_of_matchRecords hstore hs hkeys ht

theorem checkFilter_of_accepts {c : Collection Store} {f : Filter} {condition t : Condition}
    (hcondition : f.condition = some condition) (ht : condition.Replaced (e.Accepts c) t)
    (hcheck : (e.scope c).checkFilter f = .ok ()) :
    c.toScope.checkFilter { f with condition := some t } = .ok () := by
  unfold Scope.checkFilter at hcheck
  rw [hcondition] at hcheck
  exact Scope.checkCondition_of_replaced ht (fun _ _ hlt => hlt) (Or.inl hcheck)

/-- No way to answer for a leaf hands down what the source refuses. -/
theorem acceptanceRules (caller : Caller) (hreg : Registered db e) (hkeys : MatchableKeys db e)
    {I : Store → Prop}
    (hI : ∀ store, I store → Memory.Fitting db store)
    (hrules : ∀ name, ∀ r ∈ e.registrations.of name, ∀ v, (r.rule.equivalent decorated v).Keeps I) :
    e.LeafRules decorated caller I (fun _ => True) (fun _ c _ => Member db c) e.Accepts where
  relation := by
    rintro chain c l first rest r ⟨name, schema, hs, rfl⟩ hsplit hr
    refine Action.yields_ofExcept (fun c hc => ?_) fun _ _ => trivial
    rw [hreg.child_eq] at hc
    obtain ⟨foreign, hforeign, rfl⟩ := Memory.collection_source_eq_ok_iff.1 hc
    refine ⟨⟨_, _, hforeign, rfl⟩, fun t ht => ?_⟩
    rw [← Leaf.nest_of_split? hsplit]
    exact accepts_nest hreg.child_eq name (Path.plain_of_split? hsplit) hr hforeign ht
  stray := by
    rintro chain c l first rest ⟨name, schema, hs, rfl⟩ hsplit hr hcheck
    have hcheck : (e.scope (Memory.collection db name schema)).checkLeaf l = .ok () := hcheck.elim id id
    rw [← Leaf.nest_of_split? hsplit] at hcheck
    obtain ⟨r, _, hr', _⟩ := (checkLeaf_nest_iff hreg.child_eq (Path.plain_of_split? hsplit)).1 hcheck
    change schema.relation? first = none at hr
    rw [hr] at hr'
    cases hr'
  native := by
    rintro chain c l ⟨name, schema, hs, rfl⟩ hsplit hfind
    exact accepts_of_native hsplit hfind
  cycle := fun _ _ _ _ => trivial
  asked := by
    rintro chain c l r hc hsplit hfind
    have hkeeps := hrules c.name r (mem_of_find? hfind).1 l.value
    refine hkeeps.mono (fun answer _ condition _ => ?_) fun _ _ => trivial
    exact ⟨fun _ _ => hc, fun t ht => ⟨fun _ _ => trivial, accepts_of_replaced ht⟩⟩
  brute := by
    rintro chain c l r ⟨name, schema, hs, rfl⟩ hsplit hfind
    obtain ⟨husable, hcolumn⟩ := hreg.usable hkeys hs hfind
    rw [bruteForce_eq caller husable (Path.plain_of_split?_eq_none hsplit) hcolumn]
    refine Action.yields_reading (fun store t hstore ht => ?_) fun _ _ _ _ => trivial
    exact accepts_of_matchRecords (hI store hstore) hs husable ht

theorem refine_yields_accepted (hreg : Registered db e) (hkeys : MatchableKeys db e) {I : Store → Prop}
    (hI : ∀ store, I store → Memory.Fitting db store)
    (hrules : ∀ name, ∀ r ∈ e.registrations.of name, ∀ v, (r.rule.equivalent decorated v).Keeps I)
    {name : String} {schema : CollectionSchema} (hs : db.schemas.get? name = some schema) (f : Filter) :
    (e.refine decorated caller (Memory.collection db name schema) f).Yields I
      (fun g => (db.scope name schema).checkFilter g = .ok ()) fun _ => True := by
  have hrefine := (acceptanceRules caller hreg hkeys hI hrules).refine_yields (f := f)
    (c := Memory.collection db name schema) (fun _ _ _ _ _ => ⟨name, schema, hs, rfl⟩) fun _ _ => trivial
  refine hrefine.mono (fun g hg => ?_) fun _ _ => trivial
  obtain ⟨hcheck, ⟨hnone, rfl⟩ | ⟨condition, t, hcondition, ht, rfl⟩⟩ := hg
  · unfold Scope.checkFilter
    rw [hnone]
  · exact checkFilter_of_accepts hcondition ht hcheck

/-! ## Replacers that query the emulation -/

/-- The rule keeps the invariant if the source that it queries does. -/
def Respects (I : Store → Prop) (rule : EmulationRule Store) : Prop :=
  ∀ s : Source Store, s.Keeps I → ∀ v, (rule.equivalent (fun _ => s) v).Keeps I

theorem collection_keeps {I : Store → Prop} {c : Collection Store} (hc : c.Keeps I)
    (hrefine : ∀ caller f, (e.refine decorated caller c f).Keeps I) :
    (e.collection decorated c).Keeps I where
  list caller filter projection := (hrefine caller filter.toFilter).bind fun _ => hc.list _ _ _
  create := hc.create
  update caller filter patch := (hrefine caller filter).bind fun _ => hc.update _ _ _
  delete caller filter := (hrefine caller filter).bind fun _ => hc.delete _ _
  aggregate caller filter aggregation limit := (hrefine caller filter).bind fun _ => hc.aggregate _ _ _ _
  execute caller action values filter := (hrefine caller filter).bind fun _ => hc.execute _ _ _ _
  getForm caller action values filter := by
    have hfilter : (filter.mapM (e.refine decorated caller c)).Keeps I := by
      cases filter with
      | none => exact Action.keeps_pure none
      | some f => exact (hrefine caller f).bind fun g => Action.keeps_pure (some g)
    exact hfilter.bind fun _ => hc.getForm _ _ _ _

theorem exists_of_mem_members {s : Source Store} {c : Collection Store} (h : c ∈ s.members.values) :
    c ∈ s.collections := by
  obtain ⟨d, hd, rfl⟩ := List.mem_map.1 h
  have hmem := Entries.mem_of_mem_ofList hd
  obtain ⟨c, hc, rfl⟩ := List.mem_map.1 hmem
  exact hc

/-- The source keeps stores reachable, however deep replacers query it from within each other. -/
theorem nested_keeps_reachable (hreg : Registered db e) (hkeys : MatchableKeys db e)
    (hrules : ∀ name, ∀ r ∈ e.registrations.of name, Respects (Memory.Reachable db) r.rule) (depth : Nat) :
    (e.nested depth).Keeps (Memory.Reachable db) := by
  induction depth with
  | zero => exact Source.keeps_empty _
  | succ depth ih =>
    constructor
    · intro c hc
      obtain ⟨child, hchild, rfl⟩ := List.mem_map.1 hc
      have hmem := exists_of_mem_members hchild
      rw [hreg.child_eq] at hmem
      obtain ⟨d, hd, rfl⟩ := List.mem_map.1 hmem
      have hs := Dict.get?_eq_some_iff.2 hd
      refine collection_keeps (Memory.collection_keeps_reachable hs) fun caller f => ?_
      exact (refine_yields_accepted hreg hkeys (fun _ => Memory.Reachable.fitting)
        (fun name r hr v => hrules name r hr _ ih v) hs f).keeps
    · intro caller name
      change (e.child.renderChart caller name).Keeps _
      rw [hreg.child_eq]
      exact (Memory.source_keeps_reachable db).renderChart caller name

/-- A filter that an emulation hands down to a memory source is one that the source accepts, whatever its
rules answer and whatever else goes on in the source meanwhile. -/
theorem refine_accepted (hreg : Registered db e) (hkeys : MatchableKeys db e)
    (hrules : ∀ name, ∀ r ∈ e.registrations.of name, Respects (Memory.Reachable db) r.rule)
    {name : String} {schema : CollectionSchema} (hs : db.schemas.get? name = some schema) (depth : Nat)
    (caller : Caller) (f : Filter) :
    (e.refine (fun _ => e.nested depth) caller (Memory.collection db name schema) f).Yields
      (Memory.Reachable db) (fun g => (db.scope name schema).checkFilter g = .ok ()) fun _ => True :=
  refine_yields_accepted hreg hkeys (fun _ => Memory.Reachable.fitting)
    (fun name r hr v => hrules name r hr _ (nested_keeps_reachable hreg hkeys hrules depth) v) hs f

/-! ## A library -/

def numericId : Field := .column ((Column.ofType .number).withOperators [.equal, .oneOf]).primaryKey

def authors : CollectionSchema :=
  (CollectionSchema.empty.withField "id" numericId).withField "name" (.column (.ofType .string))

def books : CollectionSchema :=
  ((CollectionSchema.empty.withField "author" (.relation (.manyToOne "authors" "author_id" "id"))).withField
    "author_id" (.column (.ofType .number))).withField "id" numericId

/-- Books and their authors, whose names cannot be compared. -/
def library : Database := ⟨Dict.ofList [("authors", authors), ("books", books)], ∅⟩

/-- The library with operators on the names of authors. -/
def byName (rs : List (Registration (EmulationRule Store))) : Emulation Store :=
  ⟨Memory.source library, rs.foldl (fun all r => all.add "authors" r) ∅⟩

theorem registered_byName {rs : List (Registration (EmulationRule Store))} (h : ∀ r ∈ rs, r.field = "name") :
    Registered library (byName rs) := by
  induction rs using List.reverseRecOn with
  | nil => exact .none
  | append_singleton rs r ih =>
    have hrs := ih fun q hq => h q (List.mem_append_left _ hq)
    have hcollection : (byName rs).child.collection "authors" =
        .ok (Memory.collection library "authors" authors) := rfl
    have hcheck : checkRegistration (Memory.collection library "authors" authors) "name" = .ok () := rfl
    have hregister : (byName rs).register "authors" r.field r.operator r.rule = .ok (byName (rs ++ [r])) := by
      unfold register
      rw [hcollection, h r (by simp), Outcome.ok_bind, hcheck, ← h r (by simp)]
      unfold byName
      rw [List.foldl_append]
      rfl
    exact hrs.register hregister

theorem mem_of_mem_byName {rs : List (Registration (EmulationRule Store))} {name : String}
    {r : Registration (EmulationRule Store)} (h : r ∈ (byName rs).registrations.of name) : r ∈ rs := by
  unfold byName at h
  induction rs using List.reverseRecOn with
  | nil => cases h
  | append_singleton rs q ih =>
    rw [List.foldl_append, List.foldl_cons, List.foldl_nil, of_add] at h
    split at h
    · next hname =>
      subst hname
      rcases List.mem_cons.1 h with rfl | h
      · simp
      · exact List.mem_append_left _ (ih (List.mem_of_mem_filter h))
    · exact List.mem_append_left _ (ih h)

theorem matchableKeys_byName (rs : List (Registration (EmulationRule Store))) :
    MatchableKeys library (byName rs) := by
  have hkeys : ∀ d ∈ library.schemas.entries, ∀ pk ∈ d.2.primaryKeys, Path.Plain pk ∧
      (d.2.column? pk).all (fun c => c.columnType.operators.contains .oneOf) = true := by decide +kernel
  intro name schema hs _ pk hpk
  obtain ⟨hplain, hmembership⟩ := hkeys _ (Dict.get?_eq_some_iff.1 hs) pk hpk
  refine ⟨hplain, fun c hc => ?_⟩
  dsimp only at hmembership
  rw [hc] at hmembership
  exact hmembership

/-- `contains` by brute force, and `notContains` as its negation. -/
def contained : List (Registration (EmulationRule Store)) :=
  [⟨"name", .contains, .bruteForce⟩,
    ⟨"name", .notContains, .replace fun v _ => pure (some (.not (.leaf ⟨"name", .contains, v⟩)))⟩]

/-- Books by authors whose names lack a text. -/
def lacking (text : String) : Filter := .ofCondition (.leaf ⟨"author:name", .notContains, .text text⟩)

theorem refine_accepted_contained :
    ((byName contained).scope (Memory.collection library "books" books)).checkFilter (lacking "o") = .ok () ∧
    ((byName contained).refine (fun _ => (byName contained).nested 1) default
      (Memory.collection library "books" books) (lacking "o")).Yields (Memory.Reachable library)
        (fun g => (library.scope "books" books).checkFilter g = .ok ()) fun _ => True := by
  refine ⟨rfl, refine_accepted (registered_byName (by decide)) (matchableKeys_byName contained)
    (fun name r hr s _ v => ?_) rfl 1 default _⟩
  rcases List.mem_cons.1 (mem_of_mem_byName hr) with rfl | hr
  · exact Action.keeps_pure _
  · obtain rfl := List.mem_singleton.1 hr
    exact Action.keeps_pure _

/-- Two authors, a book by the first, and one that names none. -/
def stocking : List Memory.Call :=
  [.create default "authors"
      [[("id", .int 1), ("name", .text "Tove")], [("id", .int 2), ("name", .text "Ada")]],
    .create default "books" [[("author_id", .int 1), ("id", .int 1)], [("id", .int 2)]]]

def stocked : Store := Memory.run library stocking

theorem keyedStore_stocked : Memory.KeyedStore library stocked := by
  refine Memory.keyedStore_run_of_sparesKeys fun call hcall => ?_
  rcases List.mem_cons.1 hcall with rfl | hcall
  · trivial
  · obtain rfl := List.mem_singleton.1 hcall
    trivial

end QueryLayer.Emulation
