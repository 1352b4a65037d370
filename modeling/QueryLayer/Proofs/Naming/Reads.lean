import QueryLayer.Proofs.Memory.Asking
import QueryLayer.Proofs.Naming.Checks
import QueryLayer.Proofs.Naming.Hydration
import QueryLayer.Proofs.Query.Alike

/-! # Reading by public and by own names

Queries that are the same select records that relabel to each other, in one order. A list through a
naming returns what the direct database returns.
-/
namespace QueryLayer.FieldNaming

variable {n : FieldNaming Store} {db : Database} {store : Store} {name : String} {schema : CollectionSchema}
  {own shown : Record}

/-! ## Selection -/

theorem translates_of_replaced {c d : Condition} (h : Condition.Replaced (SameLeaf n db name schema) c d) :
    Translates n db name schema c.projection d.projection where
  forth g hg := by
    obtain ⟨l, hl, rfl⟩ := List.mem_map.1 (Projection.mem_ofList.1 hg)
    obtain ⟨t, ⟨f, hpath, rfl⟩, hleaves⟩ := h.exists_of_mem_leaves hl
    exact ⟨f, Projection.mem_ofList.2 (List.mem_map.2 ⟨_, hleaves _ List.mem_cons_self, rfl⟩), hpath⟩
  back f hf := by
    obtain ⟨m, hm, rfl⟩ := List.mem_map.1 (Projection.mem_ofList.1 hf)
    obtain ⟨l, t, hl, ⟨f, hpath, rfl⟩, hmem⟩ := h.mem_leaves hm
    obtain rfl := List.mem_singleton.1 hmem
    exact ⟨l.field, Projection.mem_ofList.2 (List.mem_map_of_mem hl), hpath⟩

theorem holds_eq (hn : n.Faithful db) (h : Relabels n db name schema own shown) {c d : Condition}
    (hc : Condition.Replaced (SameLeaf n db name schema) c d) : d.holds own = c.holds shown := by
  rw [Condition.holds_eq_truth shown]
  refine hc.holds_eq fun l t _ hl => ?_
  obtain ⟨f, hpath, rfl⟩ := hl
  exact congrArg l.holdsFor (h.value_eq hpath hn).symm

theorem found_eq (hn : n.Faithful db) (hs : db.schemas.get? name = some schema)
    (h : Relabels n db name schema own shown) (needle : String) :
    own.found schema needle = shown.found (n.view db name schema) needle := by
  unfold Record.found
  rw [Bool.eq_iff_iff, List.any_eq_true, List.any_eq_true]
  constructor
  · rintro ⟨⟨f, c⟩, he, hfound⟩
    have hc := CollectionSchema.mem_columns_iff.1 he
    refine ⟨(n.publicField name f, c), CollectionSchema.mem_columns_iff.2 (hn.column?_public hs hc), ?_⟩
    dsimp only at hfound ⊢
    rw [h.column_eq hc]
    exact hfound
  · rintro ⟨⟨g, c⟩, he, hfound⟩
    obtain ⟨f, hown, hc⟩ := (hn.column?_view hs).1 (CollectionSchema.mem_columns_iff.1 he)
    refine ⟨(f, c), CollectionSchema.mem_columns_iff.2 hc, ?_⟩
    obtain rfl := hn.publicField_of_ownField hown
    dsimp only at hfound ⊢
    rw [← h.column_eq hc]
    exact hfound

theorem searched_alike (hn : n.Faithful db) (hs : db.schemas.get? name = some schema) {g f : Filter}
    (hf : SameFilter n db name schema g f) {rows rows' : List Record}
    (hrows : List.Forall₂ (Relabels n db name schema) rows rows') :
    List.Forall₂ (Relabels n db name schema) (Memory.searched schema f rows)
      (Memory.searched (n.view db name schema) g rows') := by
  unfold Memory.searched
  rw [hf.search]
  cases g.search with
  | none => exact hrows
  | some search =>
    have hsearchable : (n.view db name schema).searchable = schema.searchable := rfl
    dsimp only
    rw [hsearchable]
    split
    · exact Outcome.filter_alike hrows fun a b hab => found_eq hn hs hab _
    · exact hrows

theorem select_alike (hn : n.Faithful db) (hkeys : db.KeyedByColumns) (hstore : Memory.Tidy db store)
    (hs : db.schemas.get? name = some schema) {g f : Filter} (hf : SameFilter n db name schema g f)
    {p q : Projection} (hp : Translates n db name schema p q) :
    Outcome.Alike (List.Forall₂ (Relabels n db name schema)) (Memory.select db store name schema f q)
      (Memory.select (n.direct db) (n.relabelStore store) name (n.view db name schema) g p) := by
  have hsegment : Memory.checkSegment name (n.view db name schema) g = Memory.checkSegment name schema f := by
    unfold Memory.checkSegment
    rw [hf.segment]
    rfl
  have hrows := forall₂_rows hn hstore hs
  rw [Memory.select_eq, Memory.select_eq, hsegment]
  refine (Outcome.Alike.refl _).bind fun _ _ _ => ?_
  unfold Memory.attached
  obtain ⟨hg, hf'⟩ | ⟨c, d, hg, hf', hc⟩ := hf.condition
  · rw [hg, hf']
    obtain ⟨out, out', hout, hout', halike⟩ := exists_hydrate_relabels hn hkeys hstore hs hp hrows
    dsimp only
    rw [hout, hout']
    exact .ok (searched_alike hn hs hf halike)
  · rw [hg, hf']
    obtain ⟨out, out', hout, hout', halike⟩ :=
      exists_hydrate_relabels hn hkeys hstore hs (hp.union (translates_of_replaced hc)) hrows
    dsimp only
    rw [hout, hout']
    exact .ok (Outcome.filter_alike (searched_alike hn hs hf halike) fun a b hab => holds_eq hn hab hc)

/-! ## Order -/

theorem SamePath.sameValue {g f : String} (h : SamePath n db name schema g f) (hn : n.Faithful db) :
    SameValue (Relabels n db name schema) f g :=
  fun _ _ hab => (hab.value?_eq h hn).symm

theorem sort_alike (hn : n.Faithful db) {s t : Sorting} (hsort : SameSorting n db name schema s t)
    {rows rows' : List Record} (hrows : List.Forall₂ (Relabels n db name schema) rows rows') :
    List.Forall₂ (Relabels n db name schema) (t.apply rows) (s.apply rows') :=
  Sorting.apply_alike ((List.Forall₂.flip hsort).imp fun _ _ h => ⟨h.1, h.2.sameValue hn⟩) hrows

theorem translates_of_sameSorting {s t : Sorting} (hsort : SameSorting n db name schema s t) :
    Translates n db name schema s.projection t.projection := by
  refine .ofList ?_
  unfold Sorting.fields
  rw [List.forall₂_map_left_iff, List.forall₂_map_right_iff]
  exact hsort.imp fun c d h => h.2

/-! ## Lists -/

/-- The same filter, order and window, by public and by own names. -/
structure SamePaginated (n : FieldNaming Store) (db : Database) (name : String) (schema : CollectionSchema)
    (g f : PaginatedFilter) : Prop where
  filter : SameFilter n db name schema g.toFilter f.toFilter
  sort : SameSorting n db name schema g.sort f.sort
  page : f.page = g.page

theorem ownPaginated_eq_ok_iff {c : Collection Store} {g f : PaginatedFilter} :
    n.ownPaginated c g = .ok f ↔
      n.ownSorting c g.sort = .ok f.sort ∧ n.ownFilter c g.toFilter = .ok f.toFilter ∧ f.page = g.page := by
  unfold ownPaginated
  rw [Outcome.bind_eq_ok_iff]
  constructor
  · rintro ⟨sort, hsort, h⟩
    obtain ⟨filter, hfilter, h⟩ := Outcome.bind_eq_ok_iff.1 h
    cases h
    exact ⟨hsort, hfilter, rfl⟩
  · rintro ⟨hsort, hfilter, hpage⟩
    refine ⟨_, hsort, Outcome.bind_eq_ok_iff.2 ⟨_, hfilter, ?_⟩⟩
    rw [← hpage]
    rfl

theorem checkPaginated_iff (hn : n.Faithful db) (hs : db.schemas.get? name = some schema)
    (g : PaginatedFilter) : (n.shownScope db name schema).checkPaginated g = .ok () ↔
      ∃ f, n.ownPaginated (Memory.collection db name schema) g = .ok f ∧
        (db.scope name schema).checkPaginated f = .ok () := by
  unfold Scope.checkPaginated
  rw [Outcome.seq_eq_ok_iff, checkFilter_iff hn hs, checkSorting_iff hn hs]
  simp only [ownPaginated_eq_ok_iff, Outcome.seq_eq_ok_iff]
  constructor
  · rintro ⟨⟨filter, hfilter, hpass⟩, sort, hsort, hpass'⟩
    exact ⟨{ filter with sort, page := g.page }, ⟨hsort, hfilter, rfl⟩, hpass, hpass'⟩
  · rintro ⟨f, ⟨hsort, hfilter, _⟩, hpass, hpass'⟩
    exact ⟨⟨_, hfilter, hpass⟩, _, hsort, hpass'⟩

theorem samePaginated_of_ownPaginated (hn : n.Faithful db) {g f : PaginatedFilter}
    (hf : n.ownPaginated (Memory.collection db name schema) g = .ok f)
    (hcheck : (db.scope name schema).checkPaginated f = .ok ()) : SamePaginated n db name schema g f := by
  obtain ⟨hsort, hfilter, hpage⟩ := ownPaginated_eq_ok_iff.1 hf
  obtain ⟨hpass, hpass'⟩ := Outcome.seq_eq_ok_iff.1 hcheck
  exact ⟨sameFilter_of_ownFilter hn hfilter hpass, sameSorting_of_ownSorting hn hsort hpass', hpage⟩

theorem mapM_publicRecord (hn : n.Faithful db) (hs : db.schemas.get? name = some schema)
    {rows rows' : List Record} (hrows : List.Forall₂ (Relabels n db name schema) rows rows') :
    rows.mapM (n.publicRecord (Memory.collection db name schema)) = .ok rows' :=
  Outcome.mapM_eq_ok_iff.2 (hrows.imp fun _ _ hab => hab.publicRecord_eq hn hs)

/-- A list through the naming, and the same list of the direct database. -/
theorem list_alike (hn : n.Faithful db) (hkeys : db.KeyedByColumns) (hstore : Memory.Tidy db store)
    (hs : db.schemas.get? name = some schema) (filter : PaginatedFilter) (projection : Projection) :
    Outcome.Alike Eq
      (do
        let f ← n.ownPaginated (Memory.collection db name schema) filter
        let q ← n.ownProjection (Memory.collection db name schema) projection
        let records ← Memory.list db store name schema f q
        records.mapM (n.publicRecord (Memory.collection db name schema)))
      (Memory.list (n.direct db) (n.relabelStore store) name (n.view db name schema) filter projection) := by
  unfold Memory.list
  simp only [bind_assoc]
  refine .of_translated₂ (checkPaginated_iff hn hs filter) (checkProjection_iff hn hs projection)
    fun f q hf hpass hq hpass' => ?_
  have hsame := samePaginated_of_ownPaginated hn hf hpass
  have hp := translates_of_ownProjection hn hq hpass'
  refine (select_alike hn hkeys hstore hs hsame.filter
    (hp.union (translates_of_sameSorting hsame.sort))).bind fun rows rows' hrows => ?_
  have hsorted := sort_alike hn hsame.sort hrows
  have hreturned : ∀ {window window' : List Record},
      List.Forall₂ (Relabels n db name schema) window window' →
      Outcome.Alike Eq ((window.map q.apply).mapM (n.publicRecord (Memory.collection db name schema)))
        (.ok (window'.map projection.apply)) := by
    intro window window' hwindow
    rw [mapM_publicRecord hn hs]
    · exact .ok rfl
    · rw [List.forall₂_map_left_iff, List.forall₂_map_right_iff]
      exact hwindow.imp fun _ _ hab => hab.apply hn hs hp
  rw [hsame.page]
  cases filter.page with
  | none => exact hreturned hsorted
  | some page => exact hreturned (Page.apply_alike hsorted page)

end QueryLayer.FieldNaming
