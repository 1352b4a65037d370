import QueryLayer.Proofs.Memory.Selection
import QueryLayer.Proofs.Query.Alike

/-! # Reads as evaluation

A read attaches what it needs and then looks at nothing but the attached records. Where the keys of relations
are columns, it can be evaluated on records with any further relations attached. Main statement:
`Memory.reads_along_more`.
-/
namespace QueryLayer.Memory

/-- What is attached for a filter, beside what the read itself goes through. -/
def needed (f : Filter) (extra : Projection) : Projection :=
  match f.condition with
  | some c => extra.union c.projection
  | none => extra

theorem mem_needed_of_extra {f : Filter} {extra : Projection} {field : String} (h : field ∈ extra.fields) :
    field ∈ (needed f extra).fields := by
  unfold needed
  cases f.condition with
  | none => exact h
  | some c => exact Projection.mem_union.2 (Or.inl h)

theorem mem_needed_of_leaf {f : Filter} {extra : Projection} {c : Condition} (hc : c ∈ f.condition) {l : Leaf}
    (hl : l ∈ c.leaves) : l.field ∈ (needed f extra).fields := by
  unfold needed
  rw [Option.mem_def.1 hc]
  exact Projection.mem_union.2 (Or.inr (Projection.mem_ofList.2 (List.mem_map_of_mem hl)))

/-- The records that a filter selects among those with their relations attached. -/
def selected (schema : CollectionSchema) (f : Filter) (records : List Record) : List Record :=
  match f.condition with
  | some c => c.select (searched schema f records)
  | none => searched schema f records

/-- A list, evaluated on records with their relations attached. -/
def listed (schema : CollectionSchema) (f : PaginatedFilter) (projection : Projection) (records : List Record) :
    List Record :=
  let sorted := f.sort.apply (selected schema f.toFilter records)
  let window := match f.page with
    | some page => page.apply sorted
    | none => sorted
  window.map projection.apply

/-- An aggregation, evaluated in the same way. -/
def aggregated (schema : CollectionSchema) (f : Filter) (aggregation : Aggregation) (limit : Option Nat)
    (records : List Record) : List AggregateRow :=
  aggregation.apply (selected schema f records) limit

variable {db : Database} {store : Store} {name : String} {schema : CollectionSchema}

theorem select_eq_selected (db : Database) (store : Store) (name : String) (schema : CollectionSchema)
    (f : Filter) (extra : Projection) : select db store name schema f extra =
      checkSegment name schema f >>= fun _ => db.hydrate store schema (store.rows name) (needed f extra) >>=
        fun records => .ok (selected schema f records) :=
  select_eq db store name schema f extra

theorem list_eq (db : Database) (store : Store) (name : String) (schema : CollectionSchema)
    (f : PaginatedFilter) (projection : Projection) : list db store name schema f projection =
      (db.scope name schema).checkPaginated f >>= fun _ => (db.scope name schema).checkProjection projection >>=
        fun _ => checkSegment name schema f.toFilter >>= fun _ =>
          db.hydrate store schema (store.rows name) (needed f.toFilter (projection.union f.sort.projection)) >>=
            fun records => .ok (listed schema f projection records) := by
  unfold list
  rw [select_eq_selected]
  simp only [bind_assoc]
  rfl

theorem aggregate_eq (db : Database) (store : Store) (name : String) (schema : CollectionSchema)
    (f : Filter) (aggregation : Aggregation) (limit : Option Nat) :
    aggregate db store name schema f aggregation limit =
      (db.scope name schema).checkFilter f >>= fun _ => (db.scope name schema).checkAggregation aggregation >>=
        fun _ => checkSegment name schema f >>= fun _ =>
          db.hydrate store schema (store.rows name) (needed f aggregation.projection) >>=
            fun records => .ok (aggregated schema f aggregation limit records) := by
  unfold aggregate
  rw [select_eq_selected]
  simp only [bind_assoc]
  rfl

/-! ## Records that a read cannot tell apart -/

/-- Records with the same columns that agree on what is read. -/
def Indistinct (schema : CollectionSchema) (p : Projection) (a b : Record) : Prop :=
  a.Agrees p b ∧ a.SameColumns schema b

theorem sameValue_of_mem {p : Projection} {f : String} (h : f ∈ p.fields) :
    SameValue (Indistinct schema p) f f :=
  fun _ _ hab => hab.1.value?_eq h

theorem selected_alike {f : Filter} {p : Projection}
    (hcondition : ∀ c ∈ f.condition, ∀ l ∈ c.leaves, l.field ∈ p.fields) {rows rows' : List Record}
    (hrows : List.Forall₂ (Indistinct schema p) rows rows') :
    List.Forall₂ (Indistinct schema p) (selected schema f rows) (selected schema f rows') := by
  have hfound : List.Forall₂ (Indistinct schema p) (searched schema f rows) (searched schema f rows') := by
    rw [searched_eq, searched_eq]
    exact Outcome.filter_alike hrows fun a b hab => finds_congr hab.2 f
  unfold selected
  cases hc : f.condition with
  | none => exact hfound
  | some c =>
    refine Outcome.filter_alike hfound fun a b hab => Condition.holds_congr fun l hl => ?_
    exact congrArg l.holdsFor (hab.1.value_eq (hcondition c hc l hl))

theorem listed_eq {f : PaginatedFilter} {projection p : Projection}
    (hcondition : ∀ c ∈ f.condition, ∀ l ∈ c.leaves, l.field ∈ p.fields)
    (hsort : ∀ field ∈ f.sort.fields, field ∈ p.fields)
    (hprojection : ∀ field ∈ projection.fields, field ∈ p.fields) {rows rows' : List Record}
    (hrows : List.Forall₂ (Indistinct schema p) rows rows') :
    listed schema f projection rows = listed schema f projection rows' := by
  have hclauses : List.Forall₂ (fun c d : SortClause => c.ascending = d.ascending ∧
      SameValue (Indistinct schema p) c.field d.field) f.sort.clauses f.sort.clauses :=
    List.forall₂_same.2 fun c hc => ⟨rfl, sameValue_of_mem (hsort c.field (List.mem_map_of_mem hc))⟩
  have hsorted := Sorting.apply_alike hclauses (selected_alike hcondition hrows)
  have hshown : ∀ {window window' : List Record}, List.Forall₂ (Indistinct schema p) window window' →
      window.map projection.apply = window'.map projection.apply := by
    intro window window' hwindow
    rw [← List.forall₂_eq_eq_eq, List.forall₂_map_left_iff, List.forall₂_map_right_iff]
    exact hwindow.imp fun a b hab => (hab.1.mono hprojection).apply_eq
  unfold listed
  cases f.page with
  | none => exact hshown hsorted
  | some page => exact hshown (Page.apply_alike hsorted page)

theorem groupOf_eq {a : Aggregation} {p : Projection} (hgroups : ∀ g ∈ a.groups, g.field ∈ p.fields)
    {r r' : Record} (h : Indistinct schema p r r') : a.groupOf r = a.groupOf r' := by
  unfold Aggregation.groupOf
  refine List.foldl_ext _ _ _ fun out g hg => ?_
  rw [h.1.value_eq (hgroups g hg)]

theorem aggregated_eq {f : Filter} {a : Aggregation} {p : Projection}
    (hcondition : ∀ c ∈ f.condition, ∀ l ∈ c.leaves, l.field ∈ p.fields)
    (hfields : ∀ field ∈ a.projection.fields, field ∈ p.fields) {rows rows' : List Record}
    (hrows : List.Forall₂ (Indistinct schema p) rows rows') (limit : Option Nat) :
    aggregated schema f a limit rows = aggregated schema f a limit rows' := by
  have hread : ∀ field ∈ a.field.toList ++ a.groups.map AggregationGroup.field, field ∈ p.fields :=
    fun field hfield => hfields field (Projection.mem_ofList.2 hfield)
  have hgroups : ∀ g ∈ a.groups, g.field ∈ p.fields :=
    fun g hg => hread g.field (List.mem_append_right _ (List.mem_map_of_mem hg))
  have hfield : Option.Rel (SameValue (Indistinct schema p)) a.field a.field := by
    cases hfield : a.field with
    | none => exact .none
    | some f => exact .some (sameValue_of_mem (hread f (List.mem_append_left _ (by simp [hfield]))))
  have halike := Aggregation.apply_alike (S := Eq) (a := a) (b := a)
    (fun hk hl => by rw [hk, hl]) (fun r r' h => groupOf_eq hgroups h)
    (fun _ _ h => Aggregation.compute_alike rfl hfield h) (selected_alike hcondition hrows) limit
  unfold aggregated
  rw [← List.forall₂_eq_eq_eq]
  refine halike.imp fun x y hxy => ?_
  obtain ⟨value, group⟩ := x
  obtain ⟨value', group'⟩ := y
  obtain ⟨rfl, rfl⟩ := hxy
  rfl

/-! ## More relations than are needed -/

theorem reads_needed {f : Filter} {extra : Projection} (hcheck : (db.scope name schema).checkFilter f = .ok ())
    (hextra : (db.scope name schema).Reads extra) : (db.scope name schema).Reads (needed f extra) := by
  unfold needed
  cases hc : f.condition with
  | none => exact hextra
  | some c => exact hextra.union (reads_of_checkFilter hcheck hc)

theorem reads_needed_of_list {f : PaginatedFilter} {projection : Projection}
    (hfilter : (db.scope name schema).checkPaginated f = .ok ())
    (hprojection : (db.scope name schema).checkProjection projection = .ok ()) :
    (db.scope name schema).Reads (needed f.toFilter (projection.union f.sort.projection)) := by
  obtain ⟨hcheck, hsort⟩ := Outcome.seq_eq_ok_iff.1 hfilter
  refine reads_needed hcheck ((Scope.reads_of_checkProjection hprojection).union ?_)
  exact Scope.reads_of_checkFields hsort

/-- The rows of a collection with what a filter and a read need attached, and any with more. -/
theorem exists_indistinct (hkeys : db.KeyedByColumns) (hs : db.schemas.get? name = some schema)
    {p : Projection} (hp : (db.scope name schema).Reads p) (rows : List Record) :
    ∃ base, db.hydrate store schema rows p = .ok base ∧
      ∀ more records, p.Within more → db.hydrate store schema rows more = .ok records →
        List.Forall₂ (Indistinct schema p) records base := by
  obtain ⟨g, hg, hattached⟩ := Database.exists_attached_rows hkeys hs hp rows
  refine ⟨rows.map g, hg, fun more records hwithin hrecords => ?_⟩
  obtain ⟨g', rfl, hattached'⟩ := Database.exists_attached (hkeys.isSome_localKey hs) hrecords
  rw [List.forall₂_map_left_iff, List.forall₂_map_right_iff, List.forall₂_same]
  intro row _
  have hagrees := Database.agrees_of_attached hkeys hs hp hwithin hrecords (hattached row) (hattached' row)
  refine ⟨hagrees.symm, fun f hf => ?_⟩
  rw [(hattached' row).get?_of_column hf, (hattached row).get?_of_column hf]

/-- A read answers what it is evaluated to on the rows with no more than it needs attached, and on rows with
more attached it is evaluated to the same. -/
def Evaluated (db : Database) (store : Store) (name : String) (schema : CollectionSchema) (along : Projection)
    {α : Type} (evaluate : List Record → α) (outcome : Except Error α × Store) : Prop :=
  ∃ base, db.hydrate store schema (store.rows name) along = .ok base ∧ outcome = (.ok (evaluate base), store) ∧
    ∀ more records, along.Within more → db.hydrate store schema (store.rows name) more = .ok records →
      evaluate records = evaluate base

theorem evaluated_of_reads (hkeys : db.KeyedByColumns) (hs : db.schemas.get? name = some schema)
    {along : Projection} (hreads : (db.scope name schema).Reads along) {α : Type} {evaluate : List Record → α}
    {outcome : Except Error α × Store}
    (houtcome : ∀ base, db.hydrate store schema (store.rows name) along = .ok base →
      outcome = (.ok (evaluate base), store))
    (hindistinct : ∀ rows rows', List.Forall₂ (Indistinct schema along) rows rows' →
      evaluate rows = evaluate rows') :
    Evaluated db store name schema along evaluate outcome := by
  obtain ⟨base, hbase, hmore⟩ := exists_indistinct hkeys hs hreads (store.rows name)
  refine ⟨base, hbase, houtcome base hbase, fun more records hwithin hrecords => ?_⟩
  exact hindistinct _ _ (hmore more records hwithin hrecords)

/-- What a valid list or aggregation answers does not depend on how much more is attached. -/
theorem reads_along_more (hkeys : db.KeyedByColumns) (hs : db.schemas.get? name = some schema) (store : Store)
    (caller : Caller) :
    (∀ (filter : PaginatedFilter) (projection : Projection),
      (db.scope name schema).checkPaginated filter = .ok () →
      (db.scope name schema).checkProjection projection = .ok () →
      checkSegment name schema filter.toFilter = .ok () →
      Evaluated db store name schema (needed filter.toFilter (projection.union filter.sort.projection))
        (listed schema filter projection)
        (((collection db name schema).list caller filter projection).runOn store)) ∧
    ∀ (filter : Filter) (aggregation : Aggregation) (limit : Option Nat),
      (db.scope name schema).checkFilter filter = .ok () →
      (db.scope name schema).checkAggregation aggregation = .ok () →
      checkSegment name schema filter = .ok () →
      Evaluated db store name schema (needed filter aggregation.projection)
        (aggregated schema filter aggregation limit)
        (((collection db name schema).aggregate caller filter aggregation limit).runOn store) := by
  constructor
  · intro filter projection hfilter hprojection hsegment
    have hreads := reads_needed_of_list hfilter hprojection
    refine evaluated_of_reads hkeys hs hreads (fun base hbase => ?_) fun rows rows' hrows => ?_
    · refine (Action.runOn_reading _ _).trans (congrArg (·, store) ?_)
      rw [list_eq, hfilter, hprojection, hsegment, hbase]
      rfl
    · refine listed_eq (fun c hc l hl => mem_needed_of_leaf hc hl) (fun field hfield => ?_)
        (fun field hfield => ?_) hrows
      · exact mem_needed_of_extra (Projection.mem_union.2 (Or.inr (Projection.mem_ofList.2 hfield)))
      · exact mem_needed_of_extra (Projection.mem_union.2 (Or.inl hfield))
  · intro filter aggregation limit hcheck haggregation hsegment
    have hreads := reads_needed hcheck (Scope.reads_of_checkAggregation haggregation)
    refine evaluated_of_reads hkeys hs hreads (fun base hbase => ?_) fun rows rows' hrows => ?_
    · refine (Action.runOn_reading _ _).trans (congrArg (·, store) ?_)
      rw [aggregate_eq, hcheck, haggregation, hsegment, hbase]
      rfl
    · exact aggregated_eq (fun c hc l hl => mem_needed_of_leaf hc hl)
        (fun field hfield => mem_needed_of_extra hfield) hrows limit

/-- The copies of books are attached for nothing. -/
theorem reads_along_more_copies :
    let db := Shelf.database "author_id"
    let store := Shelf.stocked "author_id"
    let schema := Shelf.books "author_id"
    let f : PaginatedFilter := .ofCondition (.leaf ⟨"author:id", .equal, .int 7⟩)
    let a : Aggregation := ⟨.count, none, [⟨"author:id", none⟩]⟩
    let more : Projection := .ofList ["id", "author:id", "copy:id"]
    ∃ records, db.hydrate store schema (store.rows "books") more = .ok records ∧
      listed schema f (.ofList ["id"]) records = [[("id", .int 3)]] ∧
      aggregated schema f.toFilter a none records = [⟨.int 1, [("author:id", .int 7)]⟩] := by
  intro db store schema f a more
  have hkeys : db.KeyedByColumns := by decide +kernel
  have hs : db.schemas.get? "books" = some schema := rfl
  have hfilter : (db.scope "books" schema).checkPaginated f = .ok () := by decide +kernel
  have hprojection : (db.scope "books" schema).checkProjection (.ofList ["id"]) = .ok () := by decide +kernel
  have haggregation : (db.scope "books" schema).checkAggregation a = .ok () := by decide +kernel
  have hcheck := (Outcome.seq_eq_ok_iff.1 hfilter).1
  obtain ⟨hlist, haggregate⟩ := reads_along_more hkeys hs store default
  obtain ⟨base, -, hlisted, hmore⟩ := hlist f _ hfilter hprojection rfl
  obtain ⟨base', -, haggregated, hmore'⟩ := haggregate f.toFilter a none hcheck haggregation rfl
  have hpaths : (db.scope "books" schema).checkFields ["id", "author:id", "copy:id"] = .ok () := by
    decide +kernel
  obtain ⟨records, hrecords⟩ : ∃ records, db.hydrate store schema (store.rows "books") more = .ok records :=
    Database.exists_hydrate_of_reads (Scope.reads_of_checkFields hpaths) _
  have hlist : (((collection db "books" schema).list default f (.ofList ["id"])).runOn store).1 =
      .ok [[("id", .int 3)]] := by decide +kernel
  have haggregate : (((collection db "books" schema).aggregate default f.toFilter a none).runOn store).1 =
      .ok [⟨.int 1, [("author:id", .int 7)]⟩] := by decide +kernel
  rw [hlisted] at hlist
  rw [haggregated] at haggregate
  refine ⟨records, hrecords, ?_, ?_⟩
  · rw [hmore more records (Projection.within_of_subset (by decide +kernel)) hrecords]
    exact Except.ok.inj hlist
  · rw [hmore' more records (Projection.within_of_subset (by decide +kernel)) hrecords]
    exact Except.ok.inj haggregate

end QueryLayer.Memory
