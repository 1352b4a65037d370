import QueryLayer.Proofs.Emulation.Acceptance

/-! # Filters through relations

Behind a relation, brute force gives a condition on the ids of foreign records, which no record without a
foreign record satisfies. The leaf may hold for such a record, as it compares null then: an emulation
overlooks these records, and only these.
-/
namespace QueryLayer

namespace Record

/-- Every hop but the last one leads to a nested record. -/
def leads (record : Record) : List String → Bool
  | hop :: second :: rest =>
    match record.nested? hop with
    | some nested => leads nested (second :: rest)
    | none => false
  | _ => true

theorem leads_singleton (record : Record) (hop : String) : record.leads [hop] = true := rfl

theorem leads_cons (record : Record) (hop : String) {rest : List String} (h : rest ≠ []) :
    record.leads (hop :: rest) = match record.nested? hop with
      | some nested => leads nested rest
      | none => false := by
  obtain ⟨second, others, rfl⟩ := List.exists_cons_of_ne_nil h
  rfl

/-- There is no value where a path does not lead. -/
theorem valueAt?_of_not_leads {record : Record} {hops : List String} (h : record.leads hops = false) :
    record.valueAt? hops = none := by
  induction hops generalizing record with
  | nil => cases h
  | cons hop rest ih =>
    cases rest with
    | nil => cases h
    | cons second others =>
      rw [leads] at h
      rw [valueAt?_cons (List.cons_ne_nil second others)]
      cases hnested : record.nested? hop with
      | none => rfl
      | some nested =>
        rw [hnested] at h
        exact ih h

end Record

namespace Emulation

/-- Whether the operator is registered for the column that the hops lead to. -/
def emulates (e : Emulation Store) (operator : Operator) : List String → Collection Store → Bool
  | [], _ => false
  | [field], c => (e.registrations.find? c.name field operator).isSome
  | hop :: second :: rest, c =>
    match c.schema.relation? hop with
    | some r =>
      match e.child.collection? r.foreignCollection with
      | some foreign => emulates e operator (second :: rest) foreign
      | none => false
    | none => false

/-- The operator is emulated, and the record has no foreign record where the leaf would hold for null. -/
def overlooks (e : Emulation Store) (c : Collection Store) (l : Leaf) (record : Record) : Bool :=
  e.emulates l.operator (Path.hops l.field) c && !record.leads (Path.hops l.field) && l.holdsFor .null

/-- Whether a record satisfies a leaf according to the emulation. -/
def judges (e : Emulation Store) (c : Collection Store) (record : Record) (l : Leaf) : Bool :=
  l.holds record && !e.overlooks c l record

section

variable {e : Emulation Store} {c : Collection Store} {l : Leaf}

theorem emulates_of_split? {first rest : String} (hsplit : Path.split? l.field = some (first, rest))
    {r : Relation} (hr : c.schema.relation? first = some r) {foreign : Collection Store}
    (hforeign : e.child.collection? r.foreignCollection = some foreign) :
    e.emulates l.operator (Path.hops l.field) c = e.emulates l.operator (Path.hops rest) foreign := by
  rw [Path.split?_eq_some_iff.1 hsplit]
  obtain ⟨second, others, hhops⟩ := List.exists_cons_of_ne_nil (Path.hops_ne_nil rest)
  rw [hhops, emulates, hr]
  dsimp only
  rw [hforeign]

theorem emulates_of_plain (hplain : Path.Plain l.field) : e.emulates l.operator (Path.hops l.field) c =
    (e.registrations.find? c.name l.field l.operator).isSome := by
  rw [Path.hops_of_plain hplain, emulates]

theorem judges_of_plain (hplain : Path.Plain l.field) (record : Record) :
    e.judges c record l = l.holds record := by
  unfold judges overlooks
  rw [Path.hops_of_plain hplain, Record.leads_singleton]
  simp

/-- Behind a relation, a leaf is judged by the nested record, or for null where there is none. -/
theorem judges_of_split? {first rest : String} (hsplit : Path.split? l.field = some (first, rest))
    {r : Relation} (hr : c.schema.relation? first = some r) {foreign : Collection Store}
    (hforeign : e.child.collection? r.foreignCollection = some foreign) (record : Record) :
    e.judges c record l = match record.nested? first with
      | some nested => e.judges foreign nested { l with field := rest }
      | none => l.holdsFor .null && !e.emulates l.operator (Path.hops l.field) c := by
  have hholds : l.holds record = Leaf.holds { l with field := rest } (record.nested first) := by
    rw [← Leaf.holds_nest (Path.plain_of_split? hsplit)]
    unfold Leaf.nest
    rw [← Path.eq_under_of_split? hsplit]
  have hleads := Record.leads_cons record first (Path.hops_ne_nil rest)
  rw [← Path.split?_eq_some_iff.1 hsplit] at hleads
  unfold judges overlooks
  rw [hholds, hleads]
  unfold Record.nested
  cases record.nested? first with
  | some nested =>
    rw [emulates_of_split? hsplit hr hforeign]
    rfl
  | none =>
    dsimp only [Option.getD_none]
    rw [Leaf.holds_nil]
    change (l.holdsFor .null && _) = _
    cases l.holdsFor .null <;> simp

/-- A replacement holds as the emulation judges the leaf, and goes through the same relations. -/
structure Answers (e : Emulation Store) (db : Database) (store : Store) (c : Collection Store) (l : Leaf)
    (t : Condition) : Prop where
  leaves_ne_nil : t.leaves ≠ []
  hops_eq : ∀ m ∈ t.leaves, (Path.hops m.field).dropLast = (Path.hops l.field).dropLast
  holds_eq : ∀ record, Memory.Shows db store c.name c.schema record → t.holds record = e.judges c record l
  holds_nil : t.holds [] = (l.holdsFor .null && !e.emulates l.operator (Path.hops l.field) c)

end

section

variable {db : Database} {e : Emulation Store} {store : Store} {name : String} {schema : CollectionSchema}

theorem answers_of_native {c : Collection Store} {l : Leaf} (hplain : Path.Plain l.field)
    (hfind : e.registrations.find? c.name l.field l.operator = none) : e.Answers db store c l (.leaf l) where
  leaves_ne_nil := by simp
  hops_eq m hm := by
    obtain rfl := List.mem_singleton.1 hm
    rfl
  holds_eq record _ := (judges_of_plain hplain record).symm
  holds_nil := by
    rw [emulates_of_plain hplain, hfind, Condition.holds, Leaf.holds_nil]
    simp

theorem answers_of_nest {c foreign : Collection Store} {l : Leaf} {first rest : String}
    (hsplit : Path.split? l.field = some (first, rest)) {r : Relation}
    (hr : c.schema.relation? first = some r) (hs : db.schemas.get? r.foreignCollection = some foreign.schema)
    (hname : foreign.name = r.foreignCollection)
    (hforeign : e.child.collection? r.foreignCollection = some foreign) {t : Condition}
    (ht : e.Answers db store foreign { l with field := rest } t) : e.Answers db store c l (t.nest first) := by
  have hplain := Path.plain_of_split? hsplit
  have hemulates := emulates_of_split? hsplit hr hforeign
  refine ⟨?_, fun m hm => ?_, fun record hshows => ?_, ?_⟩
  · rw [Condition.leaves_nest, Ne, List.map_eq_nil_iff]
    exact ht.leaves_ne_nil
  · rw [Condition.leaves_nest] at hm
    obtain ⟨m', hm', rfl⟩ := List.mem_map.1 hm
    have hrest := ht.hops_eq m' hm'
    rw [Path.eq_under_of_split? hsplit, Path.dropLast_hops_under hplain, ← hrest]
    exact Path.dropLast_hops_under hplain m'.field
  · rw [Condition.holds_nest hplain, judges_of_split? hsplit hr hforeign]
    unfold Record.nested
    cases hnested : record.nested? first with
    | some nested =>
      refine ht.holds_eq nested ?_
      cases hshows with
      | intro row _ _ hforeigns =>
        rw [hname]
        exact hforeigns first r foreign.schema nested hr hs (Record.get?_of_nested? hnested)
    | none =>
      dsimp only [Option.getD_none]
      rw [ht.holds_nil, hemulates]
      rfl
  · rw [Condition.holds_nest hplain, Record.nested_nil, ht.holds_nil, hemulates]
    rfl

theorem answers_of_matchRecords (hkeyed : Memory.Keyed schema (store.rows name)) (hkeys : schema.UsableKeys)
    {l : Leaf} (hplain : Path.Plain l.field) (hcolumn : (schema.column? l.field).isSome)
    {r : Registration (EmulationRule Store)} (hfind : e.registrations.find? name l.field l.operator = some r)
    {t : Condition} (hcheck : (db.scope name schema).checkCondition t = .ok ())
    (ht : Condition.matchRecords schema ((store.rows name).filter l.holds) = .ok t) :
    e.Answers db store (Memory.collection db name schema) l t where
  leaves_ne_nil := Scope.leaves_ne_nil_of_check hcheck
  hops_eq m hm := by
    have hpk := hkeys.plain m.field (Condition.field_mem_primaryKeys hkeys ht hm)
    rw [Path.dropLast_hops_of_plain hpk, Path.dropLast_hops_of_plain hplain]
  holds_eq record hshows := by
    rw [judges_of_plain hplain]
    cases hshows with
    | intro row hrow hsame _ =>
      exact Condition.holds_of_matchRecords hkeyed hkeys hplain hcolumn ht hrow hsame
  holds_nil := by
    change e.registrations.find? (Memory.collection db name schema).name l.field l.operator = some r at hfind
    rw [Condition.holds_nil_of_matchRecords hkeys ht, emulates_of_plain hplain, hfind]
    simp

/-! ## What is selected -/

theorem sameHops_of_answers {c : Collection Store} {condition t : Condition}
    (ht : condition.Replaced (e.Answers db store c) t) : t.projection.SameHops condition.projection := by
  refine Projection.sameHops_of_dropLast (fun f hf => ?_) fun g hg => ?_
  · obtain ⟨m, hm, rfl⟩ := List.mem_map.1 (Projection.mem_ofList.1 hf)
    obtain ⟨l, t', hl, hanswers, hm⟩ := ht.mem_leaves hm
    exact ⟨l.field, Projection.mem_ofList.2 (List.mem_map_of_mem hl), hanswers.hops_eq m hm⟩
  · obtain ⟨l, hl, rfl⟩ := List.mem_map.1 (Projection.mem_ofList.1 hg)
    obtain ⟨t', hanswers, hleaves⟩ := ht.exists_of_mem_leaves hl
    obtain ⟨m, hm⟩ := List.exists_mem_of_ne_nil _ hanswers.leaves_ne_nil
    exact ⟨m.field, Projection.mem_ofList.2 (List.mem_map_of_mem (hleaves m hm)), hanswers.hops_eq m hm⟩

/-- Of every record that a request looks at, the emulation judges what the condition says. -/
def Agrees (e : Emulation Store) (db : Database) (store : Store) (name : String) (schema : CollectionSchema)
    (f : Filter) (extra : Projection) : Prop :=
  ∀ c, f.condition = some c → ∀ records, Memory.attached db store name schema f extra = .ok records →
    ∀ r ∈ Memory.searched schema f records,
      c.truth (e.judges (Memory.collection db name schema) r) = c.holds r

theorem holds_eq_judges (hstore : Memory.Fitting db store) (hs : db.schemas.get? name = some schema)
    {c t : Condition} (ht : c.Replaced (e.Answers db store (Memory.collection db name schema)) t) {f : Filter}
    {extra : Projection} {records : List Record}
    (hrecords : Memory.attached db store name schema f extra = .ok records) :
    ∀ r ∈ Memory.searched schema f records,
      t.holds r = c.truth (e.judges (Memory.collection db name schema) r) := by
  intro r hr
  have hshows := Memory.shows_of_hydrate hstore (fun r hr => .of_mem_rows hstore hs hr) hrecords r
    (Memory.mem_of_mem_searched hr)
  exact ht.holds_eq fun l t _ hanswers => hanswers.holds_eq r hshows

/-- A record that is overlooked satisfies the leaf. -/
theorem holds_of_overlooks {c : Collection Store} {l : Leaf} {record : Record}
    (h : e.overlooks c l record = true) : l.holds record = true := by
  unfold overlooks at h
  rw [Bool.and_eq_true, Bool.and_eq_true, Bool.not_eq_true'] at h
  obtain ⟨⟨_, hleads⟩, hnull⟩ := h
  have hvalue : record.value l.field = .null := by
    unfold Record.value Record.value?
    rw [Record.valueAt?_of_not_leads hleads]
    rfl
  unfold Leaf.holds
  rw [hvalue]
  exact hnull

theorem agrees_leaf_iff {f : Filter} {l : Leaf} (hl : f.condition = some (.leaf l)) (extra : Projection) :
    e.Agrees db store name schema f extra ↔
      ∀ records, Memory.attached db store name schema f extra = .ok records →
        ∀ r ∈ Memory.searched schema f records,
          e.overlooks (Memory.collection db name schema) l r = false := by
  have hjudges : ∀ r, e.judges (Memory.collection db name schema) r l = l.holds r ↔
      e.overlooks (Memory.collection db name schema) l r = false := by
    intro r
    unfold judges
    cases hoverlooks : e.overlooks (Memory.collection db name schema) l r with
    | false => simp
    | true => simp [holds_of_overlooks hoverlooks]
  constructor
  · intro h records hrecords r hr
    exact (hjudges r).1 (h _ hl records hrecords r hr)
  · intro h c hc records hrecords r hr
    rw [hl] at hc
    cases hc
    exact (hjudges r).2 (h records hrecords r hr)

/-- Records that are kept and listed alike are the same records, where what is listed tells them apart. -/
theorem holds_of_map_eq {records : List Record} {sort : Sorting} {p : Projection}
    (hinj : ∀ a ∈ records, ∀ b ∈ records, p.apply a = p.apply b → a = b) {c d : Condition}
    (h : (sort.apply (c.select records)).map p.apply = (sort.apply (d.select records)).map p.apply) :
    ∀ r ∈ records, c.holds r = true → d.holds r = true := by
  intro r hr hholds
  have hmem : p.apply r ∈ (sort.apply (c.select records)).map p.apply :=
    List.mem_map_of_mem (List.mem_mergeSort.2 (List.mem_filter.2 ⟨hr, hholds⟩))
  rw [h] at hmem
  obtain ⟨b, hb, heq⟩ := List.mem_map.1 hmem
  obtain ⟨hb, hholds⟩ := List.mem_filter.1 (List.mem_mergeSort.1 hb)
  rw [hinj r hr b hb heq.symm]
  exact hholds

/-- The keys of attached records tell them apart. -/
theorem eq_of_apply_eq (hkeyed : Memory.Keyed schema (store.rows name)) {p : Projection}
    (hplain : ∀ f ∈ p.fields, Path.Plain f) (hkeys : ∀ pk ∈ schema.primaryKeys, pk ∈ p.fields) {f : Filter}
    {extra : Projection} {records : List Record}
    (hrecords : Memory.attached db store name schema f extra = .ok records) :
    ∀ a ∈ records, ∀ b ∈ records, p.apply a = p.apply b → a = b := by
  obtain ⟨g, rfl, hg⟩ := Memory.exists_map_of_hydrate hrecords
  intro a ha b hb heq
  obtain ⟨row, hrow, rfl⟩ := List.mem_map.1 ha
  obtain ⟨row', hrow', rfl⟩ := List.mem_map.1 hb
  have hkey : (g row).key schema = (g row').key schema := by
    refine Record.key_congr fun pk hpk => ?_
    rw [← Projection.get?_apply_of_plain hplain _ (hkeys pk hpk), heq,
      Projection.get?_apply_of_plain hplain _ (hkeys pk hpk)]
  rw [(hg row).key_eq, (hg row').key_eq] at hkey
  have hsame : sameId (row.key schema) (row'.key schema) = true := by
    rw [hkey]
    exact sameId_self _
  rw [hkeyed.eq_of_sameId hrow hrow' hsame]

end

/-! ## Brute force on keyed rows -/

section

variable {db : Database} {e : Emulation Store} {store : Store} {name : String} {schema : CollectionSchema}
  (decorated : Unit → Source Store) (caller : Caller) (hreg : Registered db e) (hkeys : MatchableKeys db e)
  (hbrute : ∀ name, ∀ r ∈ e.registrations.of name, r.rule = .bruteForce)
  (hstore : Memory.Fitting db store) (hkeyed : Memory.KeyedStore db store)
include hreg hkeys hbrute hstore hkeyed

/-- Brute force alone never fails on keyed rows, and answers as it judges. -/
theorem relationRules (E : Error → Prop) :
    e.LeafRules decorated caller (· = store) E
      (fun chain c l => chain = [] ∧ Member db c ∧ (e.scope c).checkLeaf l = .ok ())
      (e.Answers db store) where
  relation := by
    rintro chain c l first rest r ⟨hchain, ⟨name, schema, hs, rfl⟩, hcheck⟩ hsplit hr
    rw [← Leaf.nest_of_split? hsplit] at hcheck
    obtain ⟨r', foreign, hr', _, hforeign, hl⟩ :=
      (checkLeaf_nest_iff hreg.child_eq (Path.plain_of_split? hsplit)).1 hcheck
    change schema.relation? first = some r at hr
    rw [hr] at hr'
    cases hr'
    have hmember : e.child.collection? r.foreignCollection =
        some (Memory.collection db r.foreignCollection foreign) := by
      rw [hreg.child_eq, Memory.collection?_source, hforeign]
      rfl
    unfold Source.collection
    rw [hmember]
    refine Action.yields_pure ⟨⟨hchain, ⟨_, _, hforeign, rfl⟩, hl⟩, fun t ht => ?_⟩
    exact answers_of_nest hsplit hr hforeign rfl hmember ht
  stray := by
    rintro chain c l first rest ⟨_, ⟨name, schema, hs, rfl⟩, hcheck⟩ hsplit hr
    rw [← Leaf.nest_of_split? hsplit] at hcheck
    obtain ⟨r, _, hr', _⟩ := (checkLeaf_nest_iff hreg.child_eq (Path.plain_of_split? hsplit)).1 hcheck
    change schema.relation? first = none at hr
    rw [hr] at hr'
    cases hr'
  native := fun hpre hsplit hfind => answers_of_native (Path.plain_of_split?_eq_none hsplit) hfind
  cycle := by
    rintro chain c l r ⟨rfl, _⟩ _ _ hcycle
    cases hcycle
  asked := by
    rintro chain c l r _ _ hfind
    rw [hbrute c.name r (mem_of_find? hfind).1]
    refine Action.yields_pure fun condition hcondition => ?_
    cases hcondition
  brute := by
    rintro chain c l r ⟨_, ⟨name, schema, hs, rfl⟩, _⟩ hsplit hfind
    obtain ⟨husable, hcolumn⟩ := hreg.usable hkeys hs hfind
    have hplain := Path.plain_of_split?_eq_none hsplit
    refine bruteForce_yields caller husable (hkeyed name schema hs) hplain hcolumn fun t ht => ?_
    exact answers_of_matchRecords (hkeyed name schema hs) husable hplain hcolumn hfind
      (Condition.checkCondition_of_matchRecords hstore hs husable ht) ht

theorem refine_yields_answers (hs : db.schemas.get? name = some schema) (f : Filter) :
    (e.refine decorated caller (Memory.collection db name schema) f).Yields (· = store)
      (fun g => (e.scope (Memory.collection db name schema)).checkFilter f = .ok () ∧
        (db.scope name schema).checkFilter g = .ok () ∧
        (f.condition = none ∧ g = f ∨
          ∃ c t, f.condition = some c ∧ c.Replaced (e.Answers db store (Memory.collection db name schema)) t ∧
            g = { f with condition := some t }))
      fun err => (e.scope (Memory.collection db name schema)).checkFilter f = .error err := by
  have hrules := relationRules decorated caller hreg hkeys hbrute hstore hkeyed
    fun err => (e.scope (Memory.collection db name schema)).checkFilter f = .error err
  have hanswers := hrules.refine_yields (f := f) (c := Memory.collection db name schema)
    (fun c _ hcheck l hl => ⟨rfl, ⟨name, schema, hs, rfl⟩, Scope.checkLeaf_of_mem_leaves hcheck hl⟩)
    fun _ herr => herr
  have hkeeps : ∀ name, ∀ r ∈ e.registrations.of name, ∀ v,
      (r.rule.equivalent decorated v).Keeps (· = store) := by
    intro name r hr v
    rw [hbrute name r hr]
    exact Action.keeps_pure none
  have haccepted : (e.refine decorated caller (Memory.collection db name schema) f).Yields (· = store)
      (fun g => (db.scope name schema).checkFilter g = .ok ()) fun _ => True :=
    refine_yields_accepted hreg hkeys (by rintro _ rfl; exact hstore) hkeeps hs f
  refine (hanswers.and haccepted).mono (fun g hg => ?_) fun err herr => herr.1
  exact ⟨hg.1.1, hg.2, hg.1.2⟩

theorem runOn_send_of_agrees (hs : db.schemas.get? name = some schema) {f : Filter} {q : Memory.Request}
    (hagrees : e.Agrees db store name schema f q.extra) :
    (q.send (e.collection decorated (Memory.collection db name schema)) caller f).runOn store =
      (q.send (e.declared db name schema) caller f).runOn store := by
  have hrefine := refine_yields_answers decorated caller hreg hkeys hbrute hstore hkeyed hs f
  refine runOn_send_eq_declared hreg.child_eq (hrefine.mono (fun g hg => ?_) fun _ herr => herr)
  obtain ⟨hcheck, haccepted, ⟨hnone, rfl⟩ | ⟨c, t, hc, ht, rfl⟩⟩ := hg
  · exact asks_self hnone q.extra
  · rw [scope_eq_native hreg.child_eq] at hcheck
    refine ⟨haccepted, hcheck, ?_⟩
    rw [← (e.sameBare_native db name schema).select_eq]
    refine Memory.select_congr hc ((sameHops_of_answers ht).union_left _) fun records hrecords r hr => ?_
    rw [holds_eq_judges hstore hs ht hrecords r hr]
    exact hagrees c hc records hrecords r hr

theorem agrees_of_listed (hs : db.schemas.get? name = some schema) {f : Filter} {sort : Sorting}
    {projection : Projection} (hplain : ∀ field ∈ projection.fields, Path.Plain field)
    (hprojected : ∀ pk ∈ schema.primaryKeys, pk ∈ projection.fields) {reply : Memory.Reply}
    (hdeclared : ((Memory.Request.list sort none projection).send (e.declared db name schema) caller
      f).runOn store = (.ok reply, store))
    (hemulated : ((Memory.Request.list sort none projection).send
      (e.collection decorated (Memory.collection db name schema)) caller f).runOn store =
        (.ok reply, store)) :
    e.Agrees db store name schema f (projection.union sort.projection) := by
  have hrefine := refine_yields_answers decorated caller hreg hkeys hbrute hstore hkeyed hs f
  unfold declared at hdeclared
  rw [Memory.runOn_send] at hdeclared
  intro c hc records hrecords r hr
  rcases runOn_send_of_refine hrefine (.list sort none projection) with ⟨err, _, hfailed⟩ | ⟨g, hg, hanswered⟩
  · rw [hfailed] at hemulated
    cases hemulated
  · rw [hanswered] at hemulated
    obtain ⟨kept, hkept, hreply⟩ := Memory.exists_select_of_outcome hdeclared
    obtain ⟨kept', hkept', hreply'⟩ := Memory.exists_select_of_outcome hemulated
    obtain ⟨_, _, ⟨hnone, _⟩ | ⟨c', t, hc', ht, rfl⟩⟩ := hg
    · rw [hnone] at hc
      cases hc
    · rw [hc] at hc'
      cases hc'
      rw [← (e.sameBare_native db name schema).select_eq] at hkept
      obtain rfl := Memory.eq_select_of_attached hc hrecords hkept
      have hattached := hrecords
      rw [← Memory.attached_congr hc ((sameHops_of_answers ht).union_left _)] at hattached
      obtain rfl := Memory.eq_select_of_attached (f := { f with condition := some t }) rfl hattached hkept'
      have hlisted : (sort.apply (c.select (Memory.searched schema f records))).map projection.apply =
          (sort.apply (t.select (Memory.searched schema f records))).map projection.apply := by
        rw [hreply] at hreply'
        exact Memory.Reply.records.inj hreply'
      have hinj : ∀ a ∈ Memory.searched schema f records, ∀ b ∈ Memory.searched schema f records,
          projection.apply a = projection.apply b → a = b := fun a ha b hb =>
        eq_of_apply_eq (hkeyed name schema hs) hplain hprojected hrecords a (Memory.mem_of_mem_searched ha) b
          (Memory.mem_of_mem_searched hb)
      rw [← holds_eq_judges hstore hs ht hrecords r hr, Bool.eq_iff_iff]
      exact ⟨holds_of_map_eq hinj hlisted.symm r hr, holds_of_map_eq hinj hlisted r hr⟩

end

/-- An emulation by brute force answers as the native database where it agrees with the condition, and lists
of keys show every difference; a single leaf is agreed on where no record is overlooked. -/
theorem runOn_send_iff_agrees {db : Database} {e : Emulation Store} {store : Store} {name : String}
    {schema : CollectionSchema} (decorated : Unit → Source Store) (caller : Caller) (hreg : Registered db e)
    (hkeys : MatchableKeys db e) (hbrute : ∀ name, ∀ r ∈ e.registrations.of name, r.rule = .bruteForce)
    (hreach : Memory.Reachable db store) (hkeyed : Memory.KeyedStore db store)
    (hs : db.schemas.get? name = some schema) (f : Filter) :
    (∀ q : Memory.Request, e.Agrees db store name schema f q.extra →
      (q.send (e.collection decorated (Memory.collection db name schema)) caller f).runOn store =
        (q.send (e.declared db name schema) caller f).runOn store) ∧
    (∀ (sort : Sorting) (projection : Projection) reply, (∀ field ∈ projection.fields, Path.Plain field) →
      (∀ pk ∈ schema.primaryKeys, pk ∈ projection.fields) →
      ((Memory.Request.list sort none projection).send (e.declared db name schema) caller f).runOn store =
        (.ok reply, store) →
      (((Memory.Request.list sort none projection).send
        (e.collection decorated (Memory.collection db name schema)) caller f).runOn store =
          (.ok reply, store) ↔ e.Agrees db store name schema f (projection.union sort.projection))) ∧
    (∀ l extra, f.condition = some (.leaf l) → (e.Agrees db store name schema f extra ↔
      ∀ records, Memory.attached db store name schema f extra = .ok records →
        ∀ r ∈ Memory.searched schema f records,
          e.overlooks (Memory.collection db name schema) l r = false)) := by
  have hstore := hreach.fitting
  refine ⟨fun q hagrees => ?_, fun sort projection reply hplain hprojected hdeclared => ⟨fun hemulated => ?_,
    fun hagrees => ?_⟩, fun l extra hl => agrees_leaf_iff hl extra⟩
  · exact runOn_send_of_agrees decorated caller hreg hkeys hbrute hstore hkeyed hs hagrees
  · exact agrees_of_listed decorated caller hreg hkeys hbrute hstore hkeyed hs hplain hprojected hdeclared
      hemulated
  · rw [← hdeclared]
    exact runOn_send_of_agrees decorated caller hreg hkeys hbrute hstore hkeyed hs hagrees

/-! ## A book without an author -/

/-- Books by authors whose names contain a text. -/
def holding (text : String) : Filter := .ofCondition (.leaf ⟨"author:name", .contains, .text text⟩)

theorem runOn_send_holding :
    ((Memory.Request.list .empty none (.primaryKeysOf books)).send ((byName (contained.take 1)).collection
      (fun _ => .empty) (Memory.collection library "books" books)) default (holding "o")).runOn stocked =
    ((Memory.Request.list .empty none (.primaryKeysOf books)).send
      ((byName (contained.take 1)).declared library "books" books) default (holding "o")).runOn stocked := by
  have hbrute : ∀ name, ∀ r ∈ (byName (contained.take 1)).registrations.of name, r.rule = .bruteForce := by
    intro name r hr
    obtain rfl := List.mem_singleton.1 (mem_of_mem_byName hr)
    rfl
  have hbooks : library.schemas.get? "books" = some books := rfl
  have h := runOn_send_iff_agrees (fun _ => .empty) default (registered_byName (by decide))
    (matchableKeys_byName (contained.take 1)) hbrute ⟨stocking, rfl⟩ keyedStore_stocked hbooks (holding "o")
  refine h.1 _ ((h.2.2 _ _ rfl).2 fun records _ r _ => ?_)
  have hnull : Leaf.holdsFor ⟨"author:name", .contains, .text "o"⟩ .null = false := rfl
  unfold overlooks
  rw [hnull, Bool.and_false]

/-- `missing` by brute force. -/
def nameless : Emulation Store := byName [⟨"name", .missing, .bruteForce⟩]

/-- Books whose author has no name. -/
def unsigned : Filter := .ofCondition (.leaf ⟨"author:name", .missing, .null⟩)

theorem rows_authors_stocked : stocked.rows "authors" =
    [[("id", .int 1), ("name", .text "Tove")], [("id", .int 2), ("name", .text "Ada")]] := by
  decide +kernel

theorem rows_books_stocked :
    stocked.rows "books" = [[("author_id", .int 1), ("id", .int 1)], [("id", .int 2)]] := by
  decide +kernel

/-- What the list of keys of these books attaches. -/
def signature : Projection :=
  ((Projection.primaryKeysOf books).union Sorting.empty.projection).union
    (Condition.leaf ⟨"author:name", .missing, .null⟩).projection

theorem attached_unsigned :
    Memory.attached library stocked "books" books unsigned
      ((Projection.primaryKeysOf books).union Sorting.empty.projection) =
    .ok [[("author", .object [("id", .int 1), ("name", .text "Tove")]), ("author_id", .int 1),
        ("id", .int 1)],
      [("author", .null), ("id", .int 2)]] := by
  have hheads : signature.heads.entries = [("author", ())] := by decide +kernel
  have hunnest : signature.unnest "author" = .ofList ["name"] := by decide +kernel
  have hkeys : ((books.relation? "author").bind fun r => r.joinKeys?.map fun keys => (r, keys)) =
      some (.manyToOne "authors" "author_id" "id", "author_id", "id") := rfl
  have hauthors : library.schemas.get? (Relation.manyToOne "authors" "author_id" "id").foreignCollection =
      some authors := rfl
  change library.hydrate stocked books (stocked.rows "books") signature = _
  rw [Database.hydrate_eq, hheads, List.foldlM_cons, hunnest, rows_books_stocked]
  unfold Database.attach
  rw [hkeys]
  dsimp only
  rw [hauthors]
  dsimp only
  rw [Database.hydrate_of_plain (by decide +kernel)]
  change Except.ok ([[("author_id", .int 1), ("id", .int 1)], [("id", .int 2)]].map fun record : Record =>
    record.insert "author" (match record.foreign? "author_id" "id" (stocked.rows "authors") with
      | some f => .object f
      | none => .null)) = _
  rw [rows_authors_stocked]
  refine congrArg Except.ok ?_
  decide +kernel

theorem exists_reply_unsigned : ∃ reply, ((Memory.Request.list .empty none (.primaryKeysOf books)).send
    (nameless.declared library "books" books) default unsigned).runOn stocked = (.ok reply, stocked) := by
  have hselect : Memory.select (nameless.native library) stocked "books"
      (nameless.schema (Memory.collection library "books" books)) unsigned
        ((Projection.primaryKeysOf books).union Sorting.empty.projection) =
      .ok [[("author", .null), ("id", .int 2)]] := by
    rw [← (nameless.sameBare_native library "books" books).select_eq, Memory.select_eq, attached_unsigned]
    rfl
  have hfilter : ((nameless.native library).scope "books"
      (nameless.schema (Memory.collection library "books" books))).checkFilter unsigned = .ok () := rfl
  unfold declared
  rw [Memory.runOn_send]
  unfold Memory.Request.outcome Memory.list Scope.checkPaginated
  dsimp only
  rw [hfilter]
  change ∃ reply, ((Memory.select (nameless.native library) stocked "books"
      (nameless.schema (Memory.collection library "books" books)) unsigned
        ((Projection.primaryKeysOf books).union Sorting.empty.projection) >>= _).map _, stocked) = _
  rw [hselect]
  exact ⟨_, rfl⟩

/-- The book without an author is overlooked. -/
theorem not_runOn_send_eq_native :
    ¬ ∀ db e store, Registered db e → MatchableKeys db e →
      (∀ name, ∀ r ∈ e.registrations.of name, r.rule = .bruteForce) →
      Memory.Reachable db store → Memory.KeyedStore db store →
      ∀ name schema, db.schemas.get? name = some schema →
      ∀ caller (f : Filter) (sort : Sorting) (page : Option Page) projection,
        ((e.collection (fun _ => .empty) (Memory.collection db name schema)).list caller
          { f with sort, page } projection).runOn store =
        ((e.declared db name schema).list caller { f with sort, page } projection).runOn store := by
  intro h
  have hbrute : ∀ name, ∀ r ∈ nameless.registrations.of name, r.rule = .bruteForce := by
    intro name r hr
    obtain rfl := List.mem_singleton.1 (mem_of_mem_byName hr)
    rfl
  have hreg : Registered library nameless := registered_byName (by decide)
  have hkeys : MatchableKeys library nameless := matchableKeys_byName _
  have hlist := h library nameless stocked hreg hkeys hbrute ⟨stocking, rfl⟩ keyedStore_stocked
    "books" books rfl default unsigned .empty none (.primaryKeysOf books)
  obtain ⟨reply, hreply⟩ := exists_reply_unsigned
  have hemulated : ((Memory.Request.list .empty none (.primaryKeysOf books)).send (nameless.collection
      (fun _ => .empty) (Memory.collection library "books" books)) default unsigned).runOn stocked =
        (.ok reply, stocked) := by
    rw [← hreply]
    unfold Memory.Request.send
    dsimp only
    rw [Action.runOn_map, Action.runOn_map, hlist]
  have hfitting : Memory.Fitting library stocked := Memory.Reachable.fitting ⟨stocking, rfl⟩
  have hagrees := agrees_of_listed _ default hreg hkeys hbrute hfitting keyedStore_stocked rfl
    (by decide +kernel) (by decide +kernel) hreply hemulated
  have hoverlooks := (agrees_leaf_iff rfl _).1 hagrees _ attached_unsigned [("author", .null), ("id", .int 2)]
    (by decide +kernel)
  revert hoverlooks
  decide +kernel

end Emulation

end QueryLayer
