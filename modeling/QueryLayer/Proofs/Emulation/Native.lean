import QueryLayer.Proofs.Emulation.Registered
import QueryLayer.Proofs.Memory.Asking

/-! # The source that declares the operators itself

The schemas an emulation shows are those of its source with the registered operators declared: `native` is
the database that has them so. A request to the emulation is answered as by that database if the refined
filter asks the source what the given one asks there.
-/
namespace QueryLayer.Emulation

/-- The operators registered for a field. -/
def operatorsOf {σ : Type} (e : Emulation σ) (name field : String) : List Operator :=
  ((e.registrations.of name).filter fun r => r.field = field).map Registration.operator

section

variable {σ : Type} (e : Emulation σ) (c : Collection σ)

theorem get?_fields_schema (field : String) : (e.schema c).fields.get? field =
    (c.schema.fields.get? field).map fun f => match f with
      | .column column => .column (column.withOperators (e.operatorsOf c.name field))
      | .relation r => .relation r := Dict.get?_mapEntries ..

theorem column?_schema (field : String) : (e.schema c).column? field =
    (c.schema.column? field).map fun column => column.withOperators (e.operatorsOf c.name field) := by
  unfold CollectionSchema.column?
  rw [get?_fields_schema]
  cases c.schema.fields.get? field with
  | none => rfl
  | some f => cases f <;> rfl

theorem relation?_schema (field : String) : (e.schema c).relation? field = c.schema.relation? field := by
  unfold CollectionSchema.relation?
  rw [get?_fields_schema]
  cases c.schema.fields.get? field with
  | none => rfl
  | some f => cases f <;> rfl

theorem bare_schema : (e.schema c).bare = c.schema.bare := by
  unfold CollectionSchema.bare
  have hfields : (e.schema c).fields.map Field.bare = c.schema.fields.map Field.bare := by
    refine Dict.ext fun field => ?_
    unfold Dict.map
    rw [Dict.get?_mapEntries, Dict.get?_mapEntries, get?_fields_schema]
    cases c.schema.fields.get? field with
    | none => rfl
    | some f => cases f <;> rfl
  rw [hfields]
  rfl

end

/-- The database that declares the registered operators itself. -/
def native (e : Emulation Store) (db : Database) : Database :=
  { db with schemas := db.schemas.mapEntries fun d => e.schema (Memory.collection db d.1 d.2) }

section

variable {db : Database} {e : Emulation Store}

theorem get?_schemas_native (e : Emulation Store) (db : Database) (name : String) :
    (e.native db).schemas.get? name =
      (db.schemas.get? name).map fun schema => e.schema (Memory.collection db name schema) :=
  Dict.get?_mapEntries ..

theorem bare_native (e : Emulation Store) (db : Database) : (e.native db).bare = db.bare := by
  have hschemas : (e.native db).schemas.map CollectionSchema.bare = db.schemas.map CollectionSchema.bare := by
    refine Dict.ext fun name => ?_
    unfold Dict.map
    rw [Dict.get?_mapEntries, Dict.get?_mapEntries, get?_schemas_native]
    cases db.schemas.get? name with
    | none => rfl
    | some schema => exact congrArg some (e.bare_schema (Memory.collection db name schema))
  unfold Database.bare
  rw [hschemas]
  rfl

/-- What checks see through an emulation is the native database. -/
theorem scope_eq_native (h : e.child = Memory.source db) (name : String) (schema : CollectionSchema) :
    e.scope (Memory.collection db name schema) =
      (e.native db).scope name (e.schema (Memory.collection db name schema)) := by
  have hcatalog : e.catalog = (e.native db).catalog := by
    funext other
    change (e.child.collection? other).map e.schema = (e.native db).schemas.get? other
    rw [h, Memory.collection?_source, get?_schemas_native, Option.map_map]
    rfl
  unfold scope Database.scope
  rw [hcatalog]
  rfl

/-- A leaf that passes with the registered operators passes without them, unless its own is registered. -/
theorem checkLeaf_of_native {name : String} {schema : CollectionSchema} {l : Leaf}
    (hsplit : Path.split? l.field = none)
    (hfind : e.registrations.find? name l.field l.operator = none)
    (h : (e.scope (Memory.collection db name schema)).checkLeaf l = .ok ()) :
    (db.scope name schema).checkLeaf l = .ok () := by
  have hplain := Path.plain_of_split?_eq_none hsplit
  obtain ⟨column, hcolumn, hadmits⟩ := Scope.checkLeaf_eq_ok_iff.1 h
  rw [Scope.column_of_plain hplain] at hcolumn
  change (e.schema (Memory.collection db name schema)).column? l.field = some column at hcolumn
  rw [column?_schema] at hcolumn
  obtain ⟨c, hc, rfl⟩ := Option.map_eq_some_iff.1 hcolumn
  refine Scope.checkLeaf_eq_ok_iff.2 ⟨c, (Scope.column_of_plain hplain).2 hc, ?_⟩
  refine ⟨hadmits.allowed, ?_, hadmits.suited, hadmits.fitting, hadmits.listed⟩
  have hdeclared := hadmits.declared
  change (c.filterOperators.union (e.operatorsOf name l.field)).contains l.operator = true at hdeclared
  rw [OperatorSet.contains_union, Bool.or_eq_true] at hdeclared
  refine hdeclared.resolve_right fun hregistered => ?_
  obtain ⟨r, hr, hoperator⟩ := List.mem_map.1 (List.contains_iff_mem.1 hregistered)
  obtain ⟨hr, hfield⟩ := List.mem_filter.1 hr
  have hnot := List.find?_eq_none.1 hfind r hr
  exact hnot (by simpa [Registration.isFor, hoperator] using hfield)

/-! ## Requests -/

theorem sameBare_native (e : Emulation Store) (db : Database) (name : String) (schema : CollectionSchema) :
    Memory.SameBare db (e.native db) schema (e.schema (Memory.collection db name schema)) where
  database := (e.bare_native db).symm
  collection := (e.bare_schema (Memory.collection db name schema)).symm

/-- A collection of the native database. -/
def declared (e : Emulation Store) (db : Database) (name : String) (schema : CollectionSchema) :
    Collection Store :=
  Memory.collection (e.native db) name (e.schema (Memory.collection db name schema))

/-- A filter for the source asks what another one asks the native database. -/
abbrev AsksDeclared (e : Emulation Store) (db : Database) (store : Store) (name : String)
    (schema : CollectionSchema) (extra : Projection) (g f : Filter) : Prop :=
  Memory.Asks db (e.native db) store name schema (e.schema (Memory.collection db name schema)) extra g f

variable {decorated : Unit → Source Store} {caller : Caller} {store : Store} {name : String}
  {schema : CollectionSchema} {f : Filter} {E : Error → Prop}

/-- A filter without a condition asks the same of both. -/
theorem asks_self (hnone : f.condition = none) (extra : Projection) :
    e.AsksDeclared db store name schema extra f f where
  accepted := by
    unfold Scope.checkFilter
    rw [hnone]
  accepted' := by
    unfold Scope.checkFilter
    rw [hnone]
  select_eq := (e.sameBare_native db name schema).select_eq f extra

open Memory in
theorem send_collection {σ : Type} (e : Emulation σ) (decorated : Unit → Source σ) (c : Collection σ)
    (caller : Caller) (f : Filter) (q : Request) :
    q.send (e.collection decorated c) caller f =
      e.refine decorated caller c f >>= fun g => q.send c caller g := by
  cases q <;> exact map_bind ..

/-- A request to the emulation fails as its refinement does, or the refined filter is sent to the source. -/
theorem runOn_send_of_refine {P : Filter → Prop}
    (h : (e.refine decorated caller (Memory.collection db name schema) f).Yields (· = store) P E)
    (q : Memory.Request) :
    (∃ err, E err ∧
      (q.send (e.collection decorated (Memory.collection db name schema)) caller f).runOn store =
        (.error err, store)) ∨
    ∃ g, P g ∧
      (q.send (e.collection decorated (Memory.collection db name schema)) caller f).runOn store =
        q.outcome db store name schema g := by
  rw [send_collection, Action.runOn_bind]
  obtain ⟨hstore, hok, herror⟩ := h.runOn rfl
  cases hr : (e.refine decorated caller (Memory.collection db name schema) f).runOn store with
  | mk answer after =>
    rw [hr] at hstore hok herror
    obtain rfl : after = store := hstore
    cases answer with
    | error err => exact Or.inl ⟨err, herror err rfl, rfl⟩
    | ok g => exact Or.inr ⟨g, hok g rfl, Memory.runOn_send ..⟩

/-- A request to the emulation fails as its refinement does, or it is answered as by the native database. -/
theorem runOn_send_of_asks {q : Memory.Request}
    (h : (e.refine decorated caller (Memory.collection db name schema) f).Yields (· = store)
      (fun g => e.AsksDeclared db store name schema q.extra g f) E) :
    (∃ err, E err ∧
      (q.send (e.collection decorated (Memory.collection db name schema)) caller f).runOn store =
        (.error err, store)) ∨
    (q.send (e.collection decorated (Memory.collection db name schema)) caller f).runOn store =
      (q.send (e.declared db name schema) caller f).runOn store := by
  refine (runOn_send_of_refine h q).imp_right ?_
  rintro ⟨g, hg, hsend⟩
  unfold declared
  rw [hsend, Memory.runOn_send]
  exact Memory.Asks.outcome_eq hg (e.sameBare_native db name schema)

/-- Where only filters that are not accepted fail to be refined, both answer alike. -/
theorem runOn_send_eq_declared (hchild : e.child = Memory.source db) {q : Memory.Request}
    (h : (e.refine decorated caller (Memory.collection db name schema) f).Yields (· = store)
      (fun g => e.AsksDeclared db store name schema q.extra g f)
      fun err => (e.scope (Memory.collection db name schema)).checkFilter f = .error err) :
    (q.send (e.collection decorated (Memory.collection db name schema)) caller f).runOn store =
      (q.send (e.declared db name schema) caller f).runOn store := by
  rcases runOn_send_of_asks h with ⟨err, herr, hemulated⟩ | hemulated
  · rw [scope_eq_native hchild] at herr
    unfold declared
    rw [hemulated, Memory.runOn_send, Memory.outcome_of_refused herr]
  · exact hemulated

end

end QueryLayer.Emulation
