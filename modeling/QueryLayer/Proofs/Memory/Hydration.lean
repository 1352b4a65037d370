import QueryLayer.Proofs.Memory.Fitting
import QueryLayer.Proofs.Query.Projection
import QueryLayer.Proofs.Schema.Bare

/-! # Records with their relations attached

What `hydrate` attaches depends on the hops of the projection and on bare schemas only. A record it makes
`Shows` a stored one: it has the values of its columns, and every record nested in it shows a stored
record of the foreign collection.
-/
namespace QueryLayer

/-- A foreign record as a member, null where there is none. -/
def Value.attachment (foreign : Option Record) : Value := (foreign.map Value.object).getD .null

theorem Value.attachment_eq_object_iff {foreign : Option Record} {nested : Record} :
    attachment foreign = .object nested ↔ foreign = some nested := by
  unfold attachment
  cases foreign <;> simp

theorem Record.mem_of_foreign? {record found : Record} {localKey foreignKey : String} {foreign : List Record}
    (h : record.foreign? localKey foreignKey foreign = some found) : found ∈ foreign := by
  unfold foreign? at h
  dsimp only at h
  split at h
  · cases h
  · exact List.mem_of_find?_eq_some h

namespace Database

/-- What one relation attaches to every record. -/
def attach (db : Database) (store : Store) (schema : CollectionSchema) (records : List Record)
    (name : String) (p : Projection) : Except Error (List Record) :=
  match (schema.relation? name).bind fun r => r.joinKeys?.map fun keys => (r, keys) with
  | none => pure records
  | some (r, localKey, foreignKey) =>
    match db.schemas.get? r.foreignCollection with
    | none => .error (.setup (.collectionNotFound r.foreignCollection))
    | some foreignSchema => do
      let foreign ← db.hydrate store foreignSchema (store.rows r.foreignCollection) p
      pure (records.map fun record =>
        record.insert name (match record.foreign? localKey foreignKey foreign with
          | some f => .object f
          | none => .null))

theorem hydrate_eq (db : Database) (store : Store) (schema : CollectionSchema) (records : List Record)
    (p : Projection) : db.hydrate store schema records p =
      p.heads.entries.foldlM (fun out e => db.attach store schema out e.1 (p.unnest e.1)) records := by
  have hentries : p.relations.entries.foldlM
      (fun out e => db.attach store schema out e.1 e.2) records =
        p.heads.entries.foldlM (fun out e => db.attach store schema out e.1 (p.unnest e.1)) records := by
    rw [Projection.entries_relations, List.foldlM_map]
  rw [← hentries, hydrate]
  refine (List.foldlM_subtype fun out e he => ?_).trans (by rw [List.unattach_attach])
  rfl

theorem hydrate_of_plain {p : Projection} (h : ∀ f ∈ p.fields, Path.Plain f) (db : Database)
    (store : Store) (schema : CollectionSchema) (records : List Record) :
    db.hydrate store schema records p = .ok records := by
  have hheads : p.heads.entries = [] := by
    have hrelations := Projection.entries_relations_of_plain h
    rw [Projection.entries_relations] at hrelations
    exact List.map_eq_nil_iff.1 hrelations
  rw [hydrate_eq, hheads]
  rfl

theorem hydrate_congr {p q : Projection} (h : p.SameHops q) (db : Database) (store : Store)
    (schema : CollectionSchema) (records : List Record) :
    db.hydrate store schema records p = db.hydrate store schema records q := by
  induction hdepth : p.depth using Nat.strongRecOn generalizing p q schema records with
  | ind depth ih =>
    subst hdepth
    rw [hydrate_eq, hydrate_eq, ← h.heads_eq]
    refine Outcome.foldlM_congr (fun e he out => ?_) records
    unfold attach
    split
    · rfl
    · split
      · rfl
      · have hdepth := Projection.depth_unnest_lt (Projection.through_of_mem_heads he)
        rw [ih _ hdepth (h.unnest e.1) _ _ rfl]

theorem hydrate_bare (db : Database) (store : Store) (schema : CollectionSchema) (records : List Record)
    (p : Projection) : db.bare.hydrate store schema.bare records p = db.hydrate store schema records p := by
  induction hdepth : p.depth using Nat.strongRecOn generalizing p schema records with
  | ind depth ih =>
    subst hdepth
    rw [hydrate_eq, hydrate_eq]
    refine Outcome.foldlM_congr (fun e he out => ?_) records
    unfold attach
    rw [CollectionSchema.relation?_bare]
    split
    · rfl
    · next r localKey foreignKey _ =>
      rw [get?_schemas_bare]
      cases db.schemas.get? r.foreignCollection with
      | none => rfl
      | some foreign =>
        dsimp only [Option.map_some]
        have hdepth := Projection.depth_unnest_lt (Projection.through_of_mem_heads he)
        rw [ih _ hdepth _ _ _ rfl]

/-- Attaching does nothing for what is not joined, else it inserts the foreign record. -/
theorem attach_cases {db : Database} {store : Store} {schema : CollectionSchema} {records out : List Record} {hop : String} {p : Projection}
    (h : db.attach store schema records hop p = .ok out) :
    (out = records ∧ ∀ r keys, schema.relation? hop = some r → r.joinKeys? ≠ some keys) ∨
    ∃ r l k foreign others, schema.relation? hop = some r ∧ r.joinKeys? = some (l, k) ∧
      db.schemas.get? r.foreignCollection = some foreign ∧
      db.hydrate store foreign (store.rows r.foreignCollection) p = .ok others ∧
      out = records.map fun record => record.insert hop (.attachment (record.foreign? l k others)) := by
  unfold attach at h
  split at h
  · next hnone =>
    cases h
    refine Or.inl ⟨rfl, fun r keys hr hkeys => ?_⟩
    rw [hr, Option.bind_some, hkeys] at hnone
    cases hnone
  · next r l k hsome =>
    obtain ⟨r', hr, hkeys⟩ := Option.bind_eq_some_iff.1 hsome
    obtain ⟨_, hjoin, hkeys⟩ := Option.map_eq_some_iff.1 hkeys
    cases hkeys
    split at h
    · cases h
    · next foreign hforeign =>
      obtain ⟨others, hothers, h⟩ := Outcome.bind_eq_ok_iff.1 h
      cases h
      refine Or.inr ⟨r, l, k, foreign, others, hr, hjoin, hforeign, hothers, ?_⟩
      refine List.map_congr_left fun record _ => ?_
      cases record.foreign? l k others <;> rfl

end Database

def Record.SameColumns (schema : CollectionSchema) (a b : Record) : Prop :=
  ∀ f, (schema.column? f).isSome → a.get? f = b.get? f

theorem CollectionSchema.isSome_column?_of_mem_primaryKeys {schema : CollectionSchema} {pk : String}
    (h : pk ∈ schema.primaryKeys) : (schema.column? pk).isSome := by
  obtain ⟨c, hc, _⟩ := mem_primaryKeys_iff.1 h
  rw [hc]
  rfl

theorem Record.SameColumns.key_eq {schema : CollectionSchema} {a b : Record} (h : a.SameColumns schema b) :
    a.key schema = b.key schema :=
  Record.key_congr fun pk hpk => h pk (CollectionSchema.isSome_column?_of_mem_primaryKeys hpk)

namespace Memory

/-- A record shows a stored one: their columns agree, and so do those of nested records with some stored
record of their collection. -/
inductive Shows (db : Database) (store : Store) : String → CollectionSchema → Record → Prop
  | intro {name : String} {schema : CollectionSchema} {record : Record} (row : Record) :
    row ∈ store.rows name → record.SameColumns schema row →
    (∀ hop r foreign nested, schema.relation? hop = some r →
      db.schemas.get? r.foreignCollection = some foreign → record.get? hop = some (.object nested) →
      Shows db store r.foreignCollection foreign nested) →
    Shows db store name schema record

theorem column?_eq_none_of_relation? {schema : CollectionSchema} {name : String} {r : Relation}
    (h : schema.relation? name = some r) : schema.column? name = none := by
  unfold CollectionSchema.relation? at h
  unfold CollectionSchema.column?
  cases hf : schema.fields.get? name with
  | none => rfl
  | some f =>
    cases f with
    | column c => simp [hf, Field.relation?] at h
    | relation r => rfl

namespace Shows

variable {db : Database} {store : Store} {name : String} {schema : CollectionSchema} {record : Record}

/-- A stored record has no nested ones. -/
theorem of_mem_rows (hstore : Fitting db store) (hs : db.schemas.get? name = some schema)
    (h : record ∈ store.rows name) : Shows db store name schema record := by
  refine .intro record h (fun _ _ => rfl) fun hop r foreign nested hr _ hnested => ?_
  rw [(hstore name schema hs record h).get?_eq_none (column?_eq_none_of_relation? hr)] at hnested
  cases hnested

theorem insert (h : Shows db store name schema record) {hop : String} {r : Relation}
    (hr : schema.relation? hop = some r) {v : Value}
    (hv : ∀ foreign nested, db.schemas.get? r.foreignCollection = some foreign → v = .object nested →
      Shows db store r.foreignCollection foreign nested) :
    Shows db store name schema (record.insert hop v) := by
  cases h with
  | intro row hrow hcolumns hnested =>
    refine .intro row hrow (fun f hf => ?_) fun hop' r' foreign nested hr' hforeign hget => ?_
    · have hne : hop ≠ f := by
        rintro rfl
        rw [column?_eq_none_of_relation? hr] at hf
        cases hf
      rw [← hcolumns f hf]
      exact Entries.get?_insert_of_ne hne v record
    · by_cases hne : hop = hop'
      · subst hne
        rw [hr] at hr'
        cases hr'
        have hself := Entries.get?_insert_self hop v record
        rw [show Entries.get? (Entries.insert hop v record) hop = _ from hget] at hself
        exact hv foreign nested hforeign (Option.some.inj hself).symm
      · refine hnested hop' r' foreign nested hr' hforeign ?_
        rw [← hget]
        exact (Entries.get?_insert_of_ne hne v record).symm

end Shows

/-- Attaching relations changes no column. -/
theorem exists_map_of_hydrate {db : Database} {store : Store} {schema : CollectionSchema}
    {records out : List Record} {p : Projection} (h : db.hydrate store schema records p = .ok out) :
    ∃ g : Record → Record, out = records.map g ∧ ∀ r, (g r).SameColumns schema r := by
  rw [Database.hydrate_eq] at h
  refine Outcome.foldlM_keeps (P := fun out => ∃ g : Record → Record, out = records.map g ∧
    ∀ r, (g r).SameColumns schema r) (fun e _ before out hbefore hout => ?_) ⟨id, by simp, fun _ _ _ => rfl⟩ h
  obtain ⟨g, rfl, hg⟩ := hbefore
  obtain ⟨rfl, _⟩ | ⟨r, _, _, _, _, hr, _, _, _, rfl⟩ := Database.attach_cases hout
  · exact ⟨g, rfl, hg⟩
  · refine ⟨_, List.map_map, fun record f hf => ?_⟩
    have hne : e.1 ≠ f := by
      rintro rfl
      rw [column?_eq_none_of_relation? hr] at hf
      cases hf
    rw [← hg record f hf]
    exact Entries.get?_insert_of_ne hne ..

theorem shows_of_hydrate {db : Database} {store : Store} (hstore : Fitting db store) {p : Projection}
    {name : String} {schema : CollectionSchema} {records out : List Record}
    (hrecords : ∀ r ∈ records, Shows db store name schema r)
    (h : db.hydrate store schema records p = .ok out) : ∀ r ∈ out, Shows db store name schema r := by
  induction hdepth : p.depth using Nat.strongRecOn generalizing p name schema records out with
  | ind depth ih =>
    subst hdepth
    rw [Database.hydrate_eq] at h
    refine Outcome.foldlM_keeps (P := fun out => ∀ r ∈ out, Shows db store name schema r)
      (fun e he before out hbefore hout => ?_) hrecords h
    obtain ⟨rfl, _⟩ | ⟨r, _, _, foreign, others, hr, _, hforeign, hothers, rfl⟩ :=
      Database.attach_cases hout
    · exact hbefore
    · have hshown := ih _ (Projection.depth_unnest_lt (Projection.through_of_mem_heads he))
        (fun r hr => Shows.of_mem_rows hstore hforeign hr) hothers rfl
      intro record hrecord
      obtain ⟨old, hold, rfl⟩ := List.mem_map.1 hrecord
      refine (hbefore old hold).insert hr fun foreign' nested hforeign' hnested => ?_
      rw [hforeign] at hforeign'
      cases hforeign'
      exact hshown nested (Record.mem_of_foreign? (Value.attachment_eq_object_iff.1 hnested))

end Memory

end QueryLayer
