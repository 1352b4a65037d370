import QueryLayer.Proofs.Memory.Joins
import QueryLayer.Proofs.Query.Agreement
import QueryLayer.Proofs.Typing.Check

/-! # Records along what is read

Every path that leads to a column can be attached. Where the keys of relations are columns, records with more
attached agree with those that have no more than is read: what is attached beside it is no key, and it is
found under names that nobody reads. Main statement: `Database.agrees_of_attached`.
-/
namespace QueryLayer

namespace Scope

/-- Every path of the projection leads to a column. -/
def Reads (s : Scope) (p : Projection) : Prop := ∀ f ∈ p.fields, ∃ c, s.column f = .ok c

variable {s : Scope} {p q : Projection}

theorem Reads.union (hp : s.Reads p) (hq : s.Reads q) : s.Reads (p.union q) :=
  fun f hf => (Projection.mem_union.1 hf).elim (hp f) (hq f)

theorem reads_of_checkFields {fields : List String} (h : s.checkFields fields = .ok ()) :
    s.Reads (.ofList fields) :=
  fun f hf => checkFields_eq_ok_iff.1 h f (Projection.mem_ofList.1 hf)

theorem reads_of_checkProjection (h : s.checkProjection p = .ok ()) : s.Reads p :=
  checkFields_eq_ok_iff.1 h

theorem reads_of_checkCondition {c : Condition} (h : s.checkCondition c = .ok ()) : s.Reads c.projection := by
  intro f hf
  obtain ⟨l, hl, rfl⟩ := List.mem_map.1 (Projection.mem_ofList.1 hf)
  obtain ⟨c, hc, -⟩ := checkLeaf_eq_ok_iff.1 (checkLeaf_of_mem_leaves h hl)
  exact ⟨c, hc⟩

theorem reads_of_checkAggregation {a : Aggregation} (h : s.checkAggregation a = .ok ()) :
    s.Reads a.projection := by
  obtain ⟨function, field, groups⟩ := a
  intro f hf
  have hf := Projection.mem_ofList.1 hf
  cases field with
  | none => exact checkFields_eq_ok_iff.1 (checkAggregation_none.1 h).2 f hf
  | some field =>
    obtain ⟨⟨c, hc, -⟩, hgroups⟩ := checkAggregation_some.1 h
    rcases List.mem_cons.1 hf with rfl | hf
    · exact ⟨c, hc⟩
    · exact checkFields_eq_ok_iff.1 hgroups f hf

/-- Behind a first hop is a relation to a collection that there is. -/
theorem column_of_split? {path hop rest : String} (hsplit : Path.split? path = some (hop, rest)) {c : Column}
    (h : s.column path = .ok c) : ∃ r schema, s.schema.relation? hop = some r ∧
      s.catalog r.foreignCollection = some schema ∧ (s.foreign r schema).column rest = .ok c := by
  rw [Path.eq_under_of_split? hsplit] at h
  obtain ⟨r, schema, hr, -, hs, hc⟩ := (column_under (Path.plain_of_split? hsplit)).1 h
  exact ⟨r, schema, hr, hs, hc⟩

theorem Reads.exists_foreign (h : s.Reads p) {hop : String} (hhop : (p.heads.get? hop).isSome) {r : Relation}
    (hr : s.schema.relation? hop = some r) : ∃ schema, s.catalog r.foreignCollection = some schema := by
  obtain ⟨f, hf, rest, hsplit⟩ := Projection.through_singleton_iff.1 (Projection.isSome_get?_heads_iff.1 hhop)
  obtain ⟨c, hc⟩ := h f hf
  obtain ⟨r', schema, hr', hs, -⟩ := column_of_split? hsplit hc
  obtain rfl : r = r' := Option.some.inj (hr.symm.trans hr')
  exact ⟨schema, hs⟩

theorem Reads.unnest (h : s.Reads p) {hop : String} {r : Relation} {schema : CollectionSchema}
    (hr : s.schema.relation? hop = some r) (hs : s.catalog r.foreignCollection = some schema) :
    (s.foreign r schema).Reads (p.unnest hop) := by
  intro f hf
  obtain ⟨g, hg, hsplit⟩ := Projection.mem_unnest.1 hf
  obtain ⟨c, hc⟩ := h g hg
  obtain ⟨r', schema', hr', hs', hc⟩ := column_of_split? hsplit hc
  obtain rfl : r = r' := Option.some.inj (hr.symm.trans hr')
  obtain rfl : schema = schema' := Option.some.inj (hs.symm.trans hs')
  exact ⟨c, hc⟩

end Scope

/-- Foreign records are found by their keys, whatever is attached to them. -/
theorem Record.foreign?_map {g : Record → Record} {l k : String} (hg : ∀ r, (g r).get? k = r.get? k)
    (record : Record) (rows : List Record) :
    record.foreign? l k (rows.map g) = (record.foreign? l k rows).map g := by
  unfold foreign?
  dsimp only
  split
  · rfl
  · rw [List.find?_map]
    refine congrArg (Option.map g) (congrArg (rows.find? ·) (funext fun r => ?_))
    exact congrArg (Option.any _) (hg r)

namespace Database

variable {db : Database} {store : Store} {name : String} {schema : CollectionSchema} {p q : Projection}

theorem exists_hydrate_of_reads (h : (db.scope name schema).Reads p) (records : List Record) :
    ∃ out, db.hydrate store schema records p = .ok out := by
  induction hdepth : p.depth using Nat.strongRecOn generalizing p name schema records with
  | ind depth ih =>
    subst hdepth
    refine exists_hydrate (fun hop r hhop hr => ?_) records
    obtain ⟨foreign, hforeign⟩ := h.exists_foreign hhop hr
    have hsmaller := Projection.depth_unnest_lt (Projection.isSome_get?_heads_iff.1 hhop)
    obtain ⟨others, hothers⟩ := ih _ hsmaller (h.unnest hr hforeign) (store.rows r.foreignCollection) rfl
    exact ⟨foreign, others, hforeign, hothers⟩

/-- The rows of a collection with what the projection goes through attached. -/
theorem exists_attached_rows (hkeys : db.KeyedByColumns) (hs : db.schemas.get? name = some schema)
    (h : (db.scope name schema).Reads p) (records : List Record) : ∃ g : Record → Record,
      db.hydrate store schema records p = .ok (records.map g) ∧
        ∀ record, Attached db store schema p p.heads.keys record (g record) := by
  obtain ⟨out, hout⟩ := exists_hydrate_of_reads h records
  obtain ⟨g, rfl, hg⟩ := exists_attached (hkeys.isSome_localKey hs) hout
  exact ⟨g, hout, hg⟩

theorem Attached.get?_of_column {record out : Record} (h : Attached db store schema p p.heads.keys record out)
    {f : String} (hf : (schema.column? f).isSome) : out.get? f = record.get? f := by
  refine h.kept f fun r keys hr _ => ?_
  rw [Memory.column?_eq_none_of_relation? hr] at hf
  cases hf

/-- What is attached for a relation that is joined: the first row with the key, with relations of its own. -/
theorem Attached.nested?_eq {record out : Record} (h : Attached db store schema p p.heads.keys record out)
    {hop : String} {r : Relation} {l k : String} {foreign : CollectionSchema} {g : Record → Record}
    (hhop : p.Through [hop]) (hr : schema.relation? hop = some r) (hjoin : r.joinKeys? = some (l, k))
    (hforeign : db.schemas.get? r.foreignCollection = some foreign)
    (hothers : db.hydrate store foreign (store.rows r.foreignCollection) (p.unnest hop) =
      .ok ((store.rows r.foreignCollection).map g))
    (hg : ∀ r, (g r).get? k = r.get? k) :
    out.nested? hop = (record.foreign? l k (store.rows r.foreignCollection)).map g := by
  have hhead : hop ∈ p.heads.keys := Dict.mem_keys_iff.2 (Projection.isSome_get?_heads_iff.2 hhop)
  have hget := h.joined hop r l k foreign _ hhead hr hjoin hforeign hothers
  rw [Record.foreign?_map hg] at hget
  unfold Record.nested?
  rw [hget]
  cases record.foreign? l k (store.rows r.foreignCollection) <;> rfl

/-- Behind a relation that was joined, the foreign records were hydrated. -/
theorem exists_joined {records out : List Record} (h : db.hydrate store schema records p = .ok out)
    {hop : String} (hhop : p.Through [hop]) {r : Relation} {l k : String} (hr : schema.relation? hop = some r)
    (hjoin : r.joinKeys? = some (l, k)) : ∃ foreign others,
      db.schemas.get? r.foreignCollection = some foreign ∧
        db.hydrate store foreign (store.rows r.foreignCollection) (p.unnest hop) = .ok others := by
  obtain ⟨u, hu⟩ := Option.isSome_iff_exists.1 (Projection.isSome_get?_heads_iff.2 hhop)
  rw [hydrate_eq] at h
  obtain ⟨before, after, hstep⟩ := Outcome.exists_step_of_foldlM h (Dict.get?_eq_some_iff.1 hu)
  obtain ⟨-, hnone⟩ | ⟨r', l', k', foreign, others, hr', -, hforeign, hothers, -⟩ := attach_cases hstep
  · exact absurd hjoin (hnone r (l, k) hr)
  · obtain rfl : r = r' := Option.some.inj (hr.symm.trans hr')
    exact ⟨foreign, others, hforeign, hothers⟩

/-- A record with more attached agrees with one that has what is read. -/
theorem agrees_of_attached (hkeys : db.KeyedByColumns) (hs : db.schemas.get? name = some schema)
    (hp : (db.scope name schema).Reads p) (hwithin : p.Within q) {records out : List Record}
    (hq : db.hydrate store schema records q = .ok out) {record a b : Record}
    (ha : Attached db store schema p p.heads.keys record a)
    (hb : Attached db store schema q q.heads.keys record b) : a.Agrees p b := by
  induction hdepth : p.depth using Nat.strongRecOn
    generalizing name schema p q records out record a b with
  | ind depth ih =>
    subst hdepth
    refine .of_nested? (fun f hf hplain => ?_) fun hop hhop => ?_
    · obtain ⟨c, hc⟩ := hp f hf
      have hcolumn : (schema.column? f).isSome := Option.isSome_of_eq_some ((Scope.column_of_plain hplain).1 hc)
      rw [ha.get?_of_column hcolumn, hb.get?_of_column hcolumn]
    · obtain ⟨f, hf, rest, hsplit⟩ := Projection.through_singleton_iff.1 hhop
      obtain ⟨c, hc⟩ := hp f hf
      obtain ⟨r, foreign, hr, hforeign, -⟩ := Scope.column_of_split? hsplit hc
      have hhop' := hwithin [hop] (by simp) hhop
      by_cases hjoin : ∃ keys, r.joinKeys? = some keys
      · obtain ⟨⟨l, k⟩, hjoin⟩ := hjoin
        obtain ⟨foreign', others, hforeign', hothers⟩ := exists_joined hq hhop' hr hjoin
        obtain rfl : foreign = foreign' := Option.some.inj (hforeign.symm.trans hforeign')
        obtain ⟨g, hg, hattached⟩ := exists_attached_rows hkeys hforeign (hp.unnest hr hforeign)
          (store.rows r.foreignCollection)
        obtain ⟨g', rfl, hattached'⟩ := exists_attached (hkeys.isSome_localKey hforeign) hothers
        have hk := (hkeys name schema hop r l k hs hr hjoin).2 foreign hforeign
        rw [ha.nested?_eq hhop hr hjoin hforeign hg fun row => (hattached row).get?_of_column hk,
          hb.nested?_eq hhop' hr hjoin hforeign hothers fun row => (hattached' row).get?_of_column hk]
        cases record.foreign? l k (store.rows r.foreignCollection) with
        | none => exact Or.inl ⟨rfl, rfl⟩
        | some row =>
          exact Or.inr ⟨g row, g' row, rfl, rfl, ih _ (Projection.depth_unnest_lt hhop) hforeign
            (hp.unnest hr hforeign) (hwithin.unnest hop) hothers (hattached row) (hattached' row) rfl⟩
      · -- a relation that is not joined holds what was stored in its place
        have hkept : ∀ {p : Projection} {a : Record}, Attached db store schema p p.heads.keys record a →
            a.nested? hop = record.nested? hop := by
          intro p a ha
          unfold Record.nested?
          rw [ha.kept hop fun r' keys hr' hkeys' _ => ?_]
          obtain rfl : r = r' := Option.some.inj (hr.symm.trans hr')
          exact hjoin ⟨keys, hkeys'⟩
        rw [hkept ha, hkept hb]
        cases record.nested? hop with
        | none => exact Or.inl ⟨rfl, rfl⟩
        | some x => exact Or.inr ⟨x, x, rfl, rfl, .refl _ x⟩

/-- What is found along a path does not depend on the paths that are attached beside it. -/
theorem value_eq_of_attached (hkeys : db.KeyedByColumns) (hs : db.schemas.get? name = some schema)
    (hp : (db.scope name schema).Reads p) (hq : (db.scope name schema).Reads q) {path : String}
    (hpath : path ∈ p.fields) (hpath' : path ∈ q.fields) {record a b : Record}
    (ha : Attached db store schema p p.heads.keys record a)
    (hb : Attached db store schema q q.heads.keys record b) : a.value path = b.value path := by
  let alone : Projection := .ofList [path]
  have halone : path ∈ alone.fields := Projection.mem_ofList.2 (List.mem_singleton_self path)
  have hreads : (db.scope name schema).Reads alone := by
    intro f hf
    rw [List.mem_singleton.1 (Projection.mem_ofList.1 hf)]
    exact hp path hpath
  have hwithin : ∀ {p : Projection}, path ∈ p.fields → alone.Within p := by
    intro p hpath
    refine Projection.within_of_subset fun f hf => ?_
    rwa [List.mem_singleton.1 (Projection.mem_ofList.1 hf)]
  have hhydrated : ∀ {p : Projection}, (db.scope name schema).Reads p →
      ∃ out, db.hydrate store schema [record] p = .ok out := fun hp => exists_hydrate_of_reads hp [record]
  obtain ⟨out, hout⟩ := hhydrated hp
  obtain ⟨out', hout'⟩ := hhydrated hq
  obtain ⟨_, hout''⟩ := hhydrated hreads
  obtain ⟨g, -, hg⟩ := exists_attached (hkeys.isSome_localKey hs) hout''
  have hleft := agrees_of_attached hkeys hs hreads (hwithin hpath) hout (hg record) ha
  have hright := agrees_of_attached hkeys hs hreads (hwithin hpath') hout' (hg record) hb
  exact (hleft.value_eq halone).symm.trans (hright.value_eq halone)

end Database

end QueryLayer
