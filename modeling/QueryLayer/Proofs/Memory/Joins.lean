import QueryLayer.Proofs.Memory.Hydration

/-! # Attached records, member by member

Where the keys of relations are columns, what is attached for one relation does not depend on what was
attached before: every relation that a projection goes through holds the foreign record of the stored
key, and everything else is as stored.
-/
namespace QueryLayer

namespace Database

variable {db : Database} {store : Store} {schema : CollectionSchema}

/-- The keys that relations are joined by name columns of the collections they belong to. -/
def KeyedByColumns (db : Database) : Prop :=
  ∀ name schema hop r l k, db.schemas.get? name = some schema → schema.relation? hop = some r →
    r.joinKeys? = some (l, k) → (schema.column? l).isSome ∧
      ∀ foreign, db.schemas.get? r.foreignCollection = some foreign → (foreign.column? k).isSome

theorem keyedByColumns_iff : db.KeyedByColumns ↔ ∀ e ∈ db.schemas.entries, ∀ d ∈ e.2.relations,
    ∀ keys ∈ d.2.joinKeys?, (e.2.column? keys.1).isSome ∧
      ∀ foreign ∈ db.schemas.get? d.2.foreignCollection, (foreign.column? keys.2).isSome := by
  constructor
  · rintro h e he d hd keys hkeys
    exact h e.1 e.2 d.1 d.2 keys.1 keys.2 (Dict.get?_eq_some_iff.2 he)
      (CollectionSchema.mem_relations_iff.1 hd) hkeys
  · intro h name schema hop r l k hs hr hjoin
    exact h _ (Dict.get?_eq_some_iff.1 hs) (hop, r) (CollectionSchema.mem_relations_iff.2 hr) (l, k) hjoin

theorem KeyedByColumns.isSome_localKey (h : db.KeyedByColumns) {name : String}
    (hs : db.schemas.get? name = some schema) (hop : String) (r : Relation) (l k : String)
    (hr : schema.relation? hop = some r) (hjoin : r.joinKeys? = some (l, k)) : (schema.column? l).isSome :=
  (h name schema hop r l k hs hr hjoin).1

instance : Decidable db.KeyedByColumns := decidable_of_iff' _ keyedByColumns_iff

theorem exists_attach {hop : String} {p : Projection}
    (h : ∀ r, schema.relation? hop = some r → ∃ foreign others,
      db.schemas.get? r.foreignCollection = some foreign ∧
      db.hydrate store foreign (store.rows r.foreignCollection) p = .ok others) (records : List Record) :
    ∃ out, db.attach store schema records hop p = .ok out := by
  unfold attach
  split
  · exact ⟨_, rfl⟩
  · next r l k hsome =>
    obtain ⟨r', hr, hkeys⟩ := Option.bind_eq_some_iff.1 hsome
    obtain ⟨_, _, hkeys⟩ := Option.map_eq_some_iff.1 hkeys
    cases hkeys
    obtain ⟨foreign, others, hforeign, hothers⟩ := h r hr
    rw [hforeign]
    dsimp only
    rw [hothers]
    exact ⟨_, rfl⟩

theorem exists_hydrate {p : Projection}
    (h : ∀ hop r, (p.heads.get? hop).isSome → schema.relation? hop = some r → ∃ foreign others,
      db.schemas.get? r.foreignCollection = some foreign ∧
      db.hydrate store foreign (store.rows r.foreignCollection) (p.unnest hop) = .ok others)
    (records : List Record) : ∃ out, db.hydrate store schema records p = .ok out := by
  rw [hydrate_eq]
  refine Outcome.exists_foldlM (fun e he => exists_attach (h e.1 · ?_)) records
  rw [Dict.get?_eq_some_iff.2 he]
  rfl

/-- A record with what is attached for some of the relations that a projection goes through. -/
structure Attached (db : Database) (store : Store) (schema : CollectionSchema) (p : Projection)
    (heads : List String) (record out : Record) : Prop where
  sorted : Entries.Sorted record → Entries.Sorted out
  kept : ∀ f, (∀ r keys, schema.relation? f = some r → r.joinKeys? = some keys → f ∉ heads) →
    out.get? f = record.get? f
  joined : ∀ f r l k foreign others, f ∈ heads → schema.relation? f = some r →
    r.joinKeys? = some (l, k) → db.schemas.get? r.foreignCollection = some foreign →
    db.hydrate store foreign (store.rows r.foreignCollection) (p.unnest f) = .ok others →
    out.get? f = some (.attachment (record.foreign? l k others))

namespace Attached

variable {p : Projection} {hop : String} {heads : List String} {record mid out : Record}

theorem nil (record : Record) (p : Projection) : Attached db store schema p [] record record where
  sorted h := h
  kept _ _ := rfl
  joined _ _ _ _ _ _ h := by cases h

/-- Nothing is attached for what is not joined. -/
theorem unjoined (h : ∀ r keys, schema.relation? hop = some r → r.joinKeys? ≠ some keys) (record : Record) :
    Attached db store schema p [hop] record record where
  sorted h := h
  kept _ _ := rfl
  joined f r l k _ _ hf hr hkeys := by
    obtain rfl := List.mem_singleton.1 hf
    exact absurd hkeys (h r (l, k) hr)

theorem one {r : Relation} {l k : String} {foreign : CollectionSchema} {others : List Record}
    (hr : schema.relation? hop = some r) (hkeys : r.joinKeys? = some (l, k))
    (hforeign : db.schemas.get? r.foreignCollection = some foreign)
    (hothers : db.hydrate store foreign (store.rows r.foreignCollection) (p.unnest hop) = .ok others)
    (record : Record) :
    Attached db store schema p [hop] record
      (record.insert hop (.attachment (record.foreign? l k others))) where
  sorted h := Entries.sorted_insert h ..
  kept f hf := by
    have hne : hop ≠ f := by
      rintro rfl
      exact hf r (l, k) hr hkeys (List.mem_singleton_self hop)
    exact Entries.get?_insert_of_ne hne ..
  joined f r' l' k' foreign' others' hf hr' hkeys' hforeign' hothers' := by
    obtain rfl := List.mem_singleton.1 hf
    obtain rfl : r = r' := Option.some.inj (hr.symm.trans hr')
    rw [hkeys] at hkeys'
    cases hkeys'
    obtain rfl : foreign = foreign' := Option.some.inj (hforeign.symm.trans hforeign')
    obtain rfl : others = others' := Except.ok.inj (hothers.symm.trans hothers')
    exact Entries.get?_insert_self ..

/-- What was attached before does not change what is attached next: the key that a relation is joined by
is a column, so it is still the stored one. -/
theorem cons (hfirst : Attached db store schema p [hop] record mid)
    (hrest : Attached db store schema p heads mid out) (hnew : hop ∉ heads)
    (hlocal : ∀ hop r l k, schema.relation? hop = some r → r.joinKeys? = some (l, k) →
      (schema.column? l).isSome) :
    Attached db store schema p (hop :: heads) record out where
  sorted h := hrest.sorted (hfirst.sorted h)
  kept f hf := by
    rw [hrest.kept f fun r keys hr hkeys hmem => hf r keys hr hkeys (List.mem_cons_of_mem _ hmem)]
    refine hfirst.kept f fun r keys hr hkeys hmem => hf r keys hr hkeys ?_
    rw [List.mem_singleton.1 hmem]
    exact List.mem_cons_self
  joined f r l k foreign others hf hr hkeys hforeign hothers := by
    rcases List.mem_cons.1 hf with rfl | hf
    · rw [hrest.kept f fun _ _ _ _ => hnew]
      exact hfirst.joined f r l k foreign others (List.mem_singleton_self f) hr hkeys hforeign hothers
    · have hkey : mid.get? l = record.get? l := by
        refine hfirst.kept l fun r' _ hr' _ => ?_
        have hcolumn := hlocal f r l k hr hkeys
        rw [Memory.column?_eq_none_of_relation? hr'] at hcolumn
        cases hcolumn
      rw [hrest.joined f r l k foreign others hf hr hkeys hforeign hothers]
      unfold Record.foreign?
      rw [hkey]

end Attached

theorem exists_attached_of_foldlM {p : Projection} {heads : List (String × Unit)} {records out : List Record}
    (hlocal : ∀ hop r l k, schema.relation? hop = some r → r.joinKeys? = some (l, k) →
      (schema.column? l).isSome) (hnodup : (heads.map Prod.fst).Nodup)
    (h : heads.foldlM (fun out e => db.attach store schema out e.1 (p.unnest e.1)) records = .ok out) :
    ∃ g : Record → Record, out = records.map g ∧
      ∀ record, Attached db store schema p (heads.map Prod.fst) record (g record) := by
  induction heads generalizing records with
  | nil =>
    cases h
    exact ⟨id, by simp, fun record => .nil record p⟩
  | cons e rest ih =>
    obtain ⟨hnew, hnodup⟩ := List.nodup_cons.1 hnodup
    rw [List.foldlM_cons] at h
    obtain ⟨mid, hmid, h⟩ := Outcome.bind_eq_ok_iff.1 h
    obtain ⟨g, rfl, hg⟩ := ih hnodup h
    obtain ⟨rfl, hnone⟩ | ⟨r, l, k, foreign, others, hr, hkeys, hforeign, hothers, rfl⟩ :=
      attach_cases hmid
    · exact ⟨g, rfl, fun record => (Attached.unjoined hnone record).cons (hg record) hnew hlocal⟩
    · exact ⟨_, List.map_map, fun record =>
        (Attached.one hr hkeys hforeign hothers record).cons (hg _) hnew hlocal⟩

/-- A record that was hydrated. -/
theorem exists_attached {p : Projection} {records out : List Record}
    (hlocal : ∀ hop r l k, schema.relation? hop = some r → r.joinKeys? = some (l, k) →
      (schema.column? l).isSome)
    (h : db.hydrate store schema records p = .ok out) :
    ∃ g : Record → Record, out = records.map g ∧
      ∀ record, Attached db store schema p p.heads.keys record (g record) := by
  rw [hydrate_eq] at h
  exact exists_attached_of_foldlM hlocal p.heads.sorted.nodup h

end Database

end QueryLayer
