import QueryLayer.Proofs.Alike
import QueryLayer.Proofs.Memory.Joins
import QueryLayer.Proofs.Naming.Records

/-! # Attached records by public and by own names

A store relabels to one with the same records by public names. Where the keys of relations are columns,
the direct database attaches to relabelled records the relabelled records that the source attaches,
although it goes through the relations in the order of other names.
-/
namespace QueryLayer

namespace FieldNaming

def relabel (n : FieldNaming Store) (name : String) (record : Record) : Record :=
  Entries.rename (n.publicField name) record

/-- The same records by public names. -/
def relabelStore (n : FieldNaming Store) (store : Store) : Store :=
  store.mapEntries fun e => e.2.map (n.relabel e.1)

@[simp] theorem rows_relabelStore (n : FieldNaming Store) (store : Store) (name : String) :
    (n.relabelStore store).rows name = (store.rows name).map (n.relabel name) := by
  unfold relabelStore Store.rows
  rw [Dict.get?_mapEntries]
  cases store.get? name <;> rfl

theorem relabelStore_setRows (n : FieldNaming Store) (store : Store) (name : String) (rows : List Record) :
    n.relabelStore (store.setRows name rows) =
      (n.relabelStore store).setRows name (rows.map (n.relabel name)) := by
  refine Dict.ext fun other => ?_
  unfold relabelStore Store.setRows
  rw [Dict.get?_mapEntries, Dict.get?_insert, Dict.get?_insert, Dict.get?_mapEntries]
  by_cases hname : name = other
  · subst hname
    simp
  · simp [hname]

theorem joinKeys?_publicRelation (n : FieldNaming Store) (name : String) (r : Relation) :
    (n.publicRelation name r).joinKeys? =
      r.joinKeys?.map fun keys => (n.publicField name keys.1, n.publicField r.foreignCollection keys.2) := by
  obtain ⟨kind, foreignCollection, foreignKey, foreignKeyTarget, originKey, originKeyTarget, through⟩ := r
  unfold publicRelation Relation.joinKeys?
  cases kind with
  | oneToOne => cases originKeyTarget <;> cases originKey <;> rfl
  | manyToOne => cases foreignKey <;> cases foreignKeyTarget <;> rfl
  | oneToMany => rfl
  | manyToMany => rfl

variable {n : FieldNaming Store} {db : Database} {store : Store} {name : String} {schema : CollectionSchema}

theorem Faithful.foreign_direct (hn : n.Faithful db) {r : Relation} {foreign : CollectionSchema}
    (hforeign : db.schemas.get? r.foreignCollection = some foreign) :
    (n.direct db).schemas.get? (n.publicRelation name r).foreignCollection =
      some (n.view db r.foreignCollection foreign) := by
  rw [foreignCollection_publicRelation, get?_schemas_direct hn.child, hforeign]
  rfl

/-- Relations by public names are keyed by columns of the collection they are of, too. -/
theorem Faithful.isSome_column?_joinKey (hn : n.Faithful db) (hkeys : db.KeyedByColumns)
    (hs : db.schemas.get? name = some schema) {hop : String} {r' : Relation} {l k : String}
    (hr' : (n.view db name schema).relation? hop = some r') (hjoin : r'.joinKeys? = some (l, k)) :
    ((n.view db name schema).column? l).isSome := by
  obtain ⟨f, r, _, hr, rfl⟩ := (hn.relation?_view hs).1 hr'
  rw [joinKeys?_publicRelation] at hjoin
  obtain ⟨⟨l, k⟩, hown, hpublic⟩ := Option.map_eq_some_iff.1 hjoin
  cases hpublic
  obtain ⟨c, hc⟩ := Option.isSome_iff_exists.1 (hkeys name schema f r l k hs hr hown).1
  rw [hn.column?_public hs hc]
  rfl

theorem forall₂_rows (hn : n.Faithful db) (hstore : Memory.Tidy db store)
    (hs : db.schemas.get? name = some schema) :
    List.Forall₂ (Relabels n db name schema) (store.rows name) ((n.relabelStore store).rows name) := by
  rw [rows_relabelStore, List.forall₂_map_right_iff, List.forall₂_same]
  exact fun r hr => .of_fits hn hs (hstore.fitting name schema hs r hr) (hstore.sorted name r hr)

/-- Behind each relation the projections lead through, the records of the foreign collection are given
what they ask for, and relabel afterwards. -/
def ForeignRelabels (n : FieldNaming Store) (db : Database) (store : Store) (schema : CollectionSchema)
    (name : String) (p q : Projection) : Prop :=
  ∀ f r, (q.heads.get? f).isSome → schema.relation? f = some r → ∃ foreign others others',
    db.schemas.get? r.foreignCollection = some foreign ∧
    db.hydrate store foreign (store.rows r.foreignCollection) (q.unnest f) = .ok others ∧
    (n.direct db).hydrate (n.relabelStore store) (n.view db r.foreignCollection foreign)
      ((n.relabelStore store).rows r.foreignCollection) (p.unnest (n.publicField name f)) = .ok others' ∧
    List.Forall₂ (Relabels n db r.foreignCollection foreign) others others'

theorem ForeignRelabels.exists_hydrate {p q : Projection} (h : ForeignRelabels n db store schema name p q)
    (rows : List Record) : ∃ out, db.hydrate store schema rows q = .ok out := by
  refine Database.exists_hydrate (fun hop r hhop hr => ?_) rows
  obtain ⟨foreign, others, _, hfound, hothers, _⟩ := h hop r hhop hr
  exact ⟨foreign, others, hfound, hothers⟩

theorem ForeignRelabels.exists_hydrate_direct {p q : Projection}
    (h : ForeignRelabels n db store schema name p q) (hn : n.Faithful db)
    (hs : db.schemas.get? name = some schema) (hp : Translates n db name schema p q) (rows' : List Record) :
    ∃ out', (n.direct db).hydrate (n.relabelStore store) (n.view db name schema) rows' p = .ok out' := by
  refine Database.exists_hydrate (fun hop r' hhop hr' => ?_) rows'
  obtain ⟨f, r, hown, hr, rfl⟩ := (hn.relation?_view hs).1 hr'
  obtain ⟨f', hown', hf⟩ := hp.head_public hhop
  obtain rfl : f = f' := Except.ok.inj (hown.symm.trans hown')
  obtain ⟨foreign, _, others', hfound, _, hothers', _⟩ := h f r hf hr
  rw [hn.publicField_of_ownField hown] at hothers'
  refine ⟨n.view db r.foreignCollection foreign, others', hn.foreign_direct hfound, ?_⟩
  rw [foreignCollection_publicRelation]
  exact hothers'

namespace Relabels

variable {own shown : Record}

/-- Records that relabel are joined with foreign records that relabel. -/
theorem attachment (h : Relabels n db name schema own shown) {r : Relation} {foreign : CollectionSchema}
    {l k : String} (hl : (schema.column? l).isSome) (hk : (foreign.column? k).isSome)
    (hforeign : db.schemas.get? r.foreignCollection = some foreign) {others others' : List Record}
    (hothers : List.Forall₂ (Relabels n db r.foreignCollection foreign) others others') :
    Member n db r (some (.attachment (own.foreign? l k others)))
      (some (.attachment (shown.foreign? (n.publicField name l) (n.publicField r.foreignCollection k)
        others'))) := by
  obtain ⟨c, hc⟩ := Option.isSome_iff_exists.1 hl
  obtain ⟨d, hd⟩ := Option.isSome_iff_exists.1 hk
  unfold Record.foreign?
  rw [h.column_eq hc]
  dsimp only
  split
  · exact .null
  · obtain ⟨hnone, hnone'⟩ | ⟨a, b, ha, hb, hab⟩ := Outcome.find?_alike hothers
      (p := fun f => (f.get? k).any fun v => v.same ((own.get? l).getD .null))
      (q := fun f => (f.get? (n.publicField r.foreignCollection k)).any
        fun v => v.same ((own.get? l).getD .null))
      fun a b hab => by rw [hab.column_eq hd]
    · rw [hnone, hnone']
      exact .null
    · rw [ha, hb]
      exact .object hforeign hab

/-- What a relation comes to in a record and in its relabelling, once records are attached to both. -/
theorem member_of_attached (h : Relabels n db name schema own shown) (hn : n.Faithful db)
    (hkeys : db.KeyedByColumns) (hs : db.schemas.get? name = some schema) {p q : Projection}
    (hp : Translates n db name schema p q) {out out' : Record}
    (hout : Database.Attached db store schema q q.heads.keys own out)
    (hout' : Database.Attached (n.direct db) (n.relabelStore store) (n.view db name schema) p p.heads.keys
      shown out')
    (hforeign : ForeignRelabels n db store schema name p q) {f : String} {r : Relation}
    (hr : schema.relation? f = some r) :
    Member n db r (out.get? f) (out'.get? (n.publicField name f)) := by
  have hpublic := hn.relation?_public hs hr
  have hhead : n.publicField name f ∈ p.heads.keys ↔ f ∈ q.heads.keys := by
    rw [Dict.mem_keys_iff, hp.head_iff hn (.of_relation hs hr), ← Dict.mem_keys_iff]
  by_cases hjoined : f ∈ q.heads.keys ∧ ∃ keys, r.joinKeys? = some keys
  · obtain ⟨hf, ⟨l, k⟩, hjoin⟩ := hjoined
    obtain ⟨foreign, others, others', hfound, hothers, hothers', halike⟩ :=
      hforeign f r (Dict.mem_keys_iff.1 hf) hr
    obtain ⟨hl, hk⟩ := hkeys name schema f r l k hs hr hjoin
    have hjoin' : (n.publicRelation name r).joinKeys? =
        some (n.publicField name l, n.publicField r.foreignCollection k) := by
      rw [joinKeys?_publicRelation, hjoin]
      rfl
    rw [hout.joined f r l k foreign others hf hr hjoin hfound hothers,
      hout'.joined _ _ _ _ _ others' (hhead.2 hf) hpublic hjoin' (hn.foreign_direct hfound)
        (by rw [foreignCollection_publicRelation]; exact hothers')]
    exact h.attachment hl (hk foreign hfound) hfound halike
  · -- nothing is attached at the relation, whichever its names
    rw [hout.kept f fun r' keys hr' hjoin hf => ?_, hout'.kept _ fun r' keys hr' hjoin hf => ?_]
    · exact h.member hr
    · obtain rfl : n.publicRelation name r = r' := Option.some.inj (hpublic.symm.trans hr')
      rw [joinKeys?_publicRelation] at hjoin
      obtain ⟨keys', hjoin, _⟩ := Option.map_eq_some_iff.1 hjoin
      exact hjoined ⟨hhead.1 hf, keys', hjoin⟩
    · obtain rfl : r = r' := Option.some.inj (hr.symm.trans hr')
      exact hjoined ⟨hf, keys, hjoin⟩

/-- What is attached to a record and to its relabelling. -/
theorem attached (h : Relabels n db name schema own shown) (hn : n.Faithful db)
    (hkeys : db.KeyedByColumns) (hs : db.schemas.get? name = some schema) {p q : Projection}
    (hp : Translates n db name schema p q) {out out' : Record}
    (hout : Database.Attached db store schema q q.heads.keys own out)
    (hout' : Database.Attached (n.direct db) (n.relabelStore store) (n.view db name schema) p p.heads.keys
      shown out')
    (hforeign : ForeignRelabels n db store schema name p q) : Relabels n db name schema out out' := by
  refine .of_members (hout.sorted h.sorted) (hout'.sorted h.sorted_shown) (fun f hf => ?_) (fun g hg => ?_)
    (fun f c hc => ?_) fun f r hr => h.member_of_attached hn hkeys hs hp hout hout' hforeign hr
  · cases hr : schema.relation? f with
    | some r => exact CollectionSchema.isSome_get?_of_relation? hr
    | none =>
      rw [hout.kept f fun r _ hr' => by rw [hr] at hr'; cases hr'] at hf
      exact h.isSome_field hf
  · cases hr : (n.view db name schema).relation? g with
    | some r' =>
      obtain ⟨f, r, hown, hr, _⟩ := (hn.relation?_view hs).1 hr
      exact ⟨f, hown, CollectionSchema.isSome_get?_of_relation? hr⟩
    | none =>
      rw [hout'.kept g fun r _ hr' => by rw [hr] at hr'; cases hr'] at hg
      exact h.exists_field hg
  · have hshown := hn.column?_public hs hc
    have hkept : out.get? f = own.get? f := by
      refine hout.kept f fun r _ hr => ?_
      rw [Memory.column?_eq_none_of_relation? hr] at hc
      cases hc
    have hkept' : out'.get? (n.publicField name f) = shown.get? (n.publicField name f) := by
      refine hout'.kept _ fun r _ hr => ?_
      rw [Memory.column?_eq_none_of_relation? hr] at hshown
      cases hshown
    rw [hkept, hkept']
    exact h.column_eq hc

end Relabels

/-- By induction on how deep the projection leads: the foreign records are behind one relation less. -/
theorem exists_hydrate_relabels (hn : n.Faithful db) (hkeys : db.KeyedByColumns)
    (hstore : Memory.Tidy db store) (hs : db.schemas.get? name = some schema) {p q : Projection}
    (hp : Translates n db name schema p q) {rows rows' : List Record}
    (hrows : List.Forall₂ (Relabels n db name schema) rows rows') :
    ∃ out out', db.hydrate store schema rows q = .ok out ∧
      (n.direct db).hydrate (n.relabelStore store) (n.view db name schema) rows' p = .ok out' ∧
      List.Forall₂ (Relabels n db name schema) out out' := by
  induction hdepth : q.depth using Nat.strongRecOn generalizing name schema p q rows rows' with
  | ind depth ih =>
    subst hdepth
    have hforeign : ForeignRelabels n db store schema name p q := by
      intro f r hf hr
      obtain ⟨g, r', foreign, hg, _, hr', _, hfound⟩ := hp.head_own hf
      obtain rfl : r = r' := Option.some.inj (hr.symm.trans hr')
      obtain rfl := hn.publicField_of_ownField hg
      have hdepth := Projection.depth_unnest_lt (Projection.isSome_get?_heads_iff.1 hf)
      obtain ⟨others, others', hothers, hothers', halike⟩ :=
        ih _ hdepth hfound (hp.unnest hn hg hr hfound) (forall₂_rows hn hstore hfound) rfl
      exact ⟨foreign, others, others', hfound, hothers, hothers', halike⟩
    obtain ⟨out, hout⟩ := hforeign.exists_hydrate rows
    obtain ⟨out', hout'⟩ := hforeign.exists_hydrate_direct hn hs hp rows'
    refine ⟨out, out', hout, hout', ?_⟩
    obtain ⟨g, rfl, hg⟩ := Database.exists_attached (hkeys.isSome_localKey hs) hout
    obtain ⟨g', rfl, hg'⟩ := Database.exists_attached
      (fun _ _ _ _ hr' hjoin => hn.isSome_column?_joinKey hkeys hs hr' hjoin) hout'
    rw [List.forall₂_map_left_iff, List.forall₂_map_right_iff]
    exact hrows.imp fun own shown h => h.attached hn hkeys hs hp (hg own) (hg' shown) hforeign

end FieldNaming

end QueryLayer
