import QueryLayer.Proofs.Naming.Reads

/-! # Aggregating by public and by own names

Groups are keyed by paths, so those of the direct database are those of the source by other names. No two
groups become one, they have the same members, and their rows come out in one order.
-/
namespace QueryLayer.FieldNaming

variable {n : FieldNaming Store} {db : Database} {store : Store} {name : String} {schema : CollectionSchema}
  {own shown : Record}

/-- The public name of an own path. -/
def groupName (n : FieldNaming Store) (db : Database) (name : String) (schema : CollectionSchema)
    (f : String) : String :=
  (n.publicPath (Memory.collection db name schema) f).toOption.getD ""

theorem groupName_eq (hn : n.Faithful db) {g f : String} (h : SamePath n db name schema g f) :
    groupName n db name schema f = g := by
  obtain ⟨c, hc⟩ := h
  unfold groupName
  rw [hc.publicPath_eq hn]
  rfl

/-- A path that leads to a column, also by public names. -/
def Known (n : FieldNaming Store) (db : Database) (name : String) (schema : CollectionSchema) (f : String) :
    Prop :=
  ∃ g, SamePath n db name schema g f

theorem groupName_inj (hn : n.Faithful db) (a b : String) (ha : Known n db name schema a)
    (hb : Known n db name schema b) (heq : groupName n db name schema a = groupName n db name schema b) :
    a = b := by
  obtain ⟨g, hga⟩ := ha
  obtain ⟨g', hgb⟩ := hb
  rw [groupName_eq hn hga, groupName_eq hn hgb] at heq
  subst heq
  obtain ⟨c, hc⟩ := hga
  obtain ⟨d, hd⟩ := hgb
  have hown := ((leads_iff_ownPath hn).1 hc).1
  rw [((leads_iff_ownPath hn).1 hd).1] at hown
  exact (Except.ok.inj hown).symm

/-- The key of a group, by own and by public names. -/
structure SameGroup (n : FieldNaming Store) (db : Database) (name : String) (schema : CollectionSchema)
    (key key' : Record) : Prop where
  sorted : Entries.Sorted key
  known : ∀ e ∈ key, Known n db name schema e.1
  renamed : key' = Entries.rename (groupName n db name schema) key

theorem SameGroup.eq_iff (hn : n.Faithful db) {a a' b b' : Record} (ha : SameGroup n db name schema a a')
    (hb : SameGroup n db name schema b b') : a = b ↔ a' = b' := by
  rw [ha.renamed, hb.renamed]
  constructor
  · rintro rfl
    rfl
  · exact Entries.rename_inj (groupName_inj hn) ha.sorted hb.sorted ha.known hb.known

theorem SameGroup.insert (hn : n.Faithful db) {key key' : Record}
    (h : SameGroup n db name schema key key') {g f : String} (hpath : SamePath n db name schema g f)
    (v : Value) : SameGroup n db name schema (key.insert f v) (key'.insert g v) := by
  refine ⟨Entries.sorted_insert h.sorted f v, fun e he => ?_, ?_⟩
  · rcases Entries.mem_insert he with rfl | he
    · exact ⟨g, hpath⟩
    · exact h.known e he
  · rw [h.renamed, ← groupName_eq hn hpath]
    exact (Entries.rename_insert (groupName_inj hn) h.known h.sorted ⟨g, hpath⟩ v).symm

theorem SameGroup.nil : SameGroup n db name schema [] [] where
  sorted := Entries.sorted_nil
  known e he := by cases he
  renamed := rfl

theorem groupOf_alike (hn : n.Faithful db) {b a : Aggregation} (hsame : SameAggregation n db name schema b a)
    (h : Relabels n db name schema own shown) :
    SameGroup n db name schema (a.groupOf own) (b.groupOf shown) := by
  unfold Aggregation.groupOf
  refine List.rel_foldl (P := SameGroup n db name schema)
    (R := fun f g => f.unit = g.unit ∧ SamePath n db name schema g.field f.field)
    (fun key key' hkey f g hgroup => ?_) .nil hsame.groups.flip
  dsimp only
  rw [hgroup.1, h.value_eq hgroup.2 hn]
  exact hkey.insert hn hgroup.2 _

theorem compute_eq (hn : n.Faithful db) {b a : Aggregation} (hsame : SameAggregation n db name schema b a)
    {rows rows' : List Record} (hrows : List.Forall₂ (Relabels n db name schema) rows rows') :
    a.compute rows = b.compute rows' := by
  refine Aggregation.compute_alike hsame.function ?_ hrows
  obtain ⟨hb, ha⟩ | ⟨g, f, hb, ha, hpath⟩ := hsame.field
  · rw [hb, ha]
    exact .none
  · rw [hb, ha]
    exact .some (hpath.sameValue hn)

/-! ## Rows -/

/-- A row, by own and by public names. -/
def SameRow (n : FieldNaming Store) (db : Database) (name : String) (schema : CollectionSchema)
    (row row' : AggregateRow) : Prop :=
  row.value = row'.value ∧ SameGroup n db name schema row.group row'.group

theorem SameRow.publicRow_eq (hn : n.Faithful db) {row row' : AggregateRow}
    (h : SameRow n db name schema row row') :
    n.publicRow (Memory.collection db name schema) row = .ok row' := by
  obtain ⟨value, key⟩ := row
  obtain ⟨value', key'⟩ := row'
  obtain ⟨hvalue, hkey⟩ := h
  have hpublic : ∀ e ∈ key, (do pure (← n.publicPath (Memory.collection db name schema) e.1, e.2) :
      Except Error (String × Value)) = .ok (groupName n db name schema e.1, e.2) := by
    intro e he
    obtain ⟨g, c, hc⟩ := hkey.known e he
    rw [groupName_eq hn ⟨c, hc⟩, hc.publicPath_eq hn]
    rfl
  unfold publicRow
  rw [Outcome.mapM_eq_ok_map hpublic, Outcome.ok_bind]
  refine congrArg Except.ok ?_
  rw [AggregateRow.mk.injEq]
  exact ⟨hvalue, hkey.renamed.symm⟩

theorem apply_alike (hn : n.Faithful db) {b a : Aggregation} (hsame : SameAggregation n db name schema b a)
    {rows rows' : List Record} (hrows : List.Forall₂ (Relabels n db name schema) rows rows')
    (limit : Option Nat) :
    List.Forall₂ (SameRow n db name schema) (a.apply rows limit) (b.apply rows' limit) :=
  Aggregation.apply_alike (fun ha hb => ha.eq_iff hn hb) (fun _ _ h => groupOf_alike hn hsame h)
    (fun _ _ h => compute_eq hn hsame h) hrows limit

theorem translates_of_sameAggregation {b a : Aggregation} (hsame : SameAggregation n db name schema b a) :
    Translates n db name schema b.projection a.projection := by
  refine .ofList (List.rel_append ?_ ?_)
  · obtain ⟨hb, ha⟩ | ⟨g, f, hb, ha, hpath⟩ := hsame.field
    · rw [hb, ha]
      exact .nil
    · rw [hb, ha]
      exact .cons hpath .nil
  · rw [List.forall₂_map_left_iff, List.forall₂_map_right_iff]
    exact hsame.groups.imp fun _ _ h => h.2

/-- An aggregation through the naming, and the same aggregation of the direct database. -/
theorem aggregate_alike (hn : n.Faithful db) (hkeys : db.KeyedByColumns) (hstore : Memory.Tidy db store)
    (hs : db.schemas.get? name = some schema) (filter : Filter) (aggregation : Aggregation)
    (limit : Option Nat) :
    Outcome.Alike Eq
      (do
        let f ← n.ownFilter (Memory.collection db name schema) filter
        let a ← n.ownAggregation (Memory.collection db name schema) aggregation
        let rows ← Memory.aggregate db store name schema f a limit
        rows.mapM (n.publicRow (Memory.collection db name schema)))
      (Memory.aggregate (n.direct db) (n.relabelStore store) name (n.view db name schema) filter aggregation
        limit) := by
  unfold Memory.aggregate
  simp only [bind_assoc]
  refine .of_translated₂ (checkFilter_iff hn hs filter) (checkAggregation_iff hn hs aggregation)
    fun f a hf hpass ha hpass' => ?_
  have hsame := sameAggregation_of_ownAggregation hn ha hpass'
  refine (select_alike hn hkeys hstore hs (sameFilter_of_ownFilter hn hf hpass)
    (translates_of_sameAggregation hsame)).bind fun rows rows' hrows => ?_
  have hreturned : ((a.apply rows limit).mapM (n.publicRow (Memory.collection db name schema))) =
      .ok (aggregation.apply rows' limit) :=
    Outcome.mapM_eq_ok_iff.2 ((apply_alike hn hsame hrows limit).imp fun _ _ h => h.publicRow_eq hn)
  change Outcome.Alike Eq ((a.apply rows limit).mapM (n.publicRow (Memory.collection db name schema))) _
  rw [hreturned]
  exact .ok rfl

end QueryLayer.FieldNaming
