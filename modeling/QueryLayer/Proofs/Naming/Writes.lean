import QueryLayer.Proofs.Memory.Fitting
import QueryLayer.Proofs.Naming.Keys

/-! # Writing by public and by own names

A written record and its translation have the same members, so that they get the same defaults, pass the
same checks and change stored records in the same way. What a write through the naming stores relabels to
what the same write stores in the direct database.
-/
namespace QueryLayer.FieldNaming

variable {n : FieldNaming Store} {db : Database} {store : Store} {name : String} {schema : CollectionSchema}
  {own shown : Record}

/-! ## Written records -/

/-- The same members, by own and by public names. -/
structure SameEntries (n : FieldNaming Store) (name : String) (own shown : Record) : Prop where
  sorted : Entries.Sorted own
  sorted_shown : Entries.Sorted shown
  forth : ∀ f v, own.get? f = some v → ∃ g, n.ownField name g = .ok f ∧ shown.get? g = some v
  back : ∀ g v, shown.get? g = some v → ∃ f, n.ownField name g = .ok f ∧ own.get? f = some v

namespace SameEntries

theorem get?_publicField (h : SameEntries n name own shown) (hn : n.Faithful db) {f : String}
    (hf : db.HasField name f) : shown.get? (n.publicField name f) = own.get? f := by
  cases hown : own.get? f with
  | some v =>
    obtain ⟨g, hg, hshown⟩ := h.forth f v hown
    rw [hn.publicField_of_ownField hg, hshown]
  | none =>
    cases hshown : shown.get? (n.publicField name f) with
    | none => rfl
    | some v =>
      obtain ⟨f', hf', hown'⟩ := h.back _ v hshown
      rw [hn.ownField_publicField hf] at hf'
      cases hf'
      rw [hown] at hown'
      cases hown'

theorem fits_iff (h : SameEntries n name own shown) (hn : n.Faithful db)
    (hs : db.schemas.get? name = some schema) : shown.Fits (n.view db name schema) ↔ own.Fits schema := by
  constructor
  · rintro hfits ⟨f, v⟩ he
    obtain ⟨g, hg, hshown⟩ := h.forth f v (Entries.get?_of_mem h.sorted he)
    obtain ⟨c, hc, hv⟩ := hfits.get? hshown
    obtain ⟨f', hf', hc⟩ := (hn.column?_view hs).1 hc
    rw [hg] at hf'
    cases hf'
    exact ⟨c, hc, hv⟩
  · rintro hfits ⟨g, v⟩ he
    obtain ⟨f, hf, hown⟩ := h.back g v (Entries.get?_of_mem h.sorted_shown he)
    obtain ⟨c, hc, hv⟩ := hfits.get? hown
    exact ⟨c, (hn.column?_view hs).2 ⟨f, hf, hc⟩, hv⟩

theorem relabels (h : SameEntries n name own shown) (hn : n.Faithful db)
    (hs : db.schemas.get? name = some schema) (hfits : own.Fits schema) :
    Relabels n db name schema own shown := by
  refine .of_same_members hs h.sorted h.sorted_shown hfits (fun f hf => h.get?_publicField hn hf) fun g hg => ?_
  obtain ⟨v, hv⟩ := Option.isSome_iff_exists.1 hg
  obtain ⟨f, hf, hown⟩ := h.back g v hv
  exact ⟨f, hf, by rw [hown]; rfl⟩

/-- Columns keep their defaults. -/
theorem withDefaults (h : SameEntries n name own shown) (hn : n.Faithful db)
    (hs : db.schemas.get? name = some schema) :
    SameEntries n name (Memory.withDefaults schema own) (Memory.withDefaults (n.view db name schema) shown) := by
  refine ⟨Memory.sorted_withDefaults h.sorted _, Memory.sorted_withDefaults h.sorted_shown _,
    fun f v hv => ?_, fun g v hv => ?_⟩
  · rw [Memory.get?_withDefaults] at hv
    rcases Option.or_eq_some_iff.1 hv with hv | ⟨hnone, hv⟩
    · obtain ⟨g, hg, hshown⟩ := h.forth f v hv
      exact ⟨g, hg, by rw [Memory.get?_withDefaults, hshown, Option.some_or]⟩
    · obtain ⟨c, hc, _⟩ := Option.bind_eq_some_iff.1 hv
      have hf : db.HasField name f := .of_column hs hc
      refine ⟨n.publicField name f, hn.ownField_publicField hf, ?_⟩
      rw [Memory.get?_withDefaults, h.get?_publicField hn hf, hnone, Option.none_or,
        hn.column?_publicField hs hf]
      exact hv
  · rw [Memory.get?_withDefaults] at hv
    rcases Option.or_eq_some_iff.1 hv with hv | ⟨hnone, hv⟩
    · obtain ⟨f, hf, hown⟩ := h.back g v hv
      exact ⟨f, hf, by rw [Memory.get?_withDefaults, hown, Option.some_or]⟩
    · obtain ⟨c, hc, hdefault⟩ := Option.bind_eq_some_iff.1 hv
      obtain ⟨f, hg, hc⟩ := (hn.column?_view hs).1 hc
      have hf : db.HasField name f := .of_column hs hc
      refine ⟨f, hg, ?_⟩
      rw [← hn.publicField_of_ownField hg, h.get?_publicField hn hf] at hnone
      rw [Memory.get?_withDefaults, hnone, Option.none_or, hc, Option.bind_some]
      exact hdefault

end SameEntries

theorem sameEntries_of_ownRecord (hn : n.Faithful db) (hsorted : Entries.Sorted shown)
    {c : Collection Store} (h : n.ownRecord c shown = .ok own) : SameEntries n c.name own shown := by
  unfold ownRecord at h
  obtain ⟨entries, hentries, h⟩ := Outcome.bind_eq_ok_iff.1 h
  cases h
  have hall : List.Forall₂ (fun e d : String × Value => n.ownField c.name e.1 = .ok d.1 ∧ d.2 = e.2) shown
      entries := by
    refine (Outcome.mapM_eq_ok_iff.1 hentries).imp fun e d hd => ?_
    obtain ⟨f, hf, hd⟩ := Outcome.bind_eq_ok_iff.1 hd
    cases hd
    exact ⟨hf, rfl⟩
  -- different public names come from different own ones
  have hnodup : (entries.map Prod.fst).Nodup := by
    refine List.Nodup.of_map (n.publicField c.name) ?_
    have hnames : (entries.map Prod.fst).map (n.publicField c.name) = shown.map Prod.fst := by
      rw [List.map_map, eq_comm, ← List.forall₂_eq_eq_eq, List.forall₂_map_left_iff,
        List.forall₂_map_right_iff]
      exact hall.imp fun e d hd => (hn.publicField_of_ownField hd.1).symm
    rw [hnames]
    exact hsorted.nodup
  refine ⟨Entries.sorted_ofList entries, hsorted, fun f v hv => ?_, fun g v hv => ?_⟩
  · have hmem := Entries.mem_of_mem_ofList (Entries.get?_eq_some_mem hv)
    obtain ⟨e, he, hown, heq⟩ := Outcome.exists_of_mem_right hall hmem
    dsimp only at hown heq
    subst heq
    exact ⟨e.1, hown, Entries.get?_of_mem hsorted he⟩
  · obtain ⟨d, hd, hown, heq⟩ := Outcome.exists_of_mem_left hall (Entries.get?_eq_some_mem hv)
    dsimp only at hown heq
    subst heq
    exact ⟨d.1, hown, (Entries.get?_ofList hnodup d.1).trans (Entries.get?_of_mem_of_nodup hnodup hd)⟩

theorem sorted_of_ownRecord {c : Collection Store} (h : n.ownRecord c shown = .ok own) :
    Entries.Sorted own := by
  obtain ⟨entries, _, h⟩ := Outcome.bind_eq_ok_iff.1 h
  cases h
  exact Entries.sorted_ofList entries

theorem exists_ownRecord (hn : n.Faithful db) (hs : db.schemas.get? name = some schema)
    (hcolumns : ∀ e ∈ shown, ((n.view db name schema).column? e.1).isSome) :
    ∃ own, n.ownRecord (Memory.collection db name schema) shown = .ok own := by
  have htranslated : ∀ e ∈ shown, ∃ d : String × Value, n.ownField name e.1 = .ok d.1 ∧ d.2 = e.2 := by
    intro e he
    obtain ⟨c, hc⟩ := Option.isSome_iff_exists.1 (hcolumns e he)
    obtain ⟨f, hf, _⟩ := (hn.column?_view hs).1 hc
    exact ⟨(f, e.2), hf, rfl⟩
  obtain ⟨entries, hentries⟩ := Outcome.exists_forall₂ htranslated
  refine ⟨Entries.ofList entries, Outcome.bind_eq_ok_iff.2 ⟨entries, ?_, rfl⟩⟩
  refine Outcome.mapM_eq_ok_iff.2 (hentries.imp fun e d hd => Outcome.bind_eq_ok_iff.2 ⟨d.1, hd.1, ?_⟩)
  rw [← hd.2]
  rfl

theorem checkRecord_iff (hn : n.Faithful db) (hs : db.schemas.get? name = some schema)
    (hsorted : Entries.Sorted shown) : (n.shownScope db name schema).checkRecord shown = .ok () ↔
      ∃ own, n.ownRecord (Memory.collection db name schema) shown = .ok own ∧
        (db.scope name schema).checkRecord own = .ok () := by
  simp only [Scope.checkRecord_eq_ok_iff]
  constructor
  · intro hfits
    have hcolumns : ∀ e ∈ shown, ((n.view db name schema).column? e.1).isSome := by
      intro e he
      obtain ⟨c, hc, _⟩ := hfits e he
      exact Option.isSome_iff_exists.2 ⟨c, hc⟩
    obtain ⟨own, hown⟩ := exists_ownRecord hn hs hcolumns
    exact ⟨own, hown, ((sameEntries_of_ownRecord hn hsorted hown).fits_iff hn hs).1 hfits⟩
  · rintro ⟨own, hown, hfits⟩
    exact ((sameEntries_of_ownRecord hn hsorted hown).fits_iff hn hs).2 hfits

/-! ## Creation -/

/-- One record, with its defaults and checked. -/
theorem prepared_alike (hn : n.Faithful db) (hs : db.schemas.get? name = some schema)
    (hsorted : Entries.Sorted shown) :
    Outcome.Alike (Relabels n db name schema)
      (n.ownRecord (Memory.collection db name schema) shown >>= fun own =>
        (db.scope name schema).checkRecord (Memory.withDefaults schema own) >>= fun _ =>
          pure (Memory.withDefaults schema own))
      ((n.shownScope db name schema).checkRecord (Memory.withDefaults (n.view db name schema) shown) >>=
        fun _ => pure (Memory.withDefaults (n.view db name schema) shown)) := by
  have hfits : ∀ {own : Record}, n.ownRecord (Memory.collection db name schema) shown = .ok own →
      ((Memory.withDefaults (n.view db name schema) shown).Fits (n.view db name schema) ↔
        (Memory.withDefaults schema own).Fits schema) := fun hown =>
    ((sameEntries_of_ownRecord hn hsorted hown).withDefaults hn hs).fits_iff hn hs
  refine .of_translated ?_ fun own hown hpass => .ok ?_
  · simp only [Scope.checkRecord_eq_ok_iff]
    constructor
    · intro hpass
      have hcolumns : ∀ e ∈ shown, ((n.view db name schema).column? e.1).isSome := by
        intro e he
        have hget : (Memory.withDefaults (n.view db name schema) shown).get? e.1 = some e.2 := by
          rw [Memory.get?_withDefaults, Record.get?, Entries.get?_of_mem hsorted he, Option.some_or]
        obtain ⟨c, hc, _⟩ := Record.Fits.get? hpass hget
        exact Option.isSome_iff_exists.2 ⟨c, hc⟩
      obtain ⟨own, hown⟩ := exists_ownRecord hn hs hcolumns
      exact ⟨own, hown, (hfits hown).1 hpass⟩
    · rintro ⟨own, hown, hpass⟩
      exact (hfits hown).2 hpass
  · exact ((sameEntries_of_ownRecord hn hsorted hown).withDefaults hn hs).relabels hn hs
      (Scope.checkRecord_eq_ok_iff.1 hpass)

theorem prepare_alike (hn : n.Faithful db) (hs : db.schemas.get? name = some schema)
    {records : List Record} (hsorted : ∀ r ∈ records, Entries.Sorted r) :
    Outcome.Alike (List.Forall₂ (Relabels n db name schema))
      (records.mapM (n.ownRecord (Memory.collection db name schema)) >>=
        Memory.prepare (db.scope name schema))
      (Memory.prepare (n.shownScope db name schema) records) :=
  .mapM_bind_mapM fun r hr => prepared_alike hn hs (hsorted r hr)

/-- Records that relabel, put over records that relabel. -/
theorem Relabels.patched {patch patch' : Record} (hpatch : Relabels n db name schema patch patch')
    (h : Relabels n db name schema own shown) :
    Relabels n db name schema (Memory.patched patch own) (Memory.patched patch' shown) := by
  have hget : ∀ {p r : Record}, Entries.Sorted p → ∀ f, (Memory.patched p r).get? f =
      (p.get? f).or (r.get? f) := fun hp f => Entries.get?_foldl_insert hp.nodup _ f
  refine .of_members (Entries.sorted_foldl_insert _ _ _ h.sorted)
    (Entries.sorted_foldl_insert _ _ _ h.sorted_shown) (fun f hf => ?_) (fun g hg => ?_) (fun f c hc => ?_)
    fun f r hr => ?_
  · rw [hget hpatch.sorted, Option.isSome_or, Bool.or_eq_true] at hf
    exact hf.elim hpatch.isSome_field h.isSome_field
  · rw [hget hpatch.sorted_shown, Option.isSome_or, Bool.or_eq_true] at hg
    exact hg.elim hpatch.exists_field h.exists_field
  · rw [hget hpatch.sorted, hget hpatch.sorted_shown, hpatch.column_eq hc, h.column_eq hc]
  · rw [hget hpatch.sorted, hget hpatch.sorted_shown]
    have hmember := hpatch.member hr
    generalize patch.get? f = v at hmember
    generalize patch'.get? (n.publicField name f) = w at hmember
    cases hmember with
    | absent =>
      rw [Option.none_or, Option.none_or]
      exact h.member hr
    | null => exact .null
    | object hforeign hab => exact .object hforeign hab

/-- The id that the store assigns is written to the same column. -/
theorem Relabels.insert_assigned (h : Relabels n db name schema own shown) (hn : n.Faithful db)
    (hs : db.schemas.get? name = some schema) {pk : String} (hkey : Memory.assignedKey? schema = some pk)
    (i : Int) :
    Relabels n db name schema (own.insert pk (.int i)) (shown.insert (n.publicField name pk) (.int i)) := by
  obtain ⟨c, hc, hv⟩ := Memory.checkValue_of_assignedKey hkey i
  have hfits : Record.Fits schema [(pk, .int i)] := by
    intro e he
    obtain rfl := List.mem_singleton.1 he
    exact ⟨c, hc, hv⟩
  exact (Relabels.of_fits hn hs hfits (List.pairwise_singleton _ _)).patched h

/-- Both records get the same integer, or neither gets one. -/
theorem Relabels.keyedFrom (h : Relabels n db name schema own shown) (hn : n.Faithful db)
    (hs : db.schemas.get? name = some schema) {next next' : Int}
    (hnext : ∀ pk, Memory.assignedKey? schema = some pk → next = next') :
    Relabels n db name schema (Memory.keyedFrom (Memory.assignedKey? schema) own next).1
        (Memory.keyedFrom ((Memory.assignedKey? schema).map (n.publicField name)) shown next').1 ∧
      ∀ pk, Memory.assignedKey? schema = some pk →
        (Memory.keyedFrom (Memory.assignedKey? schema) own next).2 =
          (Memory.keyedFrom ((Memory.assignedKey? schema).map (n.publicField name)) shown next').2 := by
  unfold Memory.keyedFrom
  cases hkey : Memory.assignedKey? schema with
  | none => exact ⟨h, fun _ hnone => by cases hnone⟩
  | some pk =>
    have hmem : pk ∈ schema.primaryKeys := by
      rw [Memory.primaryKeys_of_assignedKey hkey]
      exact List.mem_singleton_self pk
    obtain rfl := hnext pk hkey
    dsimp only [Option.map_some]
    rw [h.primaryKey_eq hmem]
    split
    · exact ⟨h.insert_assigned hn hs hkey next, fun _ _ => rfl⟩
    · exact ⟨h, fun _ _ => rfl⟩

theorem assign_alike (hn : n.Faithful db) (hs : db.schemas.get? name = some schema)
    {records records' : List Record} (hrecords : List.Forall₂ (Relabels n db name schema) records records')
    {ids ids' : List CompositeId} (hids : List.Forall₂ (SameId n db name schema) ids ids') {next next' : Int}
    (hnext : ∀ pk, Memory.assignedKey? schema = some pk → next = next') :
    Outcome.Alike (List.Forall₂ (Relabels n db name schema))
      (Memory.assign schema (Memory.assignedKey? schema) records ids next)
      (Memory.assign (n.view db name schema) (Memory.assignedKey? (n.view db name schema)) records' ids'
        next') := by
  rw [assignedKey?_view hn hs]
  induction hrecords generalizing ids ids' next next' with
  | nil => exact .ok .nil
  | @cons record record' rest rest' hrecord _ ih =>
    obtain ⟨hfirst, hlater⟩ := hrecord.keyedFrom hn hs hnext
    rw [Memory.assign_cons_eq, Memory.assign_cons_eq]
    refine (hfirst.id_alike hn hs).bind fun id id' hid => ?_
    rw [hasId_eq hn hs hids hid]
    split
    · exact .error _ _
    · exact (ih (List.rel_append hids (.cons hid .nil)) hlater).bind fun others others' hothers =>
        .ok (.cons hfirst hothers)

theorem creation_alike (hn : n.Faithful db) (hs : db.schemas.get? name = some schema)
    {stored stored' : List Record} (hstored : List.Forall₂ (Relabels n db name schema) stored stored')
    {records : List Record} (hsorted : ∀ r ∈ records, Entries.Sorted r) :
    Outcome.Alike (List.Forall₂ (Relabels n db name schema))
      (records.mapM (n.ownRecord (Memory.collection db name schema)) >>=
        Memory.creation (db.scope name schema) stored)
      (Memory.creation (n.shownScope db name schema) stored' records) := by
  have hids := idsOf_alike hn hs hstored
  have halike := (prepare_alike hn hs hsorted).bind fun prepared prepared' hprepared =>
    assign_alike hn hs hprepared hids fun pk hkey => nextId_eq hn hs hkey hids
  rw [bind_assoc] at halike
  exact halike

/-! ## Update -/

theorem find?_readOnly_iff (hn : n.Faithful db) (hs : db.schemas.get? name = some schema)
    (h : SameEntries n name own shown) :
    (own.find? fun e => (schema.column? e.1).any Column.isReadOnly) = none ↔
      (shown.find? fun e => ((n.view db name schema).column? e.1).any Column.isReadOnly) = none := by
  rw [List.find?_eq_none, List.find?_eq_none]
  simp only [Option.any_eq_true, not_exists, not_and]
  constructor
  · rintro hnone ⟨g, v⟩ he c hc
    obtain ⟨f, hf, hown⟩ := h.back g v (Entries.get?_of_mem h.sorted_shown he)
    obtain ⟨f', hf', hc⟩ := (hn.column?_view hs).1 hc
    rw [hf] at hf'
    cases hf'
    exact hnone (f, v) (Entries.get?_eq_some_mem hown) c hc
  · rintro hnone ⟨f, v⟩ he c hc
    obtain ⟨g, hg, hshown⟩ := h.forth f v (Entries.get?_of_mem h.sorted he)
    exact hnone (g, v) (Entries.get?_eq_some_mem hshown) c ((hn.column?_view hs).2 ⟨f, hg, hc⟩)

theorem updated_alike (hn : n.Faithful db) (hkeys : db.KeyedByColumns) (hstore : Memory.Tidy db store)
    (hs : db.schemas.get? name = some schema) (filter : Filter) {patch : Record}
    (hsorted : Entries.Sorted patch) :
    Outcome.Alike (List.Forall₂ (Relabels n db name schema))
      (do
        let f ← n.ownFilter (Memory.collection db name schema) filter
        let p ← n.ownRecord (Memory.collection db name schema) patch
        Memory.updated db store name schema f p)
      (Memory.updated (n.direct db) (n.relabelStore store) name (n.view db name schema) filter patch) := by
  unfold Memory.updated
  refine .of_translated₂ (checkFilter_iff hn hs filter) (checkRecord_iff hn hs hsorted)
    fun f p hf hpass hp hpass' => ?_
  have hentries := sameEntries_of_ownRecord hn hsorted hp
  have hpatch := hentries.relabels hn hs (Scope.checkRecord_eq_ok_iff.1 hpass')
  have hreadOnly := find?_readOnly_iff hn hs hentries
  generalize (p.find? fun e => (schema.column? e.1).any Column.isReadOnly) = x at hreadOnly
  generalize (patch.find? fun e => ((n.view db name schema).column? e.1).any Column.isReadOnly) = y
    at hreadOnly
  match x, y, hreadOnly with
  | some _, some _, _ => exact .error _ _
  | none, none, _ =>
    refine (matchingIds_alike hn hkeys hstore hs (sameFilter_of_ownFilter hn hf hpass)).bind
      fun ids ids' hids => .ok ?_
    rw [List.forall₂_map_left_iff, List.forall₂_map_right_iff]
    refine (forall₂_rows hn hstore hs).imp fun r r' hr => ?_
    rw [isTarget_eq hn hs hids hr]
    split
    · exact hpatch.patched hr
    · exact hr
  | none, some _, h => exact absurd (h.1 rfl) (by simp)
  | some _, none, h => exact absurd (h.2 rfl) (by simp)

/-! ## Deletion -/

theorem remaining_alike (hn : n.Faithful db) (hkeys : db.KeyedByColumns) (hstore : Memory.Tidy db store)
    (hs : db.schemas.get? name = some schema) (filter : Filter) :
    Outcome.Alike (List.Forall₂ (Relabels n db name schema))
      (n.ownFilter (Memory.collection db name schema) filter >>= Memory.remaining db store name schema)
      (Memory.remaining (n.direct db) (n.relabelStore store) name (n.view db name schema) filter) := by
  unfold Memory.remaining
  refine .of_translated (checkFilter_iff hn hs filter) fun f hf hpass => ?_
  refine (matchingIds_alike hn hkeys hstore hs (sameFilter_of_ownFilter hn hf hpass)).bind
    fun ids ids' hids => .ok ?_
  exact Outcome.filter_alike (forall₂_rows hn hstore hs) fun r r' hr => by rw [isTarget_eq hn hs hids hr]

end QueryLayer.FieldNaming
