import QueryLayer.Proofs.Memory.Keyed
import QueryLayer.Proofs.Schema.Fields
import QueryLayer.Proofs.Typing.Check

/-! # Stored records fit their schema

Every member of a stored record is a column with a value of its type. This holds of all stores that can
be reached: records are checked before they are stored, and a patch before it is written. Whatever every
way of making a row gives or keeps holds of all rows, as the order of members does.
-/
namespace QueryLayer

namespace Record.Fits

theorem patched {schema : CollectionSchema} {patch record : Record} (hpatch : patch.Fits schema)
    (h : record.Fits schema) :
    (Memory.patched patch record).Fits schema := by
  unfold Memory.patched
  induction patch generalizing record with
  | nil => exact h
  | cons e rest ih =>
    obtain ⟨c, hc, hv⟩ := hpatch e List.mem_cons_self
    exact ih (fun d hd => hpatch d (List.mem_cons_of_mem _ hd)) (h.insert hc hv)

end Record.Fits

namespace Memory

/-- What the record has, and the default of a column that it leaves out. -/
theorem get?_withDefaults (schema : CollectionSchema) (record : Record) (f : String) :
    (withDefaults schema record).get? f =
      (record.get? f).or ((schema.column? f).bind Column.defaultValue) := by
  have hnodup := schema.sorted_columns.nodup
  rw [← schema.get?_columns f]
  unfold withDefaults
  generalize schema.columns = columns at hnodup
  induction columns generalizing record with
  | nil => exact (Option.or_none).symm
  | cons e rest ih =>
    obtain ⟨hnew, hrest⟩ := List.nodup_cons.1 hnodup
    rw [List.foldl_cons, ih _ hrest, Entries.get?_cons]
    by_cases hf : e.1 = f
    · -- later columns have other names
      subst hf
      rw [Entries.get?_eq_none_iff.2 hnew, if_pos rfl, Option.bind_none, Option.or_none, Option.bind_some]
      split
      · next hnone hdefault =>
        rw [Record.get?, Record.insert, Entries.get?_insert_self, hnone, hdefault, Option.none_or]
      · next hno =>
        cases hget : record.get? e.1 with
        | some v => rfl
        | none =>
          cases hdefault : e.2.defaultValue with
          | none => rfl
          | some v => exact absurd hdefault (hno v hget)
    · rw [if_neg hf]
      split
      · rw [Record.get?, Record.insert, Entries.get?_insert_of_ne hf]
        rfl
      · rfl

/-- The members are those of the record, and defaults of columns that it leaves out. -/
theorem mem_withDefaults {schema : CollectionSchema} {record : Record} {e : String × Value}
    (h : e ∈ withDefaults schema record) : e ∈ record ∨
      record.get? e.1 = none ∧ ∃ c, schema.column? e.1 = some c ∧ c.defaultValue = some e.2 := by
  have hcolumns : ∀ d ∈ schema.columns, schema.column? d.1 = some d.2 :=
    fun d hd => CollectionSchema.mem_columns_iff.1 hd
  unfold withDefaults at h
  generalize schema.columns = columns at h hcolumns
  induction columns generalizing record with
  | nil => exact Or.inl h
  | cons d rest ih =>
    have hrest := ih h fun d hd => hcolumns d (List.mem_cons_of_mem _ hd)
    dsimp only at hrest
    split at hrest
    · next v hnone hdefault =>
      rcases hrest with hmem | ⟨hget, hcolumn⟩
      · rcases Entries.mem_insert hmem with rfl | hmem
        · exact Or.inr ⟨hnone, d.2, hcolumns d List.mem_cons_self, hdefault⟩
        · exact Or.inl hmem
      · refine Or.inr ⟨?_, hcolumn⟩
        rw [Record.get?, Record.insert, Entries.get?_insert] at hget
        split at hget
        · cases hget
        · exact hget
    · exact hrest

theorem mem_withDefaults_of_mem (schema : CollectionSchema) {record : Record} {e : String × Value}
    (h : e ∈ record) : e ∈ withDefaults schema record := by
  unfold withDefaults
  generalize schema.columns = columns
  induction columns generalizing record with
  | nil => exact h
  | cons d rest ih =>
    refine ih ?_
    dsimp only
    split
    · next hnone _ =>
      refine Entries.mem_insert_of_ne h (fun hname => ?_) _
      exact Entries.get?_eq_none_iff.1 hnone (hname ▸ List.mem_map_of_mem h)
    · exact h

/-- What a record leaves out has to have a default that fits. -/
theorem fits_withDefaults_iff {schema : CollectionSchema} {record : Record} :
    (withDefaults schema record).Fits schema ↔ record.Fits schema ∧ ∀ f c v, record.get? f = none →
      schema.column? f = some c → c.defaultValue = some v → c.checkValue v = .ok () := by
  constructor
  · intro h
    refine ⟨fun e he => h e (mem_withDefaults_of_mem schema he), fun f c v hnone hc hdefault => ?_⟩
    have hget : (withDefaults schema record).get? f = some v := by
      rw [get?_withDefaults, hnone, hc, Option.none_or, Option.bind_some, hdefault]
    obtain ⟨c', hc', hv⟩ := h.get? hget
    rw [hc] at hc'
    cases hc'
    exact hv
  · rintro ⟨hrecord, hdefaults⟩ e he
    rcases mem_withDefaults he with he | ⟨hnone, c, hc, hdefault⟩
    · exact hrecord e he
    · exact ⟨c, hc, hdefaults e.1 c e.2 hnone hc hdefault⟩

/-- A patched field has a value of the patch or the one it had. -/
theorem get?_patched_cases (patch record : Record) (f : String) :
    (∃ v, (f, v) ∈ patch ∧ (patched patch record).get? f = some v) ∨
      (patched patch record).get? f = record.get? f := by
  unfold patched
  induction patch generalizing record with
  | nil => exact Or.inr rfl
  | cons e rest ih =>
    rw [List.foldl_cons]
    rcases ih (record.insert e.1 e.2) with ⟨v, hv, hget⟩ | hget
    · exact Or.inl ⟨v, List.mem_cons_of_mem _ hv, hget⟩
    · rw [hget, Record.get?, Record.insert, Entries.get?_insert]
      split
      · next hname => exact Or.inl ⟨e.2, by simp [← hname], rfl⟩
      · exact Or.inr rfl

/-- A patch that fits leaves a record that fits together with its defaults. -/
theorem fits_withDefaults_patched {schema : CollectionSchema} {patch record : Record}
    (hpatch : patch.Fits schema) (h : (withDefaults schema record).Fits schema) :
    (withDefaults schema (patched patch record)).Fits schema := by
  obtain ⟨hrecord, hdefaults⟩ := fits_withDefaults_iff.1 h
  refine fits_withDefaults_iff.2 ⟨hpatch.patched hrecord, fun f c v hnone => ?_⟩
  refine hdefaults f c v ?_
  rcases get?_patched_cases patch record f with ⟨w, -, hget⟩ | hget
  · rw [hget] at hnone
    cases hnone
  · rw [← hget, hnone]

theorem sorted_withDefaults {record : Record} (h : Entries.Sorted record) (schema : CollectionSchema) :
    Entries.Sorted (withDefaults schema record) := by
  unfold withDefaults
  generalize schema.columns = columns
  induction columns generalizing record with
  | nil => exact h
  | cons e rest ih =>
    refine ih ?_
    dsimp only
    split
    · exact Entries.sorted_insert h _ _
    · exact h

def Fitting (db : Database) (store : Store) : Prop :=
  ∀ name schema, db.schemas.get? name = some schema → ∀ r ∈ store.rows name, r.Fits schema

/-- The key that the store assigns is a number column, which accepts integers. -/
theorem checkValue_of_assignedKey {schema : CollectionSchema} {pk : String}
    (h : assignedKey? schema = some pk) (i : Int) :
    ∃ c, schema.column? pk = some c ∧ c.checkValue (.int i) = .ok () := by
  unfold assignedKey? at h
  split at h
  · split at h
    · next hnumber =>
      cases h
      cases hc : schema.column? pk with
      | none => simp [hc] at hnumber
      | some c =>
        have htype : c.columnType = .number := by simpa [hc] using hnumber
        refine ⟨c, rfl, ?_⟩
        simp only [Column.checkValue, Column.checkEnum, htype]
        rfl
    · cases h
  · cases h

/-! ## Written rows -/

namespace Call

/-- The records that a call puts in. -/
def records : Call → List Record
  | create _ _ records => records
  | update .. => []
  | delete .. => []
  | replaceRecords _ records => records

def patch? : Call → Option Record
  | update _ _ _ patch => some patch
  | _ => none

end Call

theorem exists_of_mem_prepare {scope : Scope} {records prepared : List Record}
    (h : prepare scope records = .ok prepared) {r : Record} (hr : r ∈ prepared) :
    ∃ record ∈ records, r = withDefaults scope.schema record ∧ r.Fits scope.schema := by
  obtain ⟨record, hmem, h⟩ := Outcome.exists_of_mem_mapM h hr
  obtain ⟨hcheck, h⟩ := Outcome.seq_eq_ok_iff.1 h
  cases h
  exact ⟨record, hmem, rfl, Scope.checkRecord_eq_ok_iff.1 hcheck⟩

section

variable {P : Record → Prop} {schema : CollectionSchema}

theorem forall_mem_assign
    (hassigned : ∀ r pk i, assignedKey? schema = some pk → P r → P (r.insert pk (.int i)))
    {records created : List Record} {ids : List CompositeId} {next : Int} (hrecords : ∀ r ∈ records, P r)
    (h : assign schema (assignedKey? schema) records ids next = .ok created) : ∀ r ∈ created, P r := by
  induction records generalizing ids next created with
  | nil =>
    cases h
    simp
  | cons record rest ih =>
    obtain ⟨first, later, others, hfirst, _, _, hrest, rfl⟩ := assign_cons h
    have hrecord := hrecords record List.mem_cons_self
    intro r hr
    rcases List.mem_cons.1 hr with rfl | hr
    · obtain rfl | ⟨pk, i, hpk, rfl⟩ := hfirst
      · exact hrecord
      · exact hassigned record pk i hpk hrecord
    · exact ih (fun r hr => hrecords r (List.mem_cons_of_mem _ hr)) hrest r hr

theorem mem_foldl_upsert {entries : List (Record × CompositeId)} {rows : List Record} {r : Record}
    (h : r ∈ entries.foldl (fun out e => upsert schema e.1 e.2 out) rows) :
    r ∈ entries.map Prod.fst ∨ r ∈ rows := by
  induction entries generalizing rows with
  | nil => exact Or.inr h
  | cons e rest ih =>
    rcases ih h with h | h
    · exact Or.inl (List.mem_cons_of_mem _ h)
    · rcases mem_upsert h with rfl | h
      · exact Or.inl List.mem_cons_self
      · exact Or.inr h

/-- A property of rows that every way of making one gives or keeps. -/
theorem forall_mem_written {db : Database} {store : Store} {name : String} {call : Call} {rows : List Record}
    (hrecords : ∀ r ∈ call.records, (withDefaults schema r).Fits schema → P (withDefaults schema r))
    (hassigned : ∀ r pk i, assignedKey? schema = some pk → P r → P (r.insert pk (.int i)))
    (hpatched : ∀ patch r, call.patch? = some patch → patch.Fits schema → P r → P (patched patch r))
    (hstored : ∀ r ∈ store.rows name, P r) (h : Written db store name schema call rows) :
    ∀ r ∈ rows, P r := by
  have hprepared : ∀ {prepared : List Record}, prepare (db.scope name schema) call.records = .ok prepared →
      ∀ r ∈ prepared, P r := by
    intro prepared hprepare r hr
    obtain ⟨record, hmem, rfl, hfits⟩ := exists_of_mem_prepare hprepare hr
    exact hrecords record hmem hfits
  cases h with
  | create hcreated =>
    obtain ⟨prepared, hprepare, hassign⟩ := Outcome.bind_eq_ok_iff.1 hcreated
    intro r hr
    rcases List.mem_append.1 hr with hr | hr
    · exact hstored r hr
    · exact forall_mem_assign hassigned (hprepared hprepare) hassign r hr
  | @update _ _ patch _ hupdated =>
    have hpatch : patch.Fits schema := by
      obtain ⟨_, h⟩ := Outcome.seq_eq_ok_iff.1 hupdated
      exact Scope.checkRecord_eq_ok_iff.1 (Outcome.seq_eq_ok_iff.1 h).1
    obtain ⟨ids, _, rfl⟩ := updated_eq_ok hupdated
    intro r hr
    obtain ⟨stored, hmem, rfl⟩ := List.mem_map.1 hr
    split
    · exact hpatched patch stored rfl hpatch (hstored stored hmem)
    · exact hstored stored hmem
  | delete hremaining =>
    obtain ⟨_, h⟩ := Outcome.seq_eq_ok_iff.1 hremaining
    obtain ⟨ids, _, h⟩ := Outcome.bind_eq_ok_iff.1 h
    cases h
    exact fun r hr => hstored r (List.mem_of_mem_filter hr)
  | replaceRecords hreplaced =>
    obtain ⟨prepared, hprepare, h⟩ := Outcome.bind_eq_ok_iff.1 hreplaced
    obtain ⟨ids, _, h⟩ := Outcome.bind_eq_ok_iff.1 h
    cases h
    intro r hr
    rcases mem_foldl_upsert hr with hr | hr
    · obtain ⟨e, he, rfl⟩ := List.mem_map.1 hr
      exact hprepared hprepare _ (List.of_mem_zip he).1
    · exact hstored r hr

end

section

variable {db : Database} {store : Store} {name : String} {schema : CollectionSchema} {call : Call}
  {rows : List Record}

theorem fits_of_mem_written (hstored : ∀ r ∈ store.rows name, r.Fits schema)
    (h : Written db store name schema call rows) : ∀ r ∈ rows, r.Fits schema := by
  refine forall_mem_written (fun _ _ hfits => hfits) (fun r pk i hkey hr => ?_)
    (fun _ _ _ hpatch hr => hpatch.patched hr) hstored h
  obtain ⟨c, hc, hv⟩ := checkValue_of_assignedKey hkey i
  exact hr.insert hc hv

theorem Fitting.written (hstore : Fitting db store) (hs : db.schemas.get? name = some schema)
    (h : Written db store name schema call rows) : Fitting db (store.setRows name rows) := by
  intro other schema' hs' r hr
  by_cases hne : name = other
  · subst hne
    rw [hs] at hs'
    cases hs'
    rw [Store.rows_setRows_self] at hr
    exact fits_of_mem_written (hstore name schema hs) h r hr
  · rw [Store.rows_setRows_of_ne _ hne] at hr
    exact hstore other schema' hs' r hr

/-- Every store that calls can lead to is fitting. -/
theorem Reachable.fitting (h : Reachable db store) : Fitting db store := by
  refine h.induct (motive := Fitting db) (fun name schema _ r hr => ?_)
    fun _ _ _ _ _ hstore hs hwritten => hstore.written hs hwritten
  rw [rows_emptyStore] at hr
  cases hr

/-- Whatever calls were made, a member of a stored record is a column of the schema, not a relation and not
an unknown name, and its value is one that may be written into this column. -/
theorem column_of_mem_run (db : Database) (calls : List Call) {name : String} {schema : CollectionSchema}
    (hs : db.schemas.get? name = some schema) : ∀ r ∈ (run db calls).rows name, ∀ e ∈ r,
      ∃ c, schema.fields.get? e.1 = some (.column c) ∧ c.checkValue e.2 = .ok () := by
  intro r hr e he
  have hfitting : Fitting db (run db calls) := Reachable.fitting ⟨calls, rfl⟩
  obtain ⟨c, hc, hvalue⟩ := hfitting name schema hs r hr e he
  exact ⟨c, CollectionSchema.column?_eq_some_iff.1 hc, hvalue⟩

/-- Parcels have an id that the store assigns and a state with a default, and some have more. -/
def parcels : CollectionSchema :=
  let state := ((Column.ofType .enum).withEnumValues ["packed", "sent"]).withDefault (.text "packed")
  let columns := (CollectionSchema.empty.withField "id" (.column (Column.primaryKey (.ofType .number))))
    |>.withField "state" (.column state) |>.withField "due" (.column (.ofType .dateOnly))
    |>.withField "label" (.column (.ofType .uuid))
  columns.withField "parent" (.relation (.manyToOne "parcels" "label" "id"))

def depot : Database := ⟨Dict.empty.insert "parcels" parcels, ∅⟩

/-- Records are given, replicated and patched; those with a relation, with a date for a label or with a
state that is none are refused. -/
def shipping : List Call :=
  [.create default "parcels" [[("due", .text "2024-02-29")], [("id", .int 7), ("label", .null)]],
    .create default "parcels" [[("parent", .null)]],
    .replaceRecords "parcels" [[("id", .int 4), ("label", .text "0b5c0b6e-27c1-4d5a-9a2e-3f6a54c1d0aa")],
      [("due", .text "2024-03-01"), ("id", .int 7)]],
    .replaceRecords "parcels" [[("id", .int 9), ("label", .text "2024-02-29")]],
    .update default "parcels" .empty [("state", .text "lost")],
    .update default "parcels" .empty [("state", .text "sent")]]

theorem column_of_mem_run_shipping : depot.schemas.get? "parcels" = some parcels ∧
    (run depot shipping).rows "parcels" =
      [[("due", .text "2024-02-29"), ("id", .int 1), ("state", .text "sent")],
        [("due", .text "2024-03-01"), ("id", .int 7), ("state", .text "sent")],
        [("id", .int 4), ("label", .text "0b5c0b6e-27c1-4d5a-9a2e-3f6a54c1d0aa"), ("state", .text "sent")]] ∧
    ∀ r ∈ (run depot shipping).rows "parcels", ∀ e ∈ r,
      ∃ c, parcels.fields.get? e.1 = some (.column c) ∧ c.checkValue e.2 = .ok () := by
  have hparcels : depot.schemas.get? "parcels" = some parcels := by decide +kernel
  exact ⟨hparcels, by decide +kernel, column_of_mem_run depot shipping hparcels⟩

/-! ## Members in name order -/

/-- Stored records fit their schema, and their members are in name order. -/
structure Tidy (db : Database) (store : Store) : Prop where
  fitting : Fitting db store
  sorted : ∀ name, ∀ r ∈ store.rows name, Entries.Sorted r

theorem Tidy.written (h : Tidy db store) (hs : db.schemas.get? name = some schema)
    (hcall : ∀ r ∈ call.records, Entries.Sorted r) (hwritten : Written db store name schema call rows) :
    Tidy db (store.setRows name rows) := by
  refine ⟨h.fitting.written hs hwritten, fun other r hr => ?_⟩
  by_cases hne : name = other
  · subst hne
    rw [Store.rows_setRows_self] at hr
    exact forall_mem_written (fun r hr _ => sorted_withDefaults (hcall r hr) schema)
      (fun _ pk i _ hsorted => Entries.sorted_insert hsorted pk (.int i))
      (fun _ _ _ _ hsorted => Entries.sorted_foldl_insert _ _ _ hsorted) (h.sorted name) hwritten r hr
  · rw [Store.rows_setRows_of_ne _ hne] at hr
    exact h.sorted other r hr

theorem tidy_emptyStore (db : Database) : Tidy db db.emptyStore where
  fitting := Reachable.emptyStore.fitting
  sorted name r hr := by
    rw [rows_emptyStore] at hr
    cases hr

/-- Stores are tidy when what was put in had its members in name order. -/
theorem tidy_run {calls : List Call} (h : ∀ call ∈ calls, ∀ r ∈ call.records, Entries.Sorted r) :
    Tidy db (run db calls) := by
  induction calls using List.reverseRecOn with
  | nil => exact tidy_emptyStore db
  | append_singleton calls call ih =>
    have hcalls := ih fun c hc => h c (List.mem_append_left _ hc)
    rw [run_append_singleton]
    obtain hsame | ⟨name, schema, rows, hs, hwritten, hafter⟩ := after_cases db (run db calls) call
    · rw [hsame]
      exact hcalls
    · rw [hafter]
      exact hcalls.written hs (h call (by simp)) hwritten

end

end Memory

end QueryLayer
