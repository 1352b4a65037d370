import QueryLayer.Proofs.Memory.Rows

/-! # Where a batch of records is put

Whole records are put in one after the other, each in the place of the row with its id or behind all rows. The
search for that row sees the records of the batch that were put in before. In the end every row stands where it
stood, or where its id came first in the batch, and it is the last record with its id: `placed_replaceRecords`.
-/
namespace QueryLayer.Memory

section

variable {db : Database} {store : Store} {name : String} {schema : CollectionSchema}
  {batch before : List Record}

/-- What a batch makes of the rows of a collection. -/
structure Placed (schema : CollectionSchema) (batch before after : List Record) : Prop where
  keyed : Keyed schema after
  /-- An id has the last record of the batch with it, and else the row that it had. -/
  lookup : ∀ id, rowOf schema after id = (lastOf schema batch id).or (rowOf schema before id)
  /-- Rows give way in place, and new ids stand behind them in the order in which they appear first. -/
  layout : after = (before ++ newcomers schema before batch).map fun r =>
    (lastOf schema batch (r.key schema)).getD r
  /-- Rows whose ids are not in the batch stay as they are, in their order. -/
  spared : (after.filter fun r => (lastOf schema batch (r.key schema)).isNone) =
    before.filter fun r => (lastOf schema batch (r.key schema)).isNone

theorem lastOf_ne_none_of_mem {r : Record} (h : r ∈ batch) : lastOf schema batch (r.key schema) ≠ none := by
  intro hnone
  have hother := lastOf_eq_none_iff.1 hnone r h
  rw [sameId_self] at hother
  cases hother

/-- What is put in has the id of what it replaces. -/
theorem sameId_key_getD_lastOf (schema : CollectionSchema) (batch : List Record) (r : Record) :
    sameId (((lastOf schema batch (r.key schema)).getD r).key schema) (r.key schema) = true := by
  cases hlast : lastOf schema batch (r.key schema) with
  | none => exact sameId_self _
  | some last => exact sameId_of_rowOf hlast

theorem spared_upsertAll (hbatch : ∀ r ∈ batch, ∀ v ∈ r.key schema, v ≠ .null) (h : Keyed schema before) :
    ((upsertAll schema batch before).filter fun r => (lastOf schema batch (r.key schema)).isNone) =
      before.filter fun r => (lastOf schema batch (r.key schema)).isNone := by
  have hsame : ∀ r : Record, (lastOf schema batch
      (((lastOf schema batch (r.key schema)).getD r).key schema)).isNone =
        (lastOf schema batch (r.key schema)).isNone := fun r =>
    congrArg Option.isNone (rowOf_congr (sameId_key_getD_lastOf schema batch r) _)
  have hnew : (newcomers schema before batch).filter
      (fun r => (lastOf schema batch (r.key schema)).isNone) = [] := by
    refine List.filter_eq_nil_iff.2 fun r hr => ?_
    simpa using lastOf_ne_none_of_mem (mem_newcomers hr).1
  rw [upsertAll_eq hbatch h, List.filter_map]
  unfold Function.comp
  simp only [hsame]
  rw [List.filter_append, hnew, List.append_nil]
  refine (List.map_congr_left fun r hr => ?_).trans (List.map_id _)
  have hnone : lastOf schema batch (r.key schema) = none := by simpa using (List.mem_filter.1 hr).2
  rw [hnone]
  rfl

theorem placed_upsertAll (hbatch : ∀ r ∈ batch, ∀ v ∈ r.key schema, v ≠ .null) (h : Keyed schema before) :
    Placed schema batch before (upsertAll schema batch before) where
  keyed := keyed_upsertAll hbatch h
  lookup := rowOf_upsertAll hbatch h
  layout := upsertAll_eq hbatch h
  spared := spared_upsertAll hbatch h

theorem runOn_replaceRecords (hs : db.schemas.get? name = some schema) (store : Store) (records : List Record) :
    (replaceRecords db name records).runOn store =
      match replaced (db.scope name schema) (store.rows name) records with
      | .ok rows => (.ok (), store.setRows name rows)
      | .error e => (.error e, store) := by
  unfold replaceRecords
  simp only [hs, runOn_writing]
  cases replaced (db.scope name schema) (store.rows name) records <;> rfl

/-- A batch is accepted when each of its records, with the defaults filled in, fits and has an id. It is then put
among the rows of its collection, and no other collection changes. A batch that is refused changes nothing. -/
theorem placed_replaceRecords (hs : db.schemas.get? name = some schema) (h : Keyed schema (store.rows name))
    (records : List Record) :
    ((∃ after, (replaceRecords db name records).runOn store = (.ok (), after)) ↔
      ∀ r ∈ records, Storable schema r) ∧
    (∀ after, (replaceRecords db name records).runOn store = (.ok (), after) →
      Placed schema (records.map (withDefaults schema)) (store.rows name) (after.rows name) ∧
        ∀ other, name ≠ other → after.rows other = store.rows other) ∧
    ∀ e after, (replaceRecords db name records).runOn store = (.error e, after) → after = store := by
  rw [runOn_replaceRecords hs]
  cases hrows : replaced (db.scope name schema) (store.rows name) records with
  | error e =>
    refine ⟨⟨?_, fun hready => ?_⟩, ?_, ?_⟩
    · rintro ⟨after, ⟨⟩⟩
    · have hok : replaced (db.scope name schema) (store.rows name) records = .ok _ :=
        replaced_eq_ok_iff.2 ⟨hready, rfl⟩
      rw [hrows] at hok
      cases hok
    · rintro after ⟨⟩
    · rintro e after ⟨⟩
      rfl
  | ok rows =>
    obtain ⟨hready, rfl⟩ := replaced_eq_ok_iff.1 hrows
    refine ⟨⟨fun _ => hready, fun _ => ⟨_, rfl⟩⟩, ?_, ?_⟩
    · rintro after ⟨⟩
      rw [Store.rows_setRows_self]
      exact ⟨placed_upsertAll (present_withDefaults hready) h,
        fun other hother => Store.rows_setRows_of_ne _ hother _⟩
    · rintro e after ⟨⟩

end

/-! ## Entries with labels -/

namespace Labels

def schema : CollectionSchema :=
  let id := Column.primaryKey (.ofType .number)
  let label := (Column.ofType .string).withDefault (.text "none")
  (CollectionSchema.empty.withField "id" (.column id)).withField "label" (.column label)

def database : Database := ⟨Dict.empty.insert "labels" schema, ∅⟩

def entry (id : Int) (label : String) : Record := [("id", .int id), ("label", .text label)]

/-- An entry whose id is written as a double. -/
def entryAt (id : Int) (label : String) : Record :=
  [("id", .number (.double (.ofInt id))), ("label", .text label)]

def stored : Store := Dict.empty.insert "labels" [entry 1 "a", entry 2 "b", entry 3 "c"]

/-- Ids 2 and 5 come twice, each in both forms; one entry has no label. -/
def batch : List Record :=
  [entryAt 2 "x", entry 5 "y", [("id", .int 4)], entry 2 "z", entryAt 5 "w"]

end Labels

theorem placed_replaceRecords_labels :
    Labels.database.schemas.get? "labels" = some Labels.schema ∧
      Keyed Labels.schema (Labels.stored.rows "labels") ∧
      ∃ after, (replaceRecords Labels.database "labels" Labels.batch).runOn Labels.stored = (.ok (), after) ∧
        after.rows "labels" = [Labels.entry 1 "a", Labels.entry 2 "z", Labels.entry 3 "c",
          Labels.entryAt 5 "w", Labels.entry 4 "none"] ∧
        Placed Labels.schema (Labels.batch.map (withDefaults Labels.schema)) (Labels.stored.rows "labels")
          (after.rows "labels") := by
  have hkeyed : Keyed Labels.schema (Labels.stored.rows "labels") := ⟨by decide +kernel, by decide +kernel⟩
  have hok : ((replaceRecords Labels.database "labels" Labels.batch).runOn Labels.stored).1 = .ok () :=
    Outcome.eq_ok_of_toOption (by decide +kernel)
  have hlabels : Labels.database.schemas.get? "labels" = some Labels.schema := rfl
  have hplaced := (placed_replaceRecords hlabels hkeyed Labels.batch).2.1 _ (Prod.ext hok rfl)
  exact ⟨hlabels, hkeyed, _, Prod.ext hok rfl, by decide +kernel, hplaced.1⟩

end QueryLayer.Memory
