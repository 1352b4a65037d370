import Mathlib.Data.List.Induction
import QueryLayer.Proofs.Action.Yields
import QueryLayer.Proofs.Data.Entries
import QueryLayer.Proofs.Outcome
import QueryLayer.Proofs.Source.Calls
import QueryLayer.Source.Memory.Basic

/-! # Runs of a memory source

A run makes any calls that may write, one after the other, from the empty store on. A call that is
refused changes nothing, and one that is accepted changes the rows of one collection only, to what
`Written` says; what holds of every store that a run reaches follows by `Reachable.induct`.
-/
namespace QueryLayer.Memory

/-- A call that may write, with all that its caller passes. -/
inductive Call where
  | create (caller : Caller) (collection : String) (records : List Record)
  | update (caller : Caller) (collection : String) (filter : Filter) (patch : Record)
  | delete (caller : Caller) (collection : String) (filter : Filter)
  | replaceRecords (collection : String) (records : List Record)

def Call.action (db : Database) : Call → Action Store Unit
  | create caller name records => do
    let c ← (source db).collection name
    let _ ← c.create caller records
  | update caller name filter patch => do
    let c ← (source db).collection name
    c.update caller filter patch
  | delete caller name filter => do
    let c ← (source db).collection name
    c.delete caller filter
  | replaceRecords name records => Memory.replaceRecords db name records

/-- The store after a call, whether it was accepted or refused. -/
def after (db : Database) (store : Store) (call : Call) : Store := ((call.action db).runOn store).2

/-- The store after calls in order, from the empty store on. -/
def run (db : Database) (calls : List Call) : Store := calls.foldl (after db) db.emptyStore

/-- The stores that calls can lead to. -/
def Reachable (db : Database) (store : Store) : Prop := ∃ calls, run db calls = store

/-- The rows that an accepted call leaves in the collection it is made on. -/
inductive Written (db : Database) (store : Store) (name : String) (schema : CollectionSchema) :
    Call → List Record → Prop
  | create {caller : Caller} {records created : List Record} :
    creation (db.scope name schema) (store.rows name) records = .ok created →
    Written db store name schema (.create caller name records) (store.rows name ++ created)
  | update {caller : Caller} {filter : Filter} {patch : Record} {rows : List Record} :
    updated db store name schema filter patch = .ok rows →
    Written db store name schema (.update caller name filter patch) rows
  | delete {caller : Caller} {filter : Filter} {rows : List Record} :
    remaining db store name schema filter = .ok rows →
    Written db store name schema (.delete caller name filter) rows
  | replaceRecords {records rows : List Record} :
    replaced (db.scope name schema) (store.rows name) records = .ok rows →
    Written db store name schema (.replaceRecords name records) rows

@[simp] theorem collection?_source (db : Database) (name : String) :
    (source db).collection? name = (db.schemas.get? name).map (collection db name) :=
  Source.find?_named (fun _ => rfl) db.schemas.entries name

/-- The collections are in the order of their names already. -/
theorem values_members_source (db : Database) : (source db).members.values = (source db).collections := by
  have hentries : (source db).members.entries =
      db.schemas.entries.map fun e => (e.1, collection db e.1 e.2) := by
    unfold Source.members source Dict.ofList
    dsimp only
    rw [List.map_map]
    exact Entries.ofList_of_sorted (Entries.sorted_map db.schemas.sorted fun e => collection db e.1 e.2)
  unfold Dict.values
  rw [hentries, List.map_map]
  rfl

theorem collection_source_of_some {db : Database} {name : String} {schema : CollectionSchema}
    (h : db.schemas.get? name = some schema) :
    (source db).collection name = .ok (collection db name schema) := by
  simp [Source.collection, h]

theorem collection_source_of_none {db : Database} {name : String} (h : db.schemas.get? name = none) :
    (source db).collection name = .error (.setup (.collectionNotFound name)) := by
  simp [Source.collection, h]

theorem collection_source_eq_ok_iff {db : Database} {name : String} {c : Collection Store} :
    (source db).collection name = .ok c ↔
      ∃ schema, db.schemas.get? name = some schema ∧ c = collection db name schema := by
  rw [Source.collection_eq_ok_iff_collection?, collection?_source, Option.map_eq_some_iff]
  simp only [eq_comm]

/-- A write replaces the rows of its collection, or it fails and changes nothing. -/
theorem runOn_writing {α : Type} (name : String) (write : Store → Except Error (α × List Record))
    (store : Store) : (writing name write).runOn store =
      match write store with
      | .ok (a, rows) => (.ok a, store.setRows name rows)
      | .error e => (.error e, store) := by
  unfold writing
  exact Action.runOn_updating ..

section

variable {db : Database} {name : String} {schema : CollectionSchema}
  (hs : db.schemas.get? name = some schema) (store : Store)
include hs

theorem after_create (caller : Caller) (records : List Record) :
    after db store (.create caller name records) = ((create db name schema records).runOn store).2 := by
  simp [after, Call.action, collection_source_of_some hs, collection, Action.runOn_map]

theorem after_update (caller : Caller) (filter : Filter) (patch : Record) :
    after db store (.update caller name filter patch) =
      ((update db name schema filter patch).runOn store).2 := by
  simp [after, Call.action, collection_source_of_some hs, collection]

theorem after_delete (caller : Caller) (filter : Filter) :
    after db store (.delete caller name filter) = ((delete db name schema filter).runOn store).2 := by
  simp [after, Call.action, collection_source_of_some hs, collection]

theorem after_replaceRecords (records : List Record) :
    after db store (.replaceRecords name records) =
      ((writing name fun store => do
        pure ((), ← replaced (db.scope name schema) (store.rows name) records)).runOn store).2 := by
  simp only [after, Call.action, Memory.replaceRecords, hs]

end

/-- What `after_cases` says, for a call that is one write. -/
theorem after_cases_of_writing {α : Type} {db : Database} {store : Store} {call : Call} {name : String}
    {schema : CollectionSchema} {write : Store → Except Error (α × List Record)}
    (hs : db.schemas.get? name = some schema)
    (hafter : after db store call = ((writing name write).runOn store).2)
    (hwrite : ∀ a rows, write store = .ok (a, rows) → Written db store name schema call rows) :
    after db store call = store ∨
      ∃ name schema rows, db.schemas.get? name = some schema ∧
        Written db store name schema call rows ∧ after db store call = store.setRows name rows := by
  rw [hafter, runOn_writing]
  cases h : write store with
  | error e => exact Or.inl rfl
  | ok answer => exact Or.inr ⟨name, schema, answer.2, hs, hwrite answer.1 answer.2 h, rfl⟩

/-- What a call does: nothing, or it writes the rows of one collection. -/
theorem after_cases (db : Database) (store : Store) (call : Call) :
    after db store call = store ∨
      ∃ name schema rows, db.schemas.get? name = some schema ∧
        Written db store name schema call rows ∧ after db store call = store.setRows name rows := by
  cases call with
  | create caller name records =>
    cases hs : db.schemas.get? name with
    | none => simp [after, Call.action, collection_source_of_none hs]
    | some schema =>
      refine after_cases_of_writing hs (after_create hs store caller records) fun _ rows h => ?_
      obtain ⟨created, hcreated, h⟩ := Outcome.bind_eq_ok_iff.1 h
      cases h
      exact .create hcreated
  | update caller name filter patch =>
    cases hs : db.schemas.get? name with
    | none => simp [after, Call.action, collection_source_of_none hs]
    | some schema =>
      refine after_cases_of_writing hs (after_update hs store caller filter patch) fun _ rows h => ?_
      obtain ⟨rows, hrows, h⟩ := Outcome.bind_eq_ok_iff.1 h
      cases h
      exact .update hrows
  | delete caller name filter =>
    cases hs : db.schemas.get? name with
    | none => simp [after, Call.action, collection_source_of_none hs]
    | some schema =>
      refine after_cases_of_writing hs (after_delete hs store caller filter) fun _ rows h => ?_
      obtain ⟨rows, hrows, h⟩ := Outcome.bind_eq_ok_iff.1 h
      cases h
      exact .delete hrows
  | replaceRecords name records =>
    cases hs : db.schemas.get? name with
    | none =>
      left
      simp only [after, Call.action, Memory.replaceRecords, hs]
      rfl
    | some schema =>
      refine after_cases_of_writing hs (after_replaceRecords hs store records) fun _ rows h => ?_
      obtain ⟨rows, hrows, h⟩ := Outcome.bind_eq_ok_iff.1 h
      cases h
      exact .replaceRecords hrows

theorem run_append_singleton (db : Database) (calls : List Call) (call : Call) :
    run db (calls ++ [call]) = after db (run db calls) call := by
  simp [run]

@[simp] theorem rows_emptyStore (db : Database) (name : String) : db.emptyStore.rows name = [] := by
  simp only [Store.rows, Database.emptyStore, Dict.map, Dict.get?_mapEntries]
  cases db.schemas.get? name <;> rfl

namespace Reachable

variable {db : Database}

theorem emptyStore : Reachable db db.emptyStore := ⟨[], rfl⟩

theorem after {store : Store} (h : Reachable db store) (call : Call) :
    Reachable db (Memory.after db store call) := by
  obtain ⟨calls, rfl⟩ := h
  exact ⟨calls ++ [call], run_append_singleton db calls call⟩

/-- What the empty store satisfies and every write keeps holds of all stores that can be reached. -/
theorem induct {motive : Store → Prop} (hempty : motive db.emptyStore)
    (hwrite : ∀ store name schema call rows, motive store → db.schemas.get? name = some schema →
      Written db store name schema call rows → motive (store.setRows name rows))
    {store : Store} (h : Reachable db store) : motive store := by
  obtain ⟨calls, rfl⟩ := h
  induction calls using List.reverseRecOn with
  | nil => exact hempty
  | append_singleton calls call ih =>
    rw [run_append_singleton]
    obtain h | ⟨name, schema, rows, hs, hwritten, h⟩ := after_cases db (run db calls) call
    · rw [h]
      exact ih
    · rw [h]
      exact hwrite _ name schema call rows ih hs hwritten

end Reachable

end QueryLayer.Memory
