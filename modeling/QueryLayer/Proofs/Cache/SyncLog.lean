import Mathlib.Data.List.Induction
import QueryLayer.Cache.Sync

/-! # Logs of overlapping syncs

A race of calls of `sync` leaves a log: which call began, asked the origin, was answered, wrote to
the replica, moved the cursor or failed. What the calls may rely on is said about this log, read up
to the event in question.
-/
namespace QueryLayer

/-- What can happen next while calls of `sync` overlap. -/
inductive SyncMove (ω : Type) where
  | join
  | advance (call : Nat)
  /-- Others change the origin. -/
  | others (change : ω → ω)

inductive SyncEvent where
  | began (call : Nat)
  /-- The call ends with nothing left to do. -/
  | skipped (call : Nat)
  /-- From here on a request for changes is in flight. -/
  | asked (call : Nat) (cursor : Option String)
  | answered (call : Nat) (cursor : Option String) (set : ChangeSet)
  | refused (call : Nat) (cursor : Option String) (error : Error)
  | wrote (call : Nat) (write : ReplicaWrite)
  | failed (call : Nat) (write : ReplicaWrite) (error : Error)
  | moved (call : Nat) (cursor : String)

/-- What a completed sync moves. -/
@[ext] structure SyncMarks where
  cursor : Option String
  generation : Nat
  synced : Bool
deriving DecidableEq

def CacheState.marks {ω : Type} (s : CacheState ω) : SyncMarks := ⟨s.cursor, s.generation, s.synced⟩

namespace SyncEvent

def isBeginning : SyncEvent → Bool
  | began _ => true
  | _ => false

/-- How a call ends with an event, if it does. -/
def ending? : SyncEvent → Option (Nat × Except Error Unit)
  | skipped call | moved call _ => some (call, .ok ())
  | refused call _ error | failed call _ error => some (call, .error error)
  | _ => none

def mark (marks : SyncMarks) : SyncEvent → SyncMarks
  | moved _ cursor => ⟨some cursor, marks.generation + 1, true⟩
  | _ => marks

/-- The requests in flight after an event. -/
def flight (calls : List Nat) : SyncEvent → List Nat
  | asked call _ => calls ++ [call]
  | answered call _ _ | refused call _ _ => calls.erase call
  | _ => calls

/-- The replica after an event; a write that fails counts as well. -/
def replay (db : Database) (replica : Store) : SyncEvent → Store
  | wrote _ write | failed _ write _ => ((write.apply db).runOn replica).2
  | _ => replica

end SyncEvent

abbrev SyncLog := List SyncEvent

namespace SyncLog

def marks (log : SyncLog) : SyncMarks := log.foldl SyncEvent.mark ⟨none, 0, false⟩

def inFlight (log : SyncLog) : List Nat := log.foldl SyncEvent.flight []

def replica (db : Database) (start : Store) (log : SyncLog) : Store :=
  log.foldl (SyncEvent.replay db) start

variable {log : SyncLog}

@[simp] theorem marks_concat (log : SyncLog) (e : SyncEvent) :
    marks (log ++ [e]) = e.mark log.marks :=
  List.foldl_append

@[simp] theorem inFlight_concat (log : SyncLog) (e : SyncEvent) :
    inFlight (log ++ [e]) = e.flight log.inFlight :=
  List.foldl_append

@[simp] theorem replica_concat (db : Database) (start : Store) (log : SyncLog) (e : SyncEvent) :
    replica db start (log ++ [e]) = e.replay db (log.replica db start) :=
  List.foldl_append

theorem le_generation_foldl (m : SyncMarks) (log : SyncLog) :
    m.generation ≤ (log.foldl SyncEvent.mark m).generation := by
  induction log generalizing m with
  | nil => exact Nat.le_refl _
  | cons e rest ih =>
    have hstep : m.generation ≤ (e.mark m).generation := by
      cases e <;> simp [SyncEvent.mark]
    exact Nat.le_trans hstep (ih _)

/-- Only completed syncs move anything. -/
theorem foldl_mark_of_not_moved {m : SyncMarks} {log : SyncLog}
    (h : ∀ call cursor, SyncEvent.moved call cursor ∉ log) : log.foldl SyncEvent.mark m = m := by
  induction log generalizing m with
  | nil => rfl
  | cons e rest ih =>
    have hstay : e.mark m = m := by
      cases e with
      | moved call cursor => exact absurd List.mem_cons_self (h call cursor)
      | _ => rfl
    rw [List.foldl_cons, hstay]
    exact ih fun call cursor hmem => h call cursor (List.mem_cons_of_mem _ hmem)

theorem exists_moved_of_marks_ne {before after : SyncLog}
    (h : marks (before ++ after) ≠ marks before) : ∃ call cursor, .moved call cursor ∈ after := by
  by_contra hnone
  apply h
  rw [marks, List.foldl_append]
  exact foldl_mark_of_not_moved fun call cursor hmem => hnone ⟨call, cursor, hmem⟩

/-- Where the number of completed syncs is still the same, none has completed. -/
theorem not_moved_of_generation {m : SyncMarks} {log : SyncLog}
    (h : (log.foldl SyncEvent.mark m).generation = m.generation) (call : Nat) (cursor : String) :
    SyncEvent.moved call cursor ∉ log := by
  induction log generalizing m with
  | nil => exact List.not_mem_nil
  | cons e rest ih =>
    have hle : (e.mark m).generation ≤ m.generation :=
      Nat.le_trans (le_generation_foldl _ rest) (Nat.le_of_eq h)
    have hstay : e.mark m = m := by
      cases e with
      | moved call cursor => exact absurd hle (Nat.not_succ_le_self _)
      | _ => rfl
    intro hmem
    rcases List.mem_cons.1 hmem with rfl | hmem
    · exact Nat.not_succ_le_self _ hle
    · rw [List.foldl_cons, hstay] at h
      exact ih h hmem

theorem marks_append_of_generation {before after : SyncLog}
    (h : (marks (before ++ after)).generation = (marks before).generation) :
    marks (before ++ after) = marks before := by
  rw [marks, List.foldl_append] at h ⊢
  exact foldl_mark_of_not_moved (not_moved_of_generation h)

end SyncLog

namespace ChangeSet

/-- The changed records of a collection. -/
def recordsOf (set : ChangeSet) (collection : String) : List Record :=
  (set.changes.filter fun change => change.collection = collection).map RecordChange.record

theorem getD_foldl_collect (changes : List RecordChange) (start : Dict (List Record))
    (collection : String) :
    ((changes.foldl RecordChange.collect start).get? collection).getD [] =
      (start.get? collection).getD [] ++
        (changes.filter fun change => change.collection = collection).map RecordChange.record := by
  induction changes generalizing start with
  | nil => rw [List.filter_nil, List.map_nil, List.append_nil, List.foldl_nil]
  | cons change rest ih =>
    rw [List.foldl_cons, ih, RecordChange.collect, Dict.get?_insert]
    by_cases h : change.collection = collection
    · subst h
      simp
    · simp [h]

theorem put_mem_writes {set : ChangeSet} {change : RecordChange} (h : change ∈ set.changes) :
    .put change.collection (set.recordsOf change.collection) ∈ set.writes := by
  have hrecords := getD_foldl_collect set.changes ∅ change.collection
  rw [Dict.get?_empty, Option.getD_none, List.nil_append] at hrecords
  have hmem : change.record ∈ set.recordsOf change.collection :=
    List.mem_map_of_mem (List.mem_filter.2 ⟨h, decide_eq_true rfl⟩)
  cases hget : (set.changes.foldl RecordChange.collect ∅).get? change.collection with
  | none =>
    rw [hget] at hrecords
    rw [recordsOf, ← hrecords] at hmem
    exact absurd hmem List.not_mem_nil
  | some records =>
    rw [hget, Option.getD_some] at hrecords
    refine List.mem_append_left _ (List.mem_map.2 ⟨_, Dict.get?_eq_some_iff.1 hget, ?_⟩)
    rw [hrecords, recordsOf]

theorem remove_mem_writes {set : ChangeSet} {deletion : RecordDeletion}
    (h : deletion ∈ set.deletions) : .remove deletion.collection deletion.id ∈ set.writes :=
  List.mem_append_right _ (List.mem_map_of_mem h)

end ChangeSet

end QueryLayer
