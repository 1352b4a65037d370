import QueryLayer.Proofs.Memory.Evaluation

/-! # Reads that are refused

A read is checked before any relation is resolved, and relations are resolved by tables of their own. What
passes the checks names relations and collections that are there, at every depth and around every cycle, so
that nothing else is ever refused. Main statement: `Memory.reads_fail_iff`.
-/
namespace QueryLayer

open Outcome (Fails)

namespace Scope

variable {s : Scope}

theorem fails_checkFilter_iff {f : Filter} :
    Fails (s.checkFilter f) ↔ ∃ c ∈ f.condition, Fails (s.checkCondition c) := by
  unfold checkFilter
  cases f.condition with
  | none => simp [Outcome.not_fails_ok]
  | some c => simp

theorem fails_checkFields_iff {fields : List String} :
    Fails (s.checkFields fields) ↔ ∃ field ∈ fields, Fails (s.column field) := by
  unfold checkFields
  rw [Outcome.fails_forM_iff]
  refine exists_congr fun field => and_congr_right fun _ => ?_
  cases s.column field with
  | error e => exact iff_of_true ⟨e, rfl⟩ ⟨e, rfl⟩
  | ok c => exact iff_of_false (Outcome.not_fails_ok ()) (Outcome.not_fails_ok c)

end Scope

namespace Memory

variable {db : Database} {store : Store} {name : String} {schema : CollectionSchema}

theorem fails_checkSegment_iff {f : Filter} :
    Fails (checkSegment name schema f) ↔ ∃ segment ∈ f.segment, segment ∉ schema.segments := by
  unfold checkSegment
  cases f.segment with
  | none => simp [Outcome.not_fails_ok]
  | some segment =>
    simp only [Option.mem_def, Option.some.injEq, exists_eq_left', List.contains_iff_mem]
    split
    · next h => exact iff_of_false (Outcome.not_fails_ok ()) fun hnot => hnot h
    · next h => exact iff_of_true ⟨_, rfl⟩ h

/-- What the checks let pass is attached. -/
theorem not_fails_hydrate {α : Type} {p : Projection} (hp : (db.scope name schema).Reads p)
    (answer : List Record → α) :
    ¬Fails (db.hydrate store schema (store.rows name) p >>= fun records => .ok (answer records)) := by
  obtain ⟨records, hrecords⟩ : ∃ records, db.hydrate store schema (store.rows name) p = .ok records :=
    Database.exists_hydrate_of_reads hp _
  rw [hrecords]
  exact Outcome.not_fails_ok _

theorem fails_list_iff (f : PaginatedFilter) (projection : Projection) :
    Fails (list db store name schema f projection) ↔
      Fails ((db.scope name schema).checkPaginated f) ∨
        Fails ((db.scope name schema).checkProjection projection) ∨
        Fails (checkSegment name schema f.toFilter) := by
  rw [list_eq]
  refine Outcome.fails_checked_iff fun hfilter hprojection => ?_
  exact not_fails_hydrate (reads_needed_of_list hfilter hprojection) _

theorem fails_aggregate_iff (f : Filter) (aggregation : Aggregation) (limit : Option Nat) :
    Fails (aggregate db store name schema f aggregation limit) ↔
      Fails ((db.scope name schema).checkFilter f) ∨
        Fails ((db.scope name schema).checkAggregation aggregation) ∨ Fails (checkSegment name schema f) := by
  rw [aggregate_eq]
  refine Outcome.fails_checked_iff fun hcheck haggregation => ?_
  exact not_fails_hydrate (reads_needed hcheck (Scope.reads_of_checkAggregation haggregation)) _

end Memory

end QueryLayer
