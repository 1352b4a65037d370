import QueryLayer.Proofs.Query.Condition
import QueryLayer.Proofs.Query.Projection
import QueryLayer.Query.Aggregation
import QueryLayer.Query.Filter

/-! # Records that agree on what is read

Two records agree on a projection when its columns are the same in both, and the records nested under each
relation that it goes through agree on what follows. A query that reads no more than the projection cannot
tell them apart. A record with one value only shows which paths do read it.
-/
namespace QueryLayer

namespace Record

theorem value?_of_plain {path : String} (h : Path.Plain path) (record : Record) :
    record.value? path = record.get? path := by
  rw [value?, Path.hops_of_plain h, valueAt?]

theorem value?_of_split? {path hop rest : String} (h : Path.split? path = some (hop, rest)) (record : Record) :
    record.value? path = (record.nested? hop).bind fun nested => nested.value? rest := by
  rw [value?, Path.hops_of_split? h, valueAt?_cons (Path.hops_ne_nil rest)]
  rfl

/-- Records that are the same along the paths of a projection. -/
inductive Agrees : Projection → Record → Record → Prop
  | intro {p : Projection} {a b : Record} :
    (∀ f ∈ p.fields, Path.Plain f → a.get? f = b.get? f) →
    (∀ hop, p.Through [hop] → ((a.nested? hop).isSome ↔ (b.nested? hop).isSome)) →
    (∀ hop x y, p.Through [hop] → a.nested? hop = some x → b.nested? hop = some y →
      Agrees (p.unnest hop) x y) →
    Agrees p a b

namespace Agrees

variable {p q : Projection} {a b : Record}

/-- Both have nested records that agree, or neither has one. -/
theorem nested?_cases (h : Agrees p a b) {hop : String} (hthrough : p.Through [hop]) :
    (a.nested? hop = none ∧ b.nested? hop = none) ∨
      ∃ x y, a.nested? hop = some x ∧ b.nested? hop = some y ∧ Agrees (p.unnest hop) x y := by
  cases h with
  | intro _ hsome hnested =>
    have hboth := hsome hop hthrough
    cases ha : a.nested? hop with
    | none =>
      rw [ha] at hboth
      exact Or.inl ⟨rfl, Option.not_isSome_iff_eq_none.1 (mt hboth.2 Bool.false_ne_true)⟩
    | some x =>
      rw [ha] at hboth
      obtain ⟨y, hb⟩ := Option.isSome_iff_exists.1 (hboth.1 rfl)
      exact Or.inr ⟨x, y, rfl, hb, hnested hop x y hthrough ha hb⟩

theorem of_nested? (hcolumns : ∀ f ∈ p.fields, Path.Plain f → a.get? f = b.get? f)
    (hnested : ∀ hop, p.Through [hop] → (a.nested? hop = none ∧ b.nested? hop = none) ∨
      ∃ x y, a.nested? hop = some x ∧ b.nested? hop = some y ∧ Agrees (p.unnest hop) x y) : Agrees p a b := by
  refine .intro hcolumns (fun hop hthrough => ?_) fun hop x y hthrough ha hb => ?_
  · obtain ⟨ha, hb⟩ | ⟨x, y, ha, hb, _⟩ := hnested hop hthrough
    · rw [ha, hb]
    · rw [ha, hb]
      exact iff_of_true rfl rfl
  · obtain ⟨ha', _⟩ | ⟨x', y', ha', hb', h⟩ := hnested hop hthrough
    · rw [ha] at ha'
      cases ha'
    · obtain rfl := Option.some.inj (ha.symm.trans ha')
      obtain rfl := Option.some.inj (hb.symm.trans hb')
      exact h

theorem refl (p : Projection) (a : Record) : Agrees p a a := by
  induction hdepth : p.depth using Nat.strongRecOn generalizing p a with
  | ind depth ih =>
    subst hdepth
    refine .of_nested? (fun f _ _ => rfl) fun hop hthrough => ?_
    cases hnested : a.nested? hop with
    | none => exact Or.inl ⟨rfl, rfl⟩
    | some x => exact Or.inr ⟨x, x, rfl, rfl, ih _ (Projection.depth_unnest_lt hthrough) _ x rfl⟩

theorem symm (h : Agrees p a b) : Agrees p b a := by
  induction h with
  | intro hcolumns hsome _ ih =>
    exact .intro (fun f hf hplain => (hcolumns f hf hplain).symm) (fun hop hhop => (hsome hop hhop).symm)
      fun hop x y hhop ha hb => ih hop y x hhop hb ha

/-- What is read of less is the same, too. -/
theorem mono (h : Agrees p a b) (hsub : ∀ f ∈ q.fields, f ∈ p.fields) : Agrees q a b := by
  induction h generalizing q with
  | @intro p a b hcolumns hsome hnested ih =>
    have hthrough : ∀ hop, q.Through [hop] → p.Through [hop] := fun hop =>
      Projection.within_of_subset hsub [hop] (by simp)
    refine .intro (fun f hf => hcolumns f (hsub f hf)) (fun hop hq => hsome hop (hthrough hop hq))
      fun hop x y hq ha hb => ?_
    exact ih hop x y (hthrough hop hq) ha hb (Projection.unnest_subset hsub hop)

theorem value?_eq (h : Agrees p a b) {path : String} (hpath : path ∈ p.fields) :
    a.value? path = b.value? path := by
  induction h generalizing path with
  | @intro p a b hcolumns hsome hnested ih =>
    cases hsplit : Path.split? path with
    | none =>
      have hplain := Path.plain_of_split?_eq_none hsplit
      rw [value?_of_plain hplain, value?_of_plain hplain, hcolumns path hpath hplain]
    | some s =>
      obtain ⟨hop, rest⟩ := s
      have hthrough := Projection.through_singleton_iff.2 ⟨path, hpath, rest, hsplit⟩
      rw [value?_of_split? hsplit, value?_of_split? hsplit]
      obtain ⟨ha, hb⟩ | ⟨x, y, ha, hb, _⟩ :=
        (Agrees.intro hcolumns hsome hnested).nested?_cases hthrough
      · rw [ha, hb]
      · rw [ha, hb]
        exact ih hop x y hthrough ha hb (Projection.mem_unnest.2 ⟨path, hpath, hsplit⟩)

theorem value_eq (h : Agrees p a b) {path : String} (hpath : path ∈ p.fields) :
    a.value path = b.value path := by
  unfold value
  rw [h.value?_eq hpath]

end Agrees

end Record

theorem Projection.nestedValue_get? (p : Projection) (record : Record) (hop : String) :
    p.nestedValue (record.get? hop) =
      ((record.nested? hop).map fun nested => .object (p.apply nested)).getD .null := by
  unfold nestedValue Record.nested?
  cases record.get? hop with
  | none => rfl
  | some v => cases v <;> rfl

/-- A projection makes one record of two that agree on it. -/
theorem Record.Agrees.apply_eq {p : Projection} {a b : Record} (h : a.Agrees p b) : p.apply a = p.apply b := by
  induction h with
  | @intro p a b hcolumns hsome hnested ih =>
    refine Entries.ext_get? (p.sorted_apply a) (p.sorted_apply b) fun name => ?_
    refine (p.get?_apply a name).trans (Eq.trans ?_ (p.get?_apply b name).symm)
    by_cases hhead : (p.heads.get? name).isSome
    · have hthrough := Projection.isSome_get?_heads_iff.1 hhead
      rw [if_pos hhead, if_pos hhead, Projection.nestedValue_get?, Projection.nestedValue_get?]
      obtain ⟨ha, hb⟩ | ⟨x, y, ha, hb, _⟩ := (Agrees.intro hcolumns hsome hnested).nested?_cases hthrough
      · rw [ha, hb]
      · rw [ha, hb, Option.map_some, Option.map_some, ih name x y hthrough ha hb]
    · rw [if_neg hhead, if_neg hhead]
      by_cases hname : name ∈ p.columns
      · obtain ⟨hfield, hplain⟩ := List.mem_filter.1 hname
        rw [if_pos hname, if_pos hname]
        exact hcolumns name hfield (Path.plain_of_split?_eq_none (Option.isNone_iff_eq_none.1 hplain))
      · rw [if_neg hname, if_neg hname]

/-! ## Records with one value -/

namespace Record

variable {hops rest other : List String} {v : Value}

theorem nested?_eq (r : Record) (name : String) : r.nested? name = (r.get? name).bind Value.object? := by
  unfold nested?
  cases r.get? name with
  | none => rfl
  | some v => cases v <;> rfl

/-- What hops after others lead to. -/
theorem valueAt?_append (hhops : hops ≠ []) (hrest : rest ≠ []) (r : Record) : r.valueAt? (hops ++ rest) =
    ((r.valueAt? hops).bind Value.object?).bind fun nested => nested.valueAt? rest := by
  induction hops generalizing r with
  | nil => exact absurd rfl hhops
  | cons name hops ih =>
    rw [List.cons_append, valueAt?_cons (List.append_ne_nil_of_right_ne_nil _ hrest)]
    cases hops with
    | nil =>
      rw [nested?_eq]
      rfl
    | cons next hops =>
      have hne : next :: hops ≠ [] := List.cons_ne_nil next hops
      rw [valueAt?_cons hne]
      cases r.nested? name with
      | none => rfl
      | some nested => exact ih hne nested

/-- The record that has a value at the end of some hops and nothing else. -/
def holding (v : Value) : List String → Record
  | [] => []
  | name :: rest => [(name, if rest.isEmpty then v else .object (holding v rest))]

theorem get?_holding_of_ne {name first : String} (h : name ≠ first) (v : Value) (rest : List String) :
    (holding v (name :: rest)).get? first = none := by
  unfold holding get?
  rw [Entries.get?_cons, if_neg h]
  rfl

theorem get?_holding_last (v : Value) (name : String) : (holding v [name]).get? name = some v :=
  (Entries.get?_cons name v [] name).trans (if_pos rfl)

theorem nested?_holding (v : Value) (name : String) (hrest : rest ≠ []) :
    (holding v (name :: rest)).nested? name = some (holding v rest) := by
  have hnonempty : rest.isEmpty = false := List.isEmpty_eq_false_iff.2 hrest
  rw [nested?_eq]
  conv => lhs; unfold holding get?
  rw [Entries.get?_cons, if_pos rfl, hnonempty]
  rfl

theorem valueAt?_holding (v : Value) (hhops : hops ≠ []) : (holding v hops).valueAt? hops = some v := by
  induction hops with
  | nil => exact absurd rfl hhops
  | cons name rest ih =>
    cases rest with
    | nil => exact get?_holding_last v name
    | cons next rest =>
      have hne : next :: rest ≠ [] := List.cons_ne_nil next rest
      rw [valueAt?_cons hne, nested?_holding v name hne]
      exact ih hne

/-- Hops that do not lead towards the value lead nowhere. -/
theorem valueAt?_holding_of_not_prefix (hv : v.object? = none) (h : ¬other <+: hops) :
    (holding v hops).valueAt? other = none := by
  induction hops generalizing other with
  | nil => exact valueAt?_nil other
  | cons name rest ih =>
    cases other with
    | nil => exact absurd List.nil_prefix h
    | cons first others =>
      by_cases hfirst : name = first
      · subst hfirst
        have hothers : ¬others <+: rest := fun hbegins => h (List.cons_prefix_cons.2 ⟨rfl, hbegins⟩)
        have hne : others ≠ [] := fun hnil => hothers (hnil ▸ List.nil_prefix)
        rw [valueAt?_cons hne]
        cases rest with
        | nil =>
          rw [nested?_eq, get?_holding_last, Option.bind_some, hv]
          rfl
        | cons next rest =>
          rw [nested?_holding v name (List.cons_ne_nil next rest)]
          exact ih hothers
      · have hnone := get?_holding_of_ne hfirst v rest
        cases others with
        | nil => exact hnone
        | cons next others =>
          rw [valueAt?_cons (List.cons_ne_nil next others), nested?_eq, hnone]
          rfl

theorem value_holding (v : Value) (path : String) : (holding v (Path.hops path)).value path = v := by
  rw [value, value?, valueAt?_holding v (Path.hops_ne_nil path)]
  rfl

theorem value_holding_of_ne {path field : String} (hv : v.object? = none) (hne : field ≠ path)
    (hbeyond : ∀ rest, rest ≠ [] → Path.hops path ≠ Path.hops field ++ rest) :
    (holding v (Path.hops path)).value field = .null := by
  have hnot : ¬Path.hops field <+: Path.hops path := by
    rintro ⟨rest, hrest⟩
    cases rest with
    | nil =>
      rw [List.append_nil] at hrest
      exact hne (by rw [← Path.join_hops field, hrest, Path.join_hops])
    | cons next rest => exact hbeyond _ (List.cons_ne_nil next rest) hrest.symm
  rw [value, value?, valueAt?_holding_of_not_prefix hv hnot]
  rfl

end Record

end QueryLayer
