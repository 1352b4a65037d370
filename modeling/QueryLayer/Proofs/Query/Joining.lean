import QueryLayer.Proofs.Query.Condition

/-! # Conditions joined

`join?` takes branches of its aggregator apart, so that its answer has another shape than a branch over the
conditions it was given; the leaves stay in order, and so does what the conditions come to together. It answers
nothing when every condition is a branch of its aggregator over no conditions. An intersection of these is no
condition indeed; a union of these holds for no record. Main statement: `Condition.joined`.
-/
namespace QueryLayer

namespace Aggregator

theorem combine_append (a : Aggregator) (xs ys : List Bool) :
    a.combine (xs ++ ys) = a.combine [a.combine xs, a.combine ys] := by
  cases a <;> simp [combine]

theorem combine_singleton (a : Aggregator) (x : Bool) : a.combine [x] = x := by
  cases a <;> simp [combine]

end Aggregator

namespace Condition

/-- The conditions of a branch of the aggregator, the condition itself otherwise. -/
def parts (a : Aggregator) : Condition → List Condition
  | branch b cs => if b = a then cs else [branch b cs]
  | c => [c]

theorem join?_eq (a : Aggregator) (cs : List Condition) :
    join? a cs = match cs.flatMap (parts a) with
      | [] => none
      | [c] => some c
      | cs => some (branch a cs) := by
  have hparts : cs.flatMap (parts a) = cs.flatMap fun
      | branch b cs => if b = a then cs else [branch b cs]
      | c => [c] := by
    refine List.flatMap_congr fun c _ => ?_
    cases c <;> rfl
  rw [hparts]
  rfl

theorem parts_cases (a : Aggregator) (c : Condition) : c.parts a = [c] ∨ c = branch a (c.parts a) := by
  cases c with
  | branch b cs =>
    change (if b = a then cs else [branch b cs]) = _ ∨ _ = branch a (if b = a then cs else [branch b cs])
    by_cases hb : b = a
    · subst hb
      exact Or.inr (by rw [if_pos rfl])
    · exact Or.inl (by rw [if_neg hb])
  | _ => exact Or.inl rfl

theorem combine_parts (f : Leaf → Bool) (a : Aggregator) (c : Condition) :
    a.combine ((c.parts a).map (truth f)) = c.truth f := by
  rcases parts_cases a c with h | h
  · rw [h]
    exact a.combine_singleton _
  · conv => rhs; rw [h, truth_branch]

theorem combine_flatMap_parts (f : Leaf → Bool) (a : Aggregator) (cs : List Condition) :
    a.combine ((cs.flatMap (parts a)).map (truth f)) = a.combine (cs.map (truth f)) := by
  induction cs with
  | nil => rfl
  | cons c cs ih =>
    have hcons : (c :: cs).map (truth f) = [c.truth f] ++ cs.map (truth f) := rfl
    rw [List.flatMap_cons, List.map_append, a.combine_append, ih, combine_parts, hcons,
      a.combine_append [c.truth f], a.combine_singleton]

theorem truth_of_join? {f : Leaf → Bool} {a : Aggregator} {cs : List Condition} {t : Condition}
    (h : join? a cs = some t) : t.truth f = a.combine (cs.map (truth f)) := by
  rw [join?_eq] at h
  rw [← combine_flatMap_parts]
  split at h
  · cases h
  · next c hflat =>
    cases h
    rw [hflat]
    exact (a.combine_singleton _).symm
  · cases h
    exact truth_branch f a _

theorem leaves_parts (a : Aggregator) (c : Condition) : (c.parts a).flatMap leaves = c.leaves := by
  rcases parts_cases a c with h | h
  · rw [h]
    simp
  · conv => rhs; rw [h, leaves_branch]

theorem leaves_flatMap_parts (a : Aggregator) (cs : List Condition) :
    (cs.flatMap (parts a)).flatMap leaves = cs.flatMap leaves := by
  rw [List.flatMap_assoc]
  exact List.flatMap_congr fun c _ => leaves_parts a c

theorem leaves_of_join? {a : Aggregator} {cs : List Condition} {t : Condition} (h : join? a cs = some t) :
    t.leaves = cs.flatMap leaves := by
  rw [join?_eq] at h
  rw [← leaves_flatMap_parts a]
  split at h
  · cases h
  · next c hc =>
    cases h
    rw [hc]
    simp
  · cases h
    rw [leaves_branch]

theorem exists_join? {a : Aggregator} {cs : List Condition} (h : cs.flatMap leaves ≠ []) :
    ∃ t, join? a cs = some t := by
  rw [join?_eq]
  split
  · next hnil =>
    rw [← leaves_flatMap_parts a, hnil] at h
    exact absurd rfl h
  · exact ⟨_, rfl⟩
  · exact ⟨_, rfl⟩

theorem parts_eq_nil_iff {a : Aggregator} {c : Condition} : c.parts a = [] ↔ c = branch a [] := by
  constructor
  · intro hnil
    rcases parts_cases a c with h | h
    · rw [hnil] at h
      cases h
    · rwa [hnil] at h
  · rintro rfl
    exact if_pos rfl

/-- Nothing is answered when there is nothing left after the branches were taken apart. -/
theorem join?_eq_none_iff {a : Aggregator} {cs : List Condition} :
    join? a cs = none ↔ ∀ c ∈ cs, c = branch a [] := by
  have hflat : join? a cs = none ↔ cs.flatMap (parts a) = [] := by
    rw [join?_eq]
    split
    · next hnil => exact iff_of_true rfl hnil
    · next hone => simp [hone]
    · next hnil _ => exact iff_of_false (by simp) hnil
  rw [hflat, List.flatMap_eq_nil_iff]
  exact forall₂_congr fun c _ => parts_eq_nil_iff

theorem holds_of_join? {a : Aggregator} {cs : List Condition} {t : Condition} (h : join? a cs = some t)
    (record : Record) : t.holds record = a.combine (cs.map (holds record)) := by
  rw [holds_eq_truth, truth_of_join? h]
  exact congrArg a.combine (List.map_congr_left fun c _ => (holds_eq_truth record c).symm)

theorem holds_of_union? {cs : List Condition} {t : Condition} (h : union? cs = some t) (record : Record) :
    t.holds record = true ↔ ∃ c ∈ cs, c.holds record = true := by
  rw [holds_of_join? h, Aggregator.combine, List.any_map, List.any_eq_true]
  rfl

theorem holds_of_intersect? {given : List (Option Condition)} {t : Condition}
    (h : intersect? given = some t) (record : Record) :
    t.holds record = true ↔ ∀ c, some c ∈ given → c.holds record = true := by
  rw [holds_of_join? h, Aggregator.combine, List.all_map, List.all_eq_true]
  simp only [List.mem_filterMap, id_eq, exists_eq_right]
  rfl

/-- A union holds for the records that one of its conditions holds for. It is answered unless all of these are
alternatives between no conditions. An intersection holds for the records that all of its conditions hold
for, which are all records where it is not answered. -/
theorem holds_joined (cs : List Condition) (given : List (Option Condition)) :
    (∀ t, union? cs = some t → ∀ record, t.holds record = true ↔ ∃ c ∈ cs, c.holds record = true) ∧
    (union? cs = none ↔ ∀ c ∈ cs, c = branch .or []) ∧
    (∀ t, intersect? given = some t →
      ∀ record, t.holds record = true ↔ ∀ c, some c ∈ given → c.holds record = true) ∧
    (intersect? given = none → ∀ c, some c ∈ given → ∀ record, c.holds record = true) := by
  refine ⟨fun t ht => holds_of_union? ht, join?_eq_none_iff, fun t ht => holds_of_intersect? ht, ?_⟩
  intro hnone c hc record
  have hempty := join?_eq_none_iff.1 hnone c (List.mem_filterMap.2 ⟨some c, hc, rfl⟩)
  rw [hempty]
  rfl

/-- Who gets in for less: a branch of one condition, one of none and one of the other aggregator. -/
def reductions : List Condition :=
  [branch .or [leaf ⟨"age", .lessThan, .int 18⟩], branch .or [], branch .and [leaf ⟨"member", .present, .null⟩]]

theorem holds_joined_reductions :
    let t := branch .or [leaf ⟨"age", .lessThan, .int 18⟩, branch .and [leaf ⟨"member", .present, .null⟩]]
    union? reductions = some t ∧ (∀ record, t.holds record = true ↔ ∃ c ∈ reductions, c.holds record = true) ∧
      intersect? [none, some (branch .and [])] = none ∧ ∀ record, (branch .and []).holds record = true := by
  obtain ⟨hunion, -, -, hintersect⟩ := holds_joined reductions [none, some (branch .and [])]
  exact ⟨rfl, hunion _ rfl, rfl, hintersect rfl (branch .and []) (by simp)⟩

/-- A single alternative between no conditions holds for no record and is answered as no condition, which
would hold for all. -/
theorem not_eq_nil_of_union : ¬ ∀ cs : List Condition, union? cs = none → cs = [] := by
  intro h
  exact List.cons_ne_nil _ _ (h [branch .or []] rfl)

end Condition

end QueryLayer
