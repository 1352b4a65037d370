import Mathlib.Data.List.Forall2
import QueryLayer.Emulation.Basic
import QueryLayer.Proofs.Action.Yields
import QueryLayer.Proofs.Outcome

/-! # Conditions leaf by leaf

A condition holds or not by what its leaves say, so that one whose leaves were replaced is known by the
replacements: `Replaced`. A condition under a relation reads the nested record.
-/
namespace QueryLayer

namespace Record

/-- The record nested under a relation. -/
def nested? (record : Record) (name : String) : Option Record :=
  match record.get? name with
  | some (.object members) => some members
  | _ => none

theorem get?_of_nested? {record nested : Record} {name : String} (h : record.nested? name = some nested) :
    record.get? name = some (.object nested) := by
  unfold nested? at h
  split at h
  · next hget => rw [hget, Option.some.inj h]
  · cases h

/-- The record nested under a relation, the empty one where there is none. -/
def nested (record : Record) (name : String) : Record := (record.nested? name).getD []

@[simp] theorem nested_nil (name : String) : nested [] name = [] := rfl

theorem valueAt?_nil (hops : List String) : valueAt? [] hops = none := by
  cases hops with
  | nil => rfl
  | cons hop rest => cases rest <;> rfl

theorem value_nil (path : String) : value [] path = .null := by
  rw [value, value?, valueAt?_nil]
  rfl

theorem value_of_plain {name : String} (h : Path.Plain name) (record : Record) :
    record.value name = (record.get? name).getD .null := by
  rw [value, value?, Path.hops_of_plain h]
  rfl

theorem valueAt?_cons {hops : List String} (h : hops ≠ []) (name : String) (record : Record) :
    record.valueAt? (name :: hops) = (record.nested? name).bind fun nested => nested.valueAt? hops := by
  obtain ⟨hop, rest, rfl⟩ := List.exists_cons_of_ne_nil h
  unfold nested?
  rw [valueAt?]
  · cases record.get? name with
    | none => rfl
    | some v => cases v <;> rfl
  · simp

theorem value_under {name : String} (h : Path.Plain name) (path : String) (record : Record) :
    record.value (Path.under name path) = (record.nested name).value path := by
  rw [value, value?, Path.hops_under h, valueAt?_cons (Path.hops_ne_nil path), nested]
  cases record.nested? name with
  | none => exact (value_nil path).symm
  | some nested => rfl

end Record

namespace Leaf

theorem holds_nest {name : String} (h : Path.Plain name) (l : Leaf) (record : Record) :
    (l.nest name).holds record = l.holds (record.nested name) := by
  unfold Leaf.holds Leaf.nest
  exact congrArg l.holdsFor (Record.value_under h l.field record)

/-- A leaf behind a relation is one of the foreign collection, put under the relation. -/
theorem nest_of_split? {l : Leaf} {first rest : String} (h : Path.split? l.field = some (first, rest)) :
    Leaf.nest first { l with field := rest } = l := by
  unfold Leaf.nest
  rw [← Path.eq_under_of_split? h]

theorem holds_nil (l : Leaf) : l.holds [] = l.holdsFor .null := by
  rw [Leaf.holds, Record.value_nil]

end Leaf

/-- The truth of a branch by those of its conditions. -/
def Aggregator.combine : Aggregator → List Bool → Bool
  | and, truths => truths.all id
  | or, truths => truths.any id

namespace Condition

@[simp] theorem nest_leaf (name : String) (l : Leaf) : (leaf l).nest name = leaf (l.nest name) := rfl

@[simp] theorem nest_not (name : String) (c : Condition) : (not c).nest name = not (c.nest name) := rfl

@[simp] theorem nest_branch (name : String) (a : Aggregator) (cs : List Condition) :
    (branch a cs).nest name = branch a (cs.map (nest name)) := by
  simp only [nest, renameFields, replaceLeaves, replaceLeavesOf_eq]
  rfl

@[simp] theorem leaves_leaf (l : Leaf) : (leaf l).leaves = [l] := rfl

@[simp] theorem leaves_not (c : Condition) : (not c).leaves = c.leaves := rfl

@[simp] theorem leaves_branch (a : Aggregator) (cs : List Condition) :
    (branch a cs).leaves = cs.flatMap leaves := leavesOf_eq cs

theorem leaves_nest (name : String) (c : Condition) :
    (c.nest name).leaves = c.leaves.map (Leaf.nest name) := by
  induction c using Condition.induct with
  | hleaf l => rfl
  | hnot c ih => simpa using ih
  | hbranch a cs ih =>
    rw [nest_branch, leaves_branch, leaves_branch, List.flatMap_map, List.map_flatMap]
    exact List.flatMap_congr ih

mutual

/-- What a condition comes to when its leaves are answered by `f`. -/
def truth (f : Leaf → Bool) : Condition → Bool
  | leaf l => f l
  | not c => !c.truth f
  | branch .and cs => truthAll f cs
  | branch .or cs => truthAny f cs

def truthAll (f : Leaf → Bool) : List Condition → Bool
  | [] => true
  | c :: cs => c.truth f && truthAll f cs

def truthAny (f : Leaf → Bool) : List Condition → Bool
  | [] => false
  | c :: cs => c.truth f || truthAny f cs

end

theorem truth_branch (f : Leaf → Bool) (a : Aggregator) (cs : List Condition) :
    (branch a cs).truth f = a.combine (cs.map (truth f)) := by
  cases a with
  | and =>
    change truthAll f cs = _
    induction cs with
    | nil => rfl
    | cons c cs ih =>
      rw [truthAll, ih, List.map_cons, Aggregator.combine, Aggregator.combine, List.all_cons]
      rfl
  | or =>
    change truthAny f cs = _
    induction cs with
    | nil => rfl
    | cons c cs ih =>
      rw [truthAny, ih, List.map_cons, Aggregator.combine, Aggregator.combine, List.any_cons]
      rfl

theorem holds_branch (record : Record) (a : Aggregator) (cs : List Condition) :
    (branch a cs).holds record = a.combine (cs.map (holds record)) := by
  cases a with
  | and =>
    rw [holds, holdsAll_eq, Aggregator.combine, List.all_map]
    rfl
  | or =>
    rw [holds, holdsAny_eq, Aggregator.combine, List.any_map]
    rfl

theorem mem_leaves_branch {a : Aggregator} {cs : List Condition} {c : Condition} {l : Leaf} (hc : c ∈ cs)
    (hl : l ∈ c.leaves) : l ∈ (branch a cs).leaves := by
  rw [leaves_branch]
  exact List.mem_flatMap.2 ⟨c, hc, hl⟩

theorem truth_congr {f g : Leaf → Bool} {c : Condition} (h : ∀ l ∈ c.leaves, f l = g l) :
    c.truth f = c.truth g := by
  induction c using Condition.induct with
  | hleaf l => exact h l (by simp)
  | hnot c ih =>
    simp only [truth]
    rw [ih h]
  | hbranch a cs ih =>
    have hcs : ∀ c ∈ cs, c.truth f = c.truth g := fun c hc =>
      ih c hc fun l hl => h l (mem_leaves_branch hc hl)
    rw [truth_branch, truth_branch, List.map_congr_left hcs]

theorem holds_eq_truth (record : Record) (c : Condition) :
    c.holds record = c.truth fun l => l.holds record := by
  induction c using Condition.induct with
  | hleaf l => rfl
  | hnot c ih => simp only [holds, truth, ih]
  | hbranch a cs ih => rw [holds_branch, truth_branch, List.map_congr_left ih]

theorem holds_congr {a b : Record} {c : Condition} (h : ∀ l ∈ c.leaves, l.holds a = l.holds b) :
    c.holds a = c.holds b := by
  rw [holds_eq_truth, holds_eq_truth]
  exact truth_congr h

theorem holds_nest {name : String} (h : Path.Plain name) (c : Condition) (record : Record) :
    (c.nest name).holds record = c.holds (record.nested name) := by
  induction c using Condition.induct with
  | hleaf l => exact l.holds_nest h record
  | hnot c ih => simp only [nest_not, holds, ih]
  | hbranch a cs ih =>
    rw [nest_branch, holds_branch, holds_branch, List.map_map]
    exact congrArg a.combine (List.map_congr_left ih)

/-- The second condition is the first with leaves replaced as `R` says. -/
inductive Replaced (R : Leaf → Condition → Prop) : Condition → Condition → Prop
  | leaf {l : Leaf} {t : Condition} : R l t → Replaced R (leaf l) t
  | not {c d : Condition} : Replaced R c d → Replaced R (not c) (not d)
  | branch {a : Aggregator} {cs ds : List Condition} : List.Forall₂ (Replaced R) cs ds →
    Replaced R (branch a cs) (branch a ds)

variable {R : Leaf → Condition → Prop}

/-- A property of pairs that follows from the leaves, for conditions whose leaves were replaced. -/
theorem Replaced.induct {motive : Condition → Condition → Prop} {c d : Condition} (h : Replaced R c d)
    (hleaf : ∀ l t, l ∈ c.leaves → R l t → motive (.leaf l) t)
    (hnot : ∀ c d, motive c d → motive (.not c) (.not d))
    (hbranch : ∀ a cs ds, List.Forall₂ motive cs ds → motive (.branch a cs) (.branch a ds)) :
    motive c d := by
  induction c using Condition.induct generalizing d with
  | hleaf l =>
    cases h with
    | leaf h => exact hleaf l _ (by simp) h
  | hnot c ih =>
    cases h with
    | not h => exact hnot _ _ (ih h hleaf)
  | hbranch a cs ih =>
    cases h with
    | branch h =>
      refine hbranch a cs _ (Outcome.forall₂_imp_of_mem h fun c hc _ _ hcd => ?_)
      exact ih c hc hcd fun l t hl => hleaf l t (mem_leaves_branch hc hl)

theorem Replaced.mono {R' : Leaf → Condition → Prop} {c d : Condition} (h : Replaced R c d)
    (hR : ∀ l t, R l t → R' l t) : Replaced R' c d :=
  h.induct (motive := Replaced R') (fun l t _ hlt => .leaf (hR l t hlt)) (fun _ _ ih => .not ih)
    fun _ _ _ ih => .branch ih

theorem Replaced.truth_eq {f g : Leaf → Bool} {c d : Condition} (h : Replaced R c d)
    (hR : ∀ l t, l ∈ c.leaves → R l t → t.truth f = g l) : d.truth f = c.truth g := by
  refine h.induct (motive := fun c d => d.truth f = c.truth g) hR (fun c d ih => ?_)
    fun a cs ds ih => ?_
  · simp only [truth, ih]
  · have hmap : ds.map (truth f) = cs.map (truth g) := by
      induction ih with
      | nil => rfl
      | cons hc _ ih => rw [List.map_cons, List.map_cons, hc, ih]
    rw [truth_branch, truth_branch, hmap]

/-- Replacements that agree with their leaves make a condition that agrees with the first. -/
theorem Replaced.holds_eq {record : Record} {g : Leaf → Bool} {c d : Condition} (h : Replaced R c d)
    (hR : ∀ l t, l ∈ c.leaves → R l t → t.holds record = g l) : d.holds record = c.truth g := by
  rw [holds_eq_truth]
  refine h.truth_eq fun l t hl hlt => ?_
  rw [← holds_eq_truth]
  exact hR l t hl hlt

theorem Replaced.mem_leaves {c d : Condition} (h : Replaced R c d) {m : Leaf} (hm : m ∈ d.leaves) :
    ∃ l t, l ∈ c.leaves ∧ R l t ∧ m ∈ t.leaves := by
  have hall : ∀ m ∈ d.leaves, ∃ l t, l ∈ c.leaves ∧ R l t ∧ m ∈ t.leaves := by
    refine h.induct (motive := fun _ d => ∀ m ∈ d.leaves, ∃ l t, l ∈ c.leaves ∧ R l t ∧ m ∈ t.leaves)
      (fun l t hl hlt m hm => ⟨l, t, hl, hlt, hm⟩) (fun _ _ ih => ih) fun a cs ds ih m hm => ?_
    rw [leaves_branch] at hm
    obtain ⟨d, hd, hm⟩ := List.mem_flatMap.1 hm
    obtain ⟨i, hi, rfl⟩ := List.getElem_of_mem hd
    exact (List.forall₂_iff_get.1 ih).2 i (by simpa [ih.length_eq] using hi) hi m hm
  exact hall m hm

theorem Replaced.exists_of_mem_leaves {c d : Condition} (h : Replaced R c d) {l : Leaf} (hl : l ∈ c.leaves) :
    ∃ t, R l t ∧ ∀ m ∈ t.leaves, m ∈ d.leaves := by
  have hall : ∀ l ∈ c.leaves, ∃ t, R l t ∧ ∀ m ∈ t.leaves, m ∈ d.leaves := by
    refine h.induct (motive := fun c d => ∀ l ∈ c.leaves, ∃ t, R l t ∧ ∀ m ∈ t.leaves, m ∈ d.leaves)
      (fun l t _ hlt l' hl' => ?_) (fun _ _ ih => ih) fun a cs ds ih l hl => ?_
    · obtain rfl := List.mem_singleton.1 hl'
      exact ⟨t, hlt, fun _ hm => hm⟩
    · rw [leaves_branch] at hl
      obtain ⟨c, hc, hl⟩ := List.mem_flatMap.1 hl
      obtain ⟨i, hi, rfl⟩ := List.getElem_of_mem hc
      have hi' : i < ds.length := by
        rw [← ih.length_eq]
        exact hi
      obtain ⟨t, hlt, ht⟩ := (List.forall₂_iff_get.1 ih).2 i hi hi' l hl
      exact ⟨t, hlt, fun m hm => mem_leaves_branch (List.get_mem ds ⟨i, hi'⟩) (ht m hm)⟩
  exact hall l hl

variable {σ : Type} {I : σ → Prop} {E : Error → Prop}

theorem replaceLeavesTogether_yields {f : Leaf → Action σ Condition} {c : Condition}
    (h : ∀ l ∈ c.leaves, (f l).Yields I (R l) E) :
    (c.replaceLeavesTogether f).Yields I (Replaced R c) E := by
  induction c using Condition.induct with
  | hleaf l => exact (h l (by simp)).mono (fun _ ht => .leaf ht) fun _ he => he
  | hnot c ih =>
    rw [replaceLeavesTogether]
    exact (ih h).bind fun d hd => Action.yields_pure (.not hd)
  | hbranch a cs ih =>
    rw [replaceLeavesTogether, leafReplacements_eq]
    have hcs : (Action.together (cs.map (replaceLeavesTogether f))).Yields I
        (List.Forall₂ (Replaced R) cs) E := by
      exact Action.yields_together fun c hc => ih c hc fun l hl => h l (mem_leaves_branch hc hl)
    exact hcs.bind fun ds hds => Action.yields_pure (.branch hds)

end Condition

end QueryLayer
