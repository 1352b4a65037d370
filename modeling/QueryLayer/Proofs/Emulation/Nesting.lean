import Mathlib.Data.List.Perm.Subperm
import Mathlib.Data.List.ReduceOption
import QueryLayer.Proofs.Action.Possible
import QueryLayer.Proofs.Emulation.Registered
import QueryLayer.Proofs.Emulation.Replacement

/-! # Nested replacements

To replace a leaf, other leaves are replaced: one with the rest of its path in the foreign collection, or those
of the condition that a replacer gives. `Calls` says which, whatever the replacers answer. Along such calls the
chain grows by one new label with every replacement, and stays while the path loses its hops one by one; so
replacements are nested no deeper than there are registrations, and every call comes to an end. Main statement:
`replaceLeaf_terminates`.
-/
namespace QueryLayer

namespace Condition

theorem replaceLeavesTogether_congr {σ : Type} {f g : Leaf → Action σ Condition} {c : Condition}
    (h : ∀ l ∈ c.leaves, f l = g l) : c.replaceLeavesTogether f = c.replaceLeavesTogether g := by
  induction c using Condition.induct with
  | hleaf l => exact h l (by simp)
  | hnot c ih =>
    rw [replaceLeavesTogether, replaceLeavesTogether, ih h]
  | hbranch a cs ih =>
    have hcs : cs.map (replaceLeavesTogether f) = cs.map (replaceLeavesTogether g) :=
      List.map_congr_left fun c hc => ih c hc fun l hl => h l (mem_leaves_branch hc hl)
    rw [replaceLeavesTogether, replaceLeavesTogether, leafReplacements_eq, leafReplacements_eq, hcs]

end Condition

namespace Emulation

/-- What a registration is for. -/
@[ext]
structure Entry where
  collection : String
  field : String
  operator : Operator
deriving DecidableEq

def Entry.label (n : Entry) : String := Registration.label n.collection n.field n.operator

/-- A leaf to replace in a collection, and the labels of the replacements in progress. -/
structure Task (σ : Type) where
  collection : Collection σ
  leaf : Leaf
  chain : List String

variable {σ : Type}

def Task.entry (t : Task σ) : Entry := ⟨t.collection.name, t.leaf.field, t.leaf.operator⟩

def Task.hops (t : Task σ) : List String := Path.hops t.leaf.field

/-- The registration for this collection, field and operator. -/
def registration? (e : Emulation σ) (n : Entry) : Option (Registration (EmulationRule σ)) :=
  e.registrations.find? n.collection n.field n.operator

section

variable (e : Emulation σ) (decorated : Unit → Source σ) (caller : Caller)

/-- What a leaf is replaced by. -/
def answer (t : Task σ) : Action σ Condition := e.replaceLeaf decorated caller t.collection t.leaf t.chain

/-- What a leaf is replaced by, if other leaves are by what `answer` says. -/
def answerBy (answer : Task σ → Action σ Condition) (t : Task σ) : Action σ Condition :=
  match Path.split? t.leaf.field with
  | some (first, rest) =>
    match t.collection.schema.relation? first with
    | some r => do
      let foreign ← e.child.collection r.foreignCollection
      let replaced ← answer ⟨foreign, { t.leaf with field := rest }, t.chain⟩
      pure (replaced.nest first)
    | none => pure (.leaf t.leaf)
  | none =>
    match e.registration? t.entry with
    | some r =>
      if t.entry.label ∈ t.chain then throw (.setup (.replacementCycle (t.chain ++ [t.entry.label])))
      else do
        match ← r.rule.equivalent decorated t.leaf.value with
        | some condition =>
          let replaced ← condition.replaceLeavesTogether fun inner =>
            answer ⟨t.collection, inner, t.chain ++ [t.entry.label]⟩
          (e.scope t.collection).checkCondition replaced
          pure replaced
        | none => bruteForce caller t.collection t.leaf
    | none => pure (.leaf t.leaf)

/-- The calls that a call makes: by a hop to the foreign collection of a relation, or, by the replacement
that a registration asks for, to the leaves of any condition that its rule can answer. -/
inductive Calls : Task σ → Option Entry → Task σ → Prop
  | hop {t : Task σ} {first rest : String} {r : Relation} {foreign : Collection σ}
    (hsplit : Path.split? t.leaf.field = some (first, rest))
    (hr : t.collection.schema.relation? first = some r)
    (hforeign : e.child.collection r.foreignCollection = .ok foreign) :
    Calls t none ⟨foreign, { t.leaf with field := rest }, t.chain⟩
  | enter {t : Task σ} {r : Registration (EmulationRule σ)} {condition : Condition} {inner : Leaf}
    (hsplit : Path.split? t.leaf.field = none) (hfind : e.registration? t.entry = some r)
    (hnew : t.entry.label ∉ t.chain)
    (hanswer : (r.rule.equivalent decorated t.leaf.value).CanEnd (.ok (some condition)))
    (hinner : inner ∈ condition.leaves) :
    Calls t (some t.entry) ⟨t.collection, inner, t.chain ++ [t.entry.label]⟩

/-- Calls within each other, with the registrations that are entered on the way. -/
inductive Leads : Task σ → List (Option Entry) → Task σ → Prop
  | here (t : Task σ) : Leads t [] t
  | step {t u v : Task σ} {k : Option Entry} {ks : List (Option Entry)} :
    Calls e decorated t k u → Leads u ks v → Leads t (k :: ks) v

end

variable {e : Emulation σ} {decorated : Unit → Source σ} {caller : Caller} {t u v : Task σ}

/-! ## The recursion -/

theorem answer_eq_answerBy :
    e.answer decorated caller t = e.answerBy decorated caller (e.answer decorated caller) t := by
  unfold answer answerBy
  cases hsplit : Path.split? t.leaf.field with
  | some split => exact replaceLeaf_of_split e decorated caller hsplit
  | none => exact replaceLeaf_of_unsplit e decorated caller hsplit

/-- Only the answers to the calls that it makes matter for a call. -/
theorem answerBy_congr {f g : Task σ → Action σ Condition}
    (h : ∀ k u, e.Calls decorated t k u → f u = g u) :
    e.answerBy decorated caller f t = e.answerBy decorated caller g t := by
  unfold answerBy
  cases hsplit : Path.split? t.leaf.field with
  | some split =>
    obtain ⟨first, rest⟩ := split
    dsimp only
    cases hr : t.collection.schema.relation? first with
    | none => rfl
    | some r =>
      dsimp only
      cases hforeign : e.child.collection r.foreignCollection with
      | error err => rfl
      | ok foreign =>
        change (f _ >>= _) = (g _ >>= _)
        rw [h _ _ (.hop hsplit hr hforeign)]
  | none =>
    dsimp only
    cases hfind : e.registration? t.entry with
    | none => rfl
    | some r =>
      dsimp only
      split
      · rfl
      · next hnew =>
        refine Action.bind_congr_of_canEnd fun answer hanswer => ?_
        cases answer with
        | none => rfl
        | some condition =>
          dsimp only
          rw [Condition.replaceLeavesTogether_congr fun inner hinner =>
            h _ _ (.enter hsplit hfind hnew hanswer hinner)]

/-! ## Nesting -/

theorem label_mem_labels {n : Entry} {r : Registration (EmulationRule σ)} (h : e.registration? n = some r) :
    n.label ∈ e.registrations.labels := Registrations.label_mem_labels h

/-- A replacement uses a registration up, and a hop leaves the rest of the path. -/
theorem Calls.rank_lt {k : Option Entry} (h : e.Calls decorated t k u) :
    Prod.Lex (· < ·) (· < ·) (e.registrations.unused u.chain, u.hops.length)
      (e.registrations.unused t.chain, t.hops.length) := by
  cases h with
  | hop hsplit _ _ =>
    refine .right _ ?_
    unfold Task.hops
    rw [Path.hops_of_split? hsplit, List.length_cons]
    exact Nat.lt_succ_self _
  | enter _ hfind hnew _ _ => exact .left _ _ (Registrations.unused_lt (label_mem_labels hfind) hnew)

theorem wellFounded_calls (e : Emulation σ) (decorated : Unit → Source σ) :
    WellFounded fun u t => ∃ k, e.Calls decorated t k u := by
  have hlex : WellFounded (Prod.Lex (fun m n : Nat => m < n) fun m n : Nat => m < n) :=
    (Prod.lex Nat.lt_wfRel Nat.lt_wfRel).wf
  have hrank := InvImage.wf (fun t : Task σ => (e.registrations.unused t.chain, t.hops.length)) hlex
  exact Subrelation.wf (fun ⟨_, h⟩ => h.rank_lt) hrank

theorem Leads.append {ks ks' : List (Option Entry)} (h : e.Leads decorated t ks u)
    (h' : e.Leads decorated u ks' v) : e.Leads decorated t (ks ++ ks') v := by
  induction h with
  | here t => exact h'
  | step hcall _ ih => exact .step hcall (ih h')

/-- The registrations that were entered on the way have new labels, which make the chain longer. -/
structure Grows (e : Emulation σ) (t u : Task σ) (entered : List Entry) : Prop where
  chain : u.chain = t.chain ++ entered.map Entry.label
  distinct : (entered.map Entry.label).Nodup
  new : ∀ n ∈ entered, n.label ∉ t.chain
  registered : ∀ n ∈ entered, (e.registration? n).isSome

theorem Leads.grows {ks : List (Option Entry)} (h : e.Leads decorated t ks u) :
    e.Grows t u ks.reduceOption := by
  induction h with
  | here t => exact ⟨by simp, by simp, by simp, by simp⟩
  | @step t u v k ks hcall _ ih =>
    cases hcall with
    | hop _ _ _ => exact ⟨ih.chain, ih.distinct, ih.new, ih.registered⟩
    | enter _ hfind hnew _ _ =>
      have hfresh : ∀ n ∈ ks.reduceOption, n.label ∉ t.chain ++ [t.entry.label] := ih.new
      refine ⟨?_, ?_, ?_, ?_⟩
      · rw [ih.chain]
        simp
      · rw [List.reduceOption_cons_of_some, List.map_cons, List.nodup_cons]
        refine ⟨fun hmem => ?_, ih.distinct⟩
        obtain ⟨n, hn, heq⟩ := List.mem_map.1 hmem
        exact hfresh n hn (heq ▸ List.mem_append_right _ List.mem_cons_self)
      · rw [List.reduceOption_cons_of_some, List.forall_mem_cons]
        exact ⟨hnew, fun n hn hmem => hfresh n hn (List.mem_append_left _ hmem)⟩
      · rw [List.reduceOption_cons_of_some, List.forall_mem_cons]
        exact ⟨by rw [hfind]; rfl, ih.registered⟩

/-- As the labels are new and told apart, each of them uses up another registration. -/
theorem Grows.length_le_unused {entered : List Entry} (h : e.Grows t u entered) :
    entered.length ≤ e.registrations.unused t.chain := by
  have hsubset : entered.map Entry.label ⊆ e.registrations.labels.filter fun l => !t.chain.contains l := by
    intro label hlabel
    obtain ⟨n, hn, rfl⟩ := List.mem_map.1 hlabel
    obtain ⟨r, hr⟩ := Option.isSome_iff_exists.1 (h.registered n hn)
    exact List.mem_filter.2 ⟨label_mem_labels hr, by simpa using h.new n hn⟩
  have hle := (h.distinct.subperm hsubset).length_le
  rwa [List.length_map] at hle

/-- Without replacements a path loses one hop by every call. -/
theorem Leads.hops_eq {ks : List (Option Entry)} (h : e.Leads decorated t ks u) (hks : ∀ k ∈ ks, k = none) :
    t.hops.length = u.hops.length + ks.length := by
  induction h with
  | here t => rfl
  | step hcall _ ih =>
    rw [List.forall_mem_cons] at hks
    cases hcall with
    | hop hsplit _ _ =>
      have hrest := ih hks.2
      unfold Task.hops at hrest ⊢
      rw [Path.hops_of_split? hsplit, List.length_cons, hrest, List.length_cons]
      omega
    | enter _ _ _ _ _ => cases hks.1

/-! ## Termination -/

/-- The recursion over leaves comes to an end. -/
structure Terminates (e : Emulation σ) (decorated : Unit → Source σ) (caller : Caller) : Prop where
  /-- What a leaf is replaced by is made of what the calls for it say, and of nothing that other calls do. -/
  solves : ∀ t, e.answer decorated caller t = e.answerBy decorated caller (e.answer decorated caller) t
  consults : ∀ t f g, (∀ k u, e.Calls decorated t k u → f u = g u) →
    e.answerBy decorated caller f t = e.answerBy decorated caller g t
  /-- No calls go on forever, so nothing else is made of its own calls in this way. -/
  wellFounded : WellFounded fun u t => ∃ k, e.Calls decorated t k u
  unique : ∀ f, (∀ t, f t = e.answerBy decorated caller f t) → f = e.answer decorated caller
  ends : ∀ t s, (∃ condition, ((e.answer decorated caller t).runOn s).1 = .ok condition) ∨
    ∃ err, ((e.answer decorated caller t).runOn s).1 = .error err
  /-- A replacement is refused if its label is in the chain, and else adds it for the calls that it makes. -/
  refuses : ∀ t r, Path.split? t.leaf.field = none → e.registration? t.entry = some r →
    t.entry.label ∈ t.chain →
    e.answer decorated caller t = throw (.setup (.replacementCycle (t.chain ++ [t.entry.label])))
  enters : ∀ t n u, e.Calls decorated t (some n) u → n = t.entry ∧ (e.registration? n).isSome ∧
    n.label ∉ t.chain ∧ u.chain = t.chain ++ [n.label] ∧ u.collection = t.collection
  /-- The other calls take the first hop off the path. -/
  hops : ∀ t u, e.Calls decorated t none u → u.chain = t.chain ∧ ∃ first, t.hops = first :: u.hops
  between : ∀ t ks u, e.Leads decorated t ks u → (∀ k ∈ ks, k = none) →
    t.hops.length = u.hops.length + ks.length
  /-- There are no more replacements within each other than registrations that the chain does not name. -/
  bounded : ∀ t ks u, e.Leads decorated t ks u → e.Grows t u ks.reduceOption ∧
    ks.reduceOption.length ≤ e.registrations.unused t.chain ∧
    e.registrations.unused t.chain ≤ e.registrations.labels.length

theorem answer_unique {f : Task σ → Action σ Condition} (h : ∀ t, f t = e.answerBy decorated caller f t) :
    f = e.answer decorated caller := by
  funext t
  induction t using (wellFounded_calls e decorated).induction with
  | _ t ih =>
    rw [h t, answer_eq_answerBy]
    exact answerBy_congr fun k u hcall => ih u ⟨k, hcall⟩

theorem replaceLeaf_terminates (e : Emulation σ) (decorated : Unit → Source σ) (caller : Caller) :
    e.Terminates decorated caller where
  solves _ := answer_eq_answerBy
  consults _ _ _ h := answerBy_congr h
  wellFounded := wellFounded_calls e decorated
  unique _ h := answer_unique h
  ends t s := by
    cases ((e.answer decorated caller t).runOn s).1 with
    | ok condition => exact .inl ⟨condition, rfl⟩
    | error err => exact .inr ⟨err, rfl⟩
  refuses _ _ hsplit hfind hcycle := replaceLeaf_cycle e decorated caller hsplit hfind hcycle
  enters _ _ _ hcall := by
    cases hcall with
    | enter _ hfind hnew _ _ => exact ⟨rfl, by rw [hfind]; rfl, hnew, rfl, rfl⟩
  hops _ _ hcall := by
    cases hcall with
    | hop hsplit _ _ => exact ⟨rfl, _, Path.hops_of_split? hsplit⟩
  between _ _ _ h hks := h.hops_eq hks
  bounded _ _ _ h := ⟨h.grows, h.grows.length_le_unused, List.length_filter_le _ _⟩

end Emulation

end QueryLayer
