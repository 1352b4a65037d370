import QueryLayer.Emulation.Basic
import QueryLayer.Proofs.Query.Condition

/-! # What replaced leaves are

`replaceLeaf` answers in one of five ways: it goes on in the foreign collection, leaves the leaf as it is
(twice), reports a cycle, or asks the rule of a registration. `LeafRules` says of each way that it keeps to a
relation between leaves and their replacements; then so does the whole recursion.
-/
namespace QueryLayer.Emulation

variable {σ : Type} (e : Emulation σ) (decorated : Unit → Source σ) (caller : Caller)

section Equations

variable {c : Collection σ} {l : Leaf} {chain : List String}

/-- A path is followed into the foreign collection, if its first part is a relation. -/
theorem replaceLeaf_of_split {first rest : String} (hsplit : Path.split? l.field = some (first, rest)) :
    e.replaceLeaf decorated caller c l chain =
      match c.schema.relation? first with
      | some r => do
        let foreign ← e.child.collection r.foreignCollection
        let replaced ← e.replaceLeaf decorated caller foreign { l with field := rest } chain
        pure (replaced.nest first)
      | none => pure (.leaf l) := by
  rw [replaceLeaf]
  split
  · next first' rest' hsplit' =>
    rw [hsplit] at hsplit'
    cases hsplit'
    rfl
  · next hnone =>
    rw [hsplit] at hnone
    cases hnone

/-- A field of the collection itself is looked up among the registrations. -/
theorem replaceLeaf_of_unsplit (hsplit : Path.split? l.field = none) :
    e.replaceLeaf decorated caller c l chain =
      match e.registrations.find? c.name l.field l.operator with
      | some r =>
        if Registration.label c.name l.field l.operator ∈ chain then
          throw (.setup (.replacementCycle (chain ++ [Registration.label c.name l.field l.operator])))
        else do
          match ← r.rule.equivalent decorated l.value with
          | some condition =>
            let replaced ← condition.replaceLeavesTogether fun inner =>
              e.replaceLeaf decorated caller c inner
                (chain ++ [Registration.label c.name l.field l.operator])
            (e.scope c).checkCondition replaced
            pure replaced
          | none => bruteForce caller c l
      | none => pure (.leaf l) := by
  rw [replaceLeaf]
  split
  · next hsome =>
    rw [hsplit] at hsome
    cases hsome
  · split
    · next hfind =>
      conv_rhs => rw [hfind]
      rfl
    · next hfind =>
      conv_rhs => rw [hfind]

theorem replaceLeaf_relation {first rest : String} {r : Relation}
    (hsplit : Path.split? l.field = some (first, rest)) (hr : c.schema.relation? first = some r) :
    e.replaceLeaf decorated caller c l chain = (do
      let foreign ← e.child.collection r.foreignCollection
      let replaced ← e.replaceLeaf decorated caller foreign { l with field := rest } chain
      pure (replaced.nest first)) := by
  rw [replaceLeaf_of_split e decorated caller hsplit, hr]

theorem replaceLeaf_stray {first rest : String} (hsplit : Path.split? l.field = some (first, rest))
    (hr : c.schema.relation? first = none) :
    e.replaceLeaf decorated caller c l chain = pure (.leaf l) := by
  rw [replaceLeaf_of_split e decorated caller hsplit, hr]

theorem replaceLeaf_native (hsplit : Path.split? l.field = none)
    (hfind : e.registrations.find? c.name l.field l.operator = none) :
    e.replaceLeaf decorated caller c l chain = pure (.leaf l) := by
  rw [replaceLeaf_of_unsplit e decorated caller hsplit, hfind]

theorem replaceLeaf_cycle {r : Registration (EmulationRule σ)} (hsplit : Path.split? l.field = none)
    (hfind : e.registrations.find? c.name l.field l.operator = some r)
    (hcycle : Registration.label c.name l.field l.operator ∈ chain) :
    e.replaceLeaf decorated caller c l chain =
      throw (.setup (.replacementCycle (chain ++ [Registration.label c.name l.field l.operator]))) := by
  rw [replaceLeaf_of_unsplit e decorated caller hsplit, hfind]
  exact if_pos hcycle

theorem replaceLeaf_rule {r : Registration (EmulationRule σ)} (hsplit : Path.split? l.field = none)
    (hfind : e.registrations.find? c.name l.field l.operator = some r)
    (hnew : Registration.label c.name l.field l.operator ∉ chain) :
    e.replaceLeaf decorated caller c l chain = (do
      match ← r.rule.equivalent decorated l.value with
      | some condition =>
        let replaced ← condition.replaceLeavesTogether fun inner =>
          e.replaceLeaf decorated caller c inner
            (chain ++ [Registration.label c.name l.field l.operator])
        (e.scope c).checkCondition replaced
        pure replaced
      | none => bruteForce caller c l) := by
  rw [replaceLeaf_of_unsplit e decorated caller hsplit, hfind]
  exact if_neg hnew

end Equations

/-- What holds of each way to answer for a leaf, under an invariant `I` of the state: a leaf that `Pre`
admits is replaced as `R` says, or the failure is one of `E`. -/
structure LeafRules (I : σ → Prop) (E : Error → Prop) (Pre : List String → Collection σ → Leaf → Prop)
    (R : Collection σ → Leaf → Condition → Prop) : Prop where
  relation : ∀ {chain c l first rest r}, Pre chain c l → Path.split? l.field = some (first, rest) →
    c.schema.relation? first = some r →
    (Action.ofExcept (e.child.collection r.foreignCollection)).Yields I (fun foreign =>
      Pre chain foreign { l with field := rest } ∧
        ∀ t, R foreign { l with field := rest } t → R c l (t.nest first)) E
  stray : ∀ {chain c l first rest}, Pre chain c l → Path.split? l.field = some (first, rest) →
    c.schema.relation? first = none → R c l (.leaf l)
  native : ∀ {chain c l}, Pre chain c l → Path.split? l.field = none →
    e.registrations.find? c.name l.field l.operator = none → R c l (.leaf l)
  cycle : ∀ {chain c l r}, Pre chain c l → Path.split? l.field = none →
    e.registrations.find? c.name l.field l.operator = some r →
    Registration.label c.name l.field l.operator ∈ chain →
    E (.setup (.replacementCycle (chain ++ [Registration.label c.name l.field l.operator])))
  asked : ∀ {chain c l r}, Pre chain c l → Path.split? l.field = none →
    e.registrations.find? c.name l.field l.operator = some r →
    (r.rule.equivalent decorated l.value).Yields I (fun answer => ∀ condition, answer = some condition →
      (∀ m ∈ condition.leaves,
        Pre (chain ++ [Registration.label c.name l.field l.operator]) c m) ∧
      ∀ t, condition.Replaced (R c) t →
        (∀ err, (e.scope c).checkCondition t = .error err → E err) ∧
          ((e.scope c).checkCondition t = .ok () → R c l t)) E
  brute : ∀ {chain c l r}, Pre chain c l → Path.split? l.field = none →
    e.registrations.find? c.name l.field l.operator = some r →
    (bruteForce caller c l).Yields I (R c l) E

variable {e decorated caller} {I : σ → Prop} {E : Error → Prop}
  {Pre : List String → Collection σ → Leaf → Prop} {R : Collection σ → Leaf → Condition → Prop}

namespace LeafRules

theorem replaceLeaf_yields (h : e.LeafRules decorated caller I E Pre R) {c : Collection σ} {l : Leaf}
    {chain : List String} (hpre : Pre chain c l) :
    (e.replaceLeaf decorated caller c l chain).Yields I (R c l) E := by
  induction c, l, chain using replaceLeaf.induct e with
  | case1 c l chain first rest hsplit r hr _ ih =>
    rw [replaceLeaf_relation e decorated caller hsplit hr]
    refine (h.relation hpre hsplit hr).bind fun foreign hforeign => ?_
    exact (ih foreign hforeign.1).bind fun t ht => Action.yields_pure (hforeign.2 t ht)
  | case2 c l chain first rest hsplit hr =>
    rw [replaceLeaf_stray e decorated caller hsplit hr]
    exact Action.yields_pure (h.stray hpre hsplit hr)
  | case3 c l chain hsplit r hfind _ hcycle =>
    rw [replaceLeaf_cycle e decorated caller hsplit hfind hcycle]
    exact Action.yields_throw (h.cycle hpre hsplit hfind hcycle)
  | case4 c l chain hsplit r hfind _ hnew _ ih =>
    rw [replaceLeaf_rule e decorated caller hsplit hfind hnew]
    refine (h.asked hpre hsplit hfind).bind fun answer hanswer => ?_
    cases answer with
    | none => exact h.brute hpre hsplit hfind
    | some condition =>
      obtain ⟨hleaves, hreplaced⟩ := hanswer condition rfl
      have htogether := Condition.replaceLeavesTogether_yields fun m hm => ih m (hleaves m hm)
      refine htogether.bind fun t ht => ?_
      obtain ⟨hrefused, haccepted⟩ := hreplaced t ht
      have hcheck : (Action.ofExcept ((e.scope c).checkCondition t)).Yields I (fun _ => R c l t) E :=
        Action.yields_ofExcept (fun _ hok => haccepted hok) hrefused
      exact hcheck.bind fun _ hr => Action.yields_pure hr
  | case5 c l chain hsplit hfind =>
    rw [replaceLeaf_native e decorated caller hsplit hfind]
    exact Action.yields_pure (h.native hpre hsplit hfind)

/-- The condition of a filter that is refined passes, and its leaves are replaced. -/
theorem refine_yields (h : e.LeafRules decorated caller I E Pre R) {c : Collection σ} {f : Filter}
    (hpre : ∀ condition, f.condition = some condition → (e.scope c).checkCondition condition = .ok () →
      ∀ l ∈ condition.leaves, Pre [] c l)
    (hrefused : ∀ err, (e.scope c).checkFilter f = .error err → E err) :
    (e.refine decorated caller c f).Yields I (fun g =>
      (e.scope c).checkFilter f = .ok () ∧
        (f.condition = none ∧ g = f ∨
          ∃ condition t, f.condition = some condition ∧ condition.Replaced (R c) t ∧
            g = { f with condition := some t })) E := by
  unfold Emulation.refine
  unfold Scope.checkFilter at hrefused ⊢
  cases hf : f.condition with
  | none => exact Action.yields_pure ⟨rfl, Or.inl ⟨rfl, rfl⟩⟩
  | some condition =>
    rw [hf] at hrefused
    dsimp only
    have hcheck : (Action.ofExcept ((e.scope c).checkCondition condition)).Yields I
        (fun _ => (e.scope c).checkCondition condition = .ok ()) E :=
      Action.yields_ofExcept (fun _ hok => hok) hrefused
    refine hcheck.bind fun _ hok => ?_
    have htogether := Condition.replaceLeavesTogether_yields fun l hl =>
      h.replaceLeaf_yields (hpre condition hf hok l hl)
    exact htogether.bind fun t ht => Action.yields_pure ⟨hok, Or.inr ⟨condition, t, rfl, ht, rfl⟩⟩

end LeafRules

end QueryLayer.Emulation
