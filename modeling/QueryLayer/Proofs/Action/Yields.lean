import Mathlib.Data.List.Forall2
import QueryLayer.Action.Together

/-! # What actions yield under an invariant

`act.Yields I P E` says of an action that shares its state with others: as long as all of them keep `I`,
it keeps `I` too, at every pause and when it is given up, its answers satisfy `P` and its failures `E`.
This is kept by every way of putting actions together.
-/
namespace QueryLayer

namespace Progress

variable {σ α β : Type} {I : σ → Prop} {P : α → Prop} {E : Error → Prop}

def Yields (I : σ → Prop) (P : α → Prop) (E : Error → Prop) : Progress σ α → Prop
  | ended (.ok a) s => I s ∧ P a
  | ended (.error e) s => I s ∧ E e
  | waiting s _ abandon resume =>
    I s ∧ (∀ t, I t → I (abandon t)) ∧ ∀ t, I t → (resume t).Yields I P E

theorem Yields.state {p : Progress σ α} (h : p.Yields I P E) : I p.state := by
  cases p with
  | ended r s =>
    cases r with
    | ok a => exact h.1
    | error e => exact h.1
  | waiting s ready abandon resume => exact h.1

theorem Yields.andThen {P' : β → Prop} {E' : Error → Prop}
    {next : Except Error α → σ → Progress σ β} {p : Progress σ α} (h : p.Yields I P E)
    (hok : ∀ a s, I s → P a → (next (.ok a) s).Yields I P' E')
    (herror : ∀ e s, I s → E e → (next (.error e) s).Yields I P' E') :
    (p.andThen next).Yields I P' E' := by
  induction p with
  | ended r s =>
    cases r with
    | ok a => exact hok a s h.1 h.2
    | error e => exact herror e s h.1 h.2
  | waiting s ready abandon resume ih => exact ⟨h.1, h.2.1, fun t ht => ih t (h.2.2 t ht)⟩

theorem Yields.bind {P' : β → Prop} {next : α → σ → Progress σ β} {p : Progress σ α}
    (h : p.Yields I P E) (hnext : ∀ a s, I s → P a → (next a s).Yields I P' E) :
    (p.bind next).Yields I P' E :=
  h.andThen hnext fun _ _ hs he => ⟨hs, he⟩

theorem Yields.map {P' : β → Prop} {f : α → β} {p : Progress σ α}
    (h : p.Yields I P E) (hf : ∀ a, P a → P' (f a)) : (p.map f).Yields I P' E :=
  h.bind fun a _ hs ha => ⟨hs, hf a ha⟩

theorem Yields.mono {P' : α → Prop} {E' : Error → Prop} {p : Progress σ α} (h : p.Yields I P E)
    (hP : ∀ a, P a → P' a) (hE : ∀ e, E e → E' e) : p.Yields I P' E' := by
  rw [← andThen_ended p]
  exact h.andThen (fun a _ hs ha => ⟨hs, hP a ha⟩) fun e _ hs he => ⟨hs, hE e he⟩

theorem Yields.and {P' : α → Prop} {E' : Error → Prop} {p : Progress σ α} (h : p.Yields I P E)
    (h' : p.Yields I P' E') : p.Yields I (fun a => P a ∧ P' a) fun e => E e ∧ E' e := by
  induction p with
  | ended r s =>
    cases r with
    | ok a => exact ⟨h.1, h.2, h'.2⟩
    | error e => exact ⟨h.1, h.2, h'.2⟩
  | waiting s ready abandon resume ih =>
    exact ⟨h.1, h.2.1, fun t ht => ih t (h.2.2 t ht) (h'.2.2 t ht)⟩

/-- What an action that runs alone ends with. -/
theorem Yields.finish {p : Progress σ α} (h : p.Yields I P E) :
    I p.finish.2 ∧ (∀ a, p.finish.1 = .ok a → P a) ∧ ∀ e, p.finish.1 = .error e → E e := by
  induction p with
  | ended r s =>
    refine ⟨h.state, ?_, ?_⟩
    · rintro a rfl
      exact h.2
    · rintro e rfl
      exact h.2
  | waiting s ready abandon resume ih => exact ih s (h.2.2 s h.1)

theorem Yields.now {p : Progress σ α} (h : p.Yields I P E) {s : σ} (hs : I s) :
    (p.now s).Yields I P E := by
  cases p with
  | ended r t =>
    cases r with
    | ok a => exact ⟨hs, h.2⟩
    | error e => exact ⟨hs, h.2⟩
  | waiting t ready abandon resume => exact ⟨hs, h.2⟩

theorem Yields.giveUp {p : Progress σ α} (h : p.Yields I P E) {s : σ} (hs : I s) : I (p.giveUp s) := by
  cases p with
  | ended r t => exact hs
  | waiting t ready abandon resume => exact h.2.1 s hs

theorem Yields.join {Q : β → Prop} (eager : Bool) {s : σ} {p : Progress σ α} {q : Progress σ β}
    (hs : I s) (hp : p.Yields I P E) (hq : q.Yields I Q E) :
    (Progress.join eager s p q).Yields I (fun e => P e.1 ∧ Q e.2) E := by
  fun_induction Progress.join eager s p q with
  | case1 s a t q => exact (hq.now hs).map fun b hb => ⟨hp.2, hb⟩
  | case2 s e t q => exact ⟨hq.giveUp hs, hp.2⟩
  | case3 s t ready abandon resume b u =>
    exact Yields.map (p := waiting s ready abandon resume) ⟨hs, hp.2⟩ fun a ha => ⟨ha, hq.2⟩
  | case4 s t ready abandon resume e u => exact ⟨hp.2.1 s hs, hq.2⟩
  | case5 s t ready abandon resume e u =>
    exact Yields.bind (p := waiting s ready abandon resume) ⟨hs, hp.2⟩ fun _ _ hs _ => ⟨hs, hq.2⟩
  | case6 s t ready abandon resume u ready' abandon' resume' ih1 ih2 ih3 =>
    refine ⟨hs, fun t ht => hq.2.1 _ (hp.2.1 t ht), fun v hv => ?_⟩
    have hgone := hp.2.2 v hv
    dsimp only
    split
    · split
      · exact ih1 v hgone.state hgone hq
      · have hgone' := hq.2.2 (resume v).state hgone.state
        exact ih2 v hgone'.state hgone hgone'
    · have hgone' := hq.2.2 v hv
      exact ih3 v hgone'.state hp hgone'

end Progress

namespace Action

variable {σ α β : Type} {I : σ → Prop} {P : α → Prop} {E : Error → Prop}

@[simp] theorem liftM_eq_ofExcept (r : Except Error α) : (liftM r : Action σ α) = ofExcept r := rfl

@[simp] theorem ofExcept_ok_bind (a : α) (next : α → Action σ β) :
    ofExcept (.ok a) >>= next = next a := rfl

@[simp] theorem ofExcept_error_bind (e : Error) (next : α → Action σ β) :
    ofExcept (.error e) >>= next = ofExcept (.error e) := rfl

theorem reading_bind_ofExcept (f : σ → Except Error α) (g : α → Except Error β) :
    (reading f >>= fun a => ofExcept (g a)) = reading fun s => f s >>= g := by
  funext s
  change (Progress.ended (f s) s).bind _ = Progress.ended (f s >>= g) s
  cases f s <;> rfl

theorem runOn_map (f : α → β) (act : Action σ α) (s : σ) :
    (f <$> act).runOn s = ((act.runOn s).1.map f, (act.runOn s).2) := by
  rw [map_eq_pure_bind, runOn_bind]
  rcases act.runOn s with ⟨e | a, t⟩ <;> rfl

def Yields (I : σ → Prop) (P : α → Prop) (E : Error → Prop) (act : Action σ α) : Prop :=
  ∀ s, I s → (act s).Yields I P E

theorem yields_pure {a : α} (h : P a) : (pure a : Action σ α).Yields I P E := fun _ hs => ⟨hs, h⟩

theorem yields_throw {e : Error} (h : E e) : (throw e : Action σ α).Yields I P E :=
  fun _ hs => ⟨hs, h⟩

theorem yields_ofExcept {r : Except Error α} (hok : ∀ a, r = .ok a → P a)
    (herror : ∀ e, r = .error e → E e) : (ofExcept r : Action σ α).Yields I P E := by
  intro s hs
  cases r with
  | ok a => exact ⟨hs, hok a rfl⟩
  | error e => exact ⟨hs, herror e rfl⟩

theorem yields_reading {f : σ → Except Error α} (hok : ∀ s a, I s → f s = .ok a → P a)
    (herror : ∀ s e, I s → f s = .error e → E e) : (reading f).Yields I P E := by
  intro s hs
  change (Progress.ended (f s) s).Yields I P E
  cases h : f s with
  | ok a => exact ⟨hs, hok s a hs h⟩
  | error e => exact ⟨hs, herror s e hs h⟩

theorem yields_updating {f : σ → Except Error α × σ} (hf : ∀ s, I s → I (f s).2) :
    (updating f).Yields I (fun _ => True) fun _ => True := by
  intro s hs
  change (Progress.ended (f s).1 (f s).2).Yields I _ _
  cases (f s).1 with
  | ok a => exact ⟨hf s hs, trivial⟩
  | error e => exact ⟨hf s hs, trivial⟩

theorem Yields.bind {P' : β → Prop} {act : Action σ α} {next : α → Action σ β}
    (h : act.Yields I P E) (hnext : ∀ a, P a → (next a).Yields I P' E) :
    (act >>= next).Yields I P' E :=
  fun s hs => (h s hs).bind fun a t ht ha => hnext a ha t ht

theorem Yields.map {P' : β → Prop} {act : Action σ α} {f : α → β} (h : act.Yields I P E)
    (hf : ∀ a, P a → P' (f a)) : (f <$> act).Yields I P' E := by
  rw [map_eq_pure_bind]
  exact h.bind fun a ha => yields_pure (hf a ha)

theorem Yields.mono {P' : α → Prop} {E' : Error → Prop} {act : Action σ α} (h : act.Yields I P E)
    (hP : ∀ a, P a → P' a) (hE : ∀ e, E e → E' e) : act.Yields I P' E' :=
  fun s hs => (h s hs).mono hP hE

theorem Yields.and {P' : α → Prop} {E' : Error → Prop} {act : Action σ α} (h : act.Yields I P E)
    (h' : act.Yields I P' E') : act.Yields I (fun a => P a ∧ P' a) fun e => E e ∧ E' e :=
  fun s hs => (h s hs).and (h' s hs)

/-- What an action ends with that runs alone in a state with the invariant. -/
theorem Yields.runOn {act : Action σ α} (h : act.Yields I P E) {s : σ} (hs : I s) :
    I (act.runOn s).2 ∧ (∀ a, (act.runOn s).1 = .ok a → P a) ∧
      ∀ e, (act.runOn s).1 = .error e → E e :=
  (h s hs).finish

theorem Yields.both {Q : β → Prop} {first : Action σ α} {second : Action σ β} (eager : Bool)
    (h : first.Yields I P E) (h' : second.Yields I Q E) :
    (Action.both eager first second).Yields I (fun e => P e.1 ∧ Q e.2) E := by
  intro s hs
  have hp := h s hs
  simp only [Action.both]
  cases hf : first s with
  | ended r t =>
    rw [hf] at hp
    cases r with
    | ok a => exact (h' t hp.1).map fun b hb => ⟨hp.2, hb⟩
    | error e => exact hp
  | waiting t ready abandon resume =>
    rw [hf] at hp
    have hq := h' t hp.1
    exact hp.join eager hq.state hq

theorem yields_foldl_both {ι : Type} (eager : Bool) {R : ι → α → Prop} {f : ι → Action σ α}
    {xs ys : List ι} (h : ∀ x ∈ xs, (f x).Yields I (R x) E) {done : Action σ (List α)}
    (hdone : done.Yields I (fun as => List.Forall₂ R ys as.reverse) E) :
    ((xs.map f).foldl (fun done act => (fun e => e.2 :: e.1) <$> Action.both eager done act) done).Yields
      I (fun as => List.Forall₂ R (ys ++ xs) as.reverse) E := by
  induction xs generalizing ys done with
  | nil => simpa using hdone
  | cons x xs ih =>
    have hnext : ((fun e => e.2 :: e.1) <$> Action.both eager done (f x)).Yields I
        (fun as => List.Forall₂ R (ys ++ [x]) as.reverse) E := by
      refine (hdone.both eager (h x List.mem_cons_self)).map fun e he => ?_
      rw [List.reverse_cons]
      exact List.rel_append he.1 (.cons he.2 .nil)
    have hrest := ih (fun y hy => h y (List.mem_cons_of_mem _ hy)) hnext
    simpa using hrest

/-- Actions that run together answer one by one. -/
theorem yields_together {ι : Type} {R : ι → α → Prop} {f : ι → Action σ α} {xs : List ι}
    (h : ∀ x ∈ xs, (f x).Yields I (R x) E) :
    (together (xs.map f)).Yields I (fun as => List.Forall₂ R xs as) E := by
  have hdone : (pure [] : Action σ (List α)).Yields I
      (fun as => List.Forall₂ R [] as.reverse) E := yields_pure .nil
  exact (yields_foldl_both _ h hdone).map fun as has => by simpa using has

end Action

end QueryLayer
