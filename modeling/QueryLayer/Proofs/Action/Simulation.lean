import QueryLayer.Proofs.Action.Yields
import QueryLayer.Remote.Server

/-! # Sources on parts of a state

An action simulates another one, on a state of its own, if from related states both have the same
outcome and end in related states. Main statement: a source on a part of a larger state answers as it
does on that part alone, `Source.simulates_answer`.
-/
namespace QueryLayer

variable {σ τ υ α β : Type}

namespace Action

def Simulates (R : σ → τ → Prop) (act : Action σ α) (model : Action τ α) : Prop :=
  ∀ s t, R s t → (act.runOn s).1 = (model.runOn t).1 ∧ R (act.runOn s).2 (model.runOn t).2

variable {R : σ → τ → Prop}

theorem simulates_pure (a : α) : Simulates R (pure a) (pure a) := fun _ _ h => ⟨rfl, h⟩

theorem simulates_ofExcept (r : Except Error α) : Simulates R (ofExcept r) (ofExcept r) :=
  fun _ _ h => ⟨rfl, h⟩

theorem simulates_throw (e : Error) : Simulates R (throw e : Action σ α) (throw e) :=
  fun _ _ h => ⟨rfl, h⟩

theorem Simulates.bind {act : Action σ α} {model : Action τ α} {next : α → Action σ β}
    {next' : α → Action τ β} (h : Simulates R act model) (hnext : ∀ a, Simulates R (next a) (next' a)) :
    Simulates R (act >>= next) (model >>= next') := by
  intro s t hst
  obtain ⟨houtcome, hstate⟩ := h s t hst
  rw [runOn_bind, runOn_bind]
  rcases hact : act.runOn s with ⟨r, s'⟩
  rcases hmodel : model.runOn t with ⟨r', t'⟩
  rw [hact, hmodel] at houtcome hstate
  obtain rfl : r = r' := houtcome
  cases r with
  | error e => exact ⟨rfl, hstate⟩
  | ok a => exact hnext a s' t' hstate

theorem Simulates.trans {S : τ → υ → Prop} {act : Action σ α} {model : Action τ α}
    {model' : Action υ α} (h : Simulates R act model) (h' : Simulates S model model') :
    Simulates (fun s u => ∃ t, R s t ∧ S t u) act model' := by
  rintro s u ⟨t, hst, htu⟩
  obtain ⟨houtcome, hstate⟩ := h s t hst
  obtain ⟨houtcome', hstate'⟩ := h' t u htu
  exact ⟨houtcome.trans houtcome', _, hstate, hstate'⟩

end Action

/-- The part that a lens picks out is the related state, also after it was set. -/
structure Lens.Shows (l : Lens σ τ) (R : σ → τ → Prop) : Prop where
  get : ∀ s t, R s t → l.get s = t
  set : ∀ s t t', R s t → R (l.set t' s) t'

variable {l : Lens σ τ} {R : σ → τ → Prop}

theorem Lens.Lawful.shows (h : l.Lawful) : l.Shows fun s t => l.get s = t :=
  ⟨fun _ _ hst => hst, fun s _ t' _ => h.get_set t' s⟩

/-- By induction on the progress: at every pause the larger state shows the part. -/
theorem Lens.Shows.finish_zoom (h : l.Shows R) (p : Progress τ α) {s : σ} {t : τ} (hst : R s t) :
    (p.zoom l s).finish.1 = p.finish.1 ∧ R (p.zoom l s).finish.2 p.finish.2 := by
  induction p generalizing s t with
  | ended r u => exact ⟨rfl, h.set s t u hst⟩
  | waiting u ready abandon resume ih =>
    have hset := h.set s t u hst
    simp only [Progress.zoom, Progress.finish, h.get _ _ hset]
    exact ih u hset

theorem Lens.Shows.simulates_zoom (h : l.Shows R) (act : Action τ α) : (act.zoom l).Simulates R act := by
  intro s t hst
  have hfinish := h.finish_zoom (act t) hst
  rwa [← h.get s t hst] at hfinish ⊢

/-! ## Answers -/

open QueryLayer.Action

theorem Collection.simulates_answer (h : l.Shows R) (c : Collection τ) (method : Method) (a : Arguments) :
    ((c.zoom l).answer method a).Simulates R (c.answer method a) := by
  cases method with
  | list => exact (h.simulates_zoom _).bind fun _ => simulates_pure _
  | create =>
    exact (simulates_ofExcept _).bind fun _ => (h.simulates_zoom _).bind fun _ => simulates_pure _
  | update =>
    exact (simulates_ofExcept _).bind fun _ => (h.simulates_zoom _).bind fun _ => simulates_pure _
  | delete => exact (h.simulates_zoom _).bind fun _ => simulates_pure _
  | aggregate =>
    exact (simulates_ofExcept _).bind fun _ => (h.simulates_zoom _).bind fun _ => simulates_pure _
  | execute => exact (simulates_ofExcept _).bind fun _ => h.simulates_zoom _
  | getForm =>
    exact (simulates_ofExcept _).bind fun _ => (h.simulates_zoom _).bind fun _ => simulates_pure _
  | handshake | schema | renderChart => exact simulates_throw _

theorem Handshake.ofSource_zoom (l : Lens σ τ) (s : Source τ) : ofSource (s.zoom l) = ofSource s := by
  simp only [ofSource, Source.zoom, List.map_map]
  rfl

namespace Source

theorem collection_zoom (l : Lens σ τ) (s : Source τ) (name : String) :
    (s.zoom l).collection name = (s.collection name).map (Collection.zoom l) := by
  have hfound : (s.zoom l).collection? name = (s.collection? name).map (Collection.zoom l) :=
    List.find?_map
  rw [collection, collection, hfound]
  cases s.collection? name <;> rfl

/-- A source on a part of the state answers as on the part alone. -/
theorem simulates_answer (h : l.Shows R) (s : Source τ) (method : Method) (collection : Option String)
    (a : Arguments) :
    ((s.zoom l).answer method collection a).Simulates R (s.answer method collection a) := by
  have hcollection : Simulates R
      (do
        let name ← (needed "collection" collection : Action σ String)
        let c ← ((s.zoom l).collection name : Action σ (Collection σ))
        c.answer method a)
      (do
        let name ← (needed "collection" collection : Action τ String)
        let c ← (s.collection name : Action τ (Collection τ))
        c.answer method a) := by
    refine (simulates_ofExcept _).bind fun name => ?_
    rw [collection_zoom]
    cases s.collection name with
    | error e => exact simulates_throw e
    | ok c => exact c.simulates_answer h method a
  cases method with
  | handshake =>
    change Simulates R (pure (Handshake.ofSource (s.zoom l)).encode) (pure (Handshake.ofSource s).encode)
    rw [Handshake.ofSource_zoom]
    exact simulates_pure _
  | schema => exact simulates_pure _
  | renderChart => exact (simulates_ofExcept _).bind fun name => h.simulates_zoom _
  | list | create | update | delete | aggregate | execute | getForm => exact hcollection

end Source

end QueryLayer
