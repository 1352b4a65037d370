/-! # Parts of a state -/
namespace QueryLayer

/-- A part of a larger state. -/
structure Lens (σ τ : Type) where
  get : σ → τ
  set : τ → σ → σ

/-- What was set is there, and only the last setting counts. -/
structure Lens.Lawful {σ τ : Type} (l : Lens σ τ) : Prop where
  get_set : ∀ t s, l.get (l.set t s) = t
  set_set : ∀ t u s, l.set t (l.set u s) = l.set t s

end QueryLayer
