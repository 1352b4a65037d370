import QueryLayer.Source.Basic

/-! # Gathered collections

A source put together from single collections, each under its own name.
-/
namespace QueryLayer

structure Gathered (σ : Type) where
  members : Dict (Collection σ)

namespace Gathered

variable {σ : Type}

def empty : Gathered σ := ⟨∅⟩

def add (g : Gathered σ) (c : Collection σ) : Except Error (Gathered σ) :=
  if g.members.contains c.name then .error (.setup (.duplicateCollection c.name))
  else .ok ⟨g.members.insert c.name c⟩

def source (g : Gathered σ) : Source σ where
  collections := g.members.values
  charts := ∅
  renderChart := Source.noChart

end Gathered

end QueryLayer
