import QueryLayer.Action.Basic
import QueryLayer.Typing.Check

/-! # Sources and collections

The contract between callers and whatever answers their queries. A source holds collections; every
operation of a collection is an action on the state behind the source.
-/
namespace QueryLayer

/-- Who asks. Sources pass the caller on and may look at it. -/
structure Caller where
  context : Value

instance : Inhabited Caller := ⟨⟨.null⟩⟩

structure Collection (σ : Type) extends Scope where
  list : Caller → PaginatedFilter → Projection → Action σ (List Record)
  create : Caller → List Record → Action σ (List Record)
  update : Caller → Filter → Record → Action σ Unit
  delete : Caller → Filter → Action σ Unit
  aggregate : Caller → Filter → Aggregation → Option Nat → Action σ (List AggregateRow)
  execute : Caller → String → Record → Filter → Action σ Value
  getForm : Caller → String → Option Record → Option Filter → Action σ (List Value)

/-- Collections in the order of the source, and charts by name. -/
structure Source (σ : Type) where
  collections : List (Collection σ)
  charts : Dict Unit
  renderChart : Caller → String → Action σ Value

namespace Source

variable {σ τ : Type}

def collection? (s : Source σ) (name : String) : Option (Collection σ) :=
  s.collections.find? fun c => c.name = name

def collection (s : Source σ) (name : String) : Except Error (Collection σ) :=
  match s.collection? name with
  | some c => .ok c
  | none => .error (.setup (.collectionNotFound name))

def names (s : Source σ) : List String := s.collections.map fun c => c.name

/-- The collections by name. -/
def members (s : Source σ) : Dict (Collection σ) :=
  Dict.ofList (s.collections.map fun c => (c.name, c))

def catalog (s : Source σ) : Catalog := fun name => (s.collection? name).map fun c => c.schema

/-- A source without charts. -/
def noChart (_ : Caller) (name : String) : Action σ Value := throw (.setup (.unknownChart name))

def empty : Source σ := ⟨[], ∅, noChart⟩

instance : Inhabited (Source σ) := ⟨empty⟩

end Source

/-- The same collection on a larger state. -/
def Collection.zoom {σ τ : Type} (l : Lens σ τ) (c : Collection τ) : Collection σ where
  toScope := c.toScope
  list caller filter projection := (c.list caller filter projection).zoom l
  create caller records := (c.create caller records).zoom l
  update caller filter patch := (c.update caller filter patch).zoom l
  delete caller filter := (c.delete caller filter).zoom l
  aggregate caller filter aggregation limit := (c.aggregate caller filter aggregation limit).zoom l
  execute caller action values filter := (c.execute caller action values filter).zoom l
  getForm caller action values filter := (c.getForm caller action values filter).zoom l

/-- The same source on a larger state. -/
def Source.zoom {σ τ : Type} (l : Lens σ τ) (s : Source τ) : Source σ where
  collections := s.collections.map (·.zoom l)
  charts := s.charts
  renderChart caller name := (s.renderChart caller name).zoom l

end QueryLayer
