import QueryLayer.Cache.Feed
import QueryLayer.Cache.Source
import QueryLayer.Remote.Source

/-! # Shared state

Everything that calls on the sources of a workspace can change: the stores of memory sources, the
positions of caches with their origins, and the instances of registries.
-/
namespace QueryLayer

/-- The state of a cache without its replica, which is one of the stores. -/
structure CachePosition where
  cursor : Option String
  generation : Nat
  synced : Bool
  origin : Feed
  queue : List Nat

structure World where
  stores : List Store
  caches : List CachePosition
  registries : List (Instances MemoryInstance)

namespace World

def empty : World := ⟨[], [], []⟩

def storeLens (i : Nat) : Lens World Store where
  get w := w.stores.getD i ∅
  set store w := { w with stores := w.stores.set i store }

def registryLens (i : Nat) : Lens World (Instances MemoryInstance) where
  get w := w.registries.getD i .empty
  set instances w := { w with registries := w.registries.set i instances }

/-- The store of an instance of a registry. -/
def instanceLens (i cell : Nat) : Lens World Store where
  get w := (Instances.storeLens cell).get ((registryLens i).get w)
  set store w := (registryLens i).set ((Instances.storeLens cell).set store ((registryLens i).get w)) w

/-- A cache, put together from its position and its replica. -/
def cacheLens (replica : Lens World Store) (i : Nat) : Lens World (CacheState Feed) where
  get w :=
    let p := w.caches.getD i ⟨none, 0, false, .start 1 true, []⟩
    ⟨replica.get w, p.cursor, p.generation, p.synced, p.origin, p.queue⟩
  set s w :=
    let w := replica.set s.replica w
    { w with caches := w.caches.set i ⟨s.cursor, s.generation, s.synced, s.origin, s.queue⟩ }

end World

end QueryLayer
