import QueryLayer.Action.Together
import QueryLayer.Workspace.Basic

/-! # Calls on sources of a workspace

What only some kinds of sources can do: memory sources hold records that can be looked at and
replaced, caches can be synced and their feeds filled, and layers tell what a path becomes.
-/
namespace QueryLayer.Workspace

/-! ## Memory sources -/

def memory (w : Workspace) (i : Nat) : Except Error (Database × Lens World Store) :=
  match w.node? i with
  | some (.memory database store) => .ok (database, store)
  | _ => .error (.other "no memory source")

/-- The stored records of a collection. -/
def rows (w : Workspace) (i : Nat) (collection : String) : Except Error (List Record) := do
  let (database, store) ← w.memory i
  if database.schemas.contains collection then pure ((store.get w.world).rows collection)
  else throw (.setup (.collectionNotFound collection))

def replaceRecords (w : Workspace) (i : Nat) (collection : String) (records : List Record) :
    Except Error Unit × Workspace :=
  match w.memory i with
  | .ok (database, store) => w.run ((Memory.replaceRecords database collection records).zoom store)
  | .error e => (.error e, w)

/-! ## Layers -/

/-- The names of a path below a layer of renamed fields and above it. -/
def paths (w : Workspace) (i : Nat) (collection path : String) :
    Except Error (Except Error String × Except Error String) :=
  match w.node? i with
  | some (.renamedFields below tables) => do
    let naming := Node.naming below tables w.views
    let c ← naming.child.collection collection
    pure (naming.ownPath c path, naming.publicPath c path)
  | _ => .error (.other "no renamed fields")

/-- The condition that a layer of emulated operators puts in the place of a leaf. -/
def replaceLeaf (w : Workspace) (i : Nat) (collection : String) (leaf : Leaf) (chain : List String) :
    Except Error Condition × Workspace :=
  match w.node? i with
  | some (.emulated below registrations) =>
    let emulation := Node.emulation below registrations w.views
    w.run do
      let c ← emulation.child.collection collection
      emulation.replaceLeaf (fun _ => emulation.source) default c leaf chain
  | _ => (.error (.other "no emulated operators"), w)

/-! ## Caches -/

def cache (w : Workspace) (i : Nat) : Except Error (Cache Feed × Lens World (CacheState Feed)) :=
  match w.node? i with
  | some (.cached cache state) => .ok (cache, state)
  | _ => .error (.other "no cache")

/-- Runs an action on the state of a cache. -/
def runCache {α : Type} (w : Workspace) (i : Nat) (act : Cache Feed → Action (CacheState Feed) α) :
    Except Error α × Workspace :=
  match w.cache i with
  | .ok (cache, state) => w.run ((act cache).zoom state)
  | .error e => (.error e, w)

/-- Runs a function on the feed of a cache. -/
def onFeed {α : Type} (w : Workspace) (i : Nat) (f : Feed → α × Feed) : Except Error α × Workspace :=
  w.runCache i fun _ => .updating fun s => (.ok (f s.origin).1, { s with origin := (f s.origin).2 })

/-- The state of a cache. -/
def position (w : Workspace) (i : Nat) : Except Error (CacheState Feed) := do
  let (_, state) ← w.cache i
  pure (state.get w.world)

/-- Lets the background loop of a cache have its first turn. -/
def firstTurn (w : Workspace) (i : Nat) : Workspace :=
  (w.runCache i fun cache => .updating fun s => (.ok (), cache.firstTurn s)).2

/-- The state of a cache after every background loop has had its first turn. -/
def settle (w : Workspace) (i : Nat) : Except Error (CacheState Feed) × Workspace :=
  match w.position i with
  | .error e => (.error e, w)
  | .ok _ =>
    let count := w.nodes.length
    let w := { ((List.range count).drop w.settled).foldl firstTurn w with settled := count }
    (w.position i, w)

def sync (w : Workspace) (i : Nat) : Except Error Unit × Workspace := w.runCache i Cache.sync

/-- Syncs that begin together. -/
def syncMany (w : Workspace) (i count : Nat) : Except Error (List (Except Error Unit)) × Workspace :=
  w.runCache i fun cache => .gather (List.replicate count cache.sync)

/-- Reads of all columns of a collection that begin together. -/
def listMany (w : Workspace) (i : Nat) (collection : String) (count : Nat) :
    Except Error (List (Except Error (List Record))) × Workspace :=
  w.run do
    let c ← (w.source i).collection collection
    .gather (List.replicate count (c.list default .empty (Projection.columnsOf c.schema)))

/-! ## Servers -/

def serverNamed (w : Workspace) (name : String) : Except Error ServerTarget :=
  match w.servers.get? name with
  | some target => .ok target
  | none => .error (.other s!"no server {name}")

/-- Sends a body to a server. -/
def handle (w : Workspace) (target : ServerTarget) (body : String) : Except Error Value × Workspace :=
  w.run ((target.server w.views).handle body)

def respond (w : Workspace) (target : ServerTarget) (maxBody : Nat) (httpMethod body : String) :
    Except Error Response × Workspace :=
  w.run ((target.server w.views).respond maxBody httpMethod body)

/-- The number of instances in a registry. -/
def instanceCount (w : Workspace) (i : Nat) : Nat := ((World.registryLens i).get w.world).count

end QueryLayer.Workspace
