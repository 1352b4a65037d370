import QueryLayer.Emulation.Template
import QueryLayer.Workspace.Node

/-! # Workspaces

Named sources built on each other, servers and registries, and the state behind them. Sources can be
customized while others are built on them.
-/
namespace QueryLayer

structure Workspace where
  nodes : List Node
  /-- The node of each name; the last one made under it. -/
  names : Dict Nat
  servers : Dict ServerTarget
  registries : Dict (Factories × Nat)
  /-- The background loops of the nodes before this one have had their first turn. -/
  settled : Nat
  world : World

namespace Workspace

def empty : Workspace := ⟨[], ∅, ∅, ∅, 0, .empty⟩

def views (w : Workspace) : List View := Node.views w.nodes

def view (w : Workspace) (i : Nat) : View := w.views.getD i .empty

def node? (w : Workspace) (i : Nat) : Option Node := w.nodes[i]?

def source (w : Workspace) (i : Nat) : Source World := (w.view i).source

/-- The collections of a source as it is now. -/
def below (w : Workspace) (i : Nat) : Below := ⟨i, (w.view i).members⟩

/-- Runs an action on the state. -/
def run {α : Type} (w : Workspace) (act : Action World α) : Except Error α × Workspace :=
  let (result, world) := act.runOn w.world
  (result, { w with world })

/-- A new source under a name. -/
def addNode (w : Workspace) (name : String) (n : Node) : Workspace :=
  { w with nodes := w.nodes ++ [n], names := w.names.insert name w.nodes.length }

def setNode (w : Workspace) (i : Nat) (n : Node) : Workspace := { w with nodes := w.nodes.set i n }

/-- A new store. -/
def addStore (w : Workspace) (store : Store) : Lens World Store × Workspace :=
  (World.storeLens w.world.stores.length,
    { w with world := { w.world with stores := w.world.stores ++ [store] } })

/-! ## New sources -/

def addMemory (w : Workspace) (name : String) (database : Database) (store : Store) : Workspace :=
  let (lens, w) := w.addStore store
  w.addNode name (.memory database lens)

def addDefinition (w : Workspace) (name : String) (definition : Value) : Except Error Workspace := do
  let (database, store) ← Memory.ofDefinition definition
  pure (w.addMemory name database store)

/-- A source of single collections, with the outcome for each. -/
def addGathered (w : Workspace) (name : String) (wanted : List (Nat × String)) :
    List (Except Error Unit) × Workspace :=
  let (_, members, outcomes) := wanted.foldl
    (fun (g, members, outcomes) (e : Nat × String) =>
      let attempt : Except Error (Gathered World × Member) := do
        let v := w.view e.1
        let c ← v.source.collection e.2
        let g ← Gathered.add g c
        pure (g, ⟨c.name, (v.ownNames.get? c.name).getD c.name⟩)
      match attempt with
      | .ok (g, m) => (g, members ++ [(e.1, m)], outcomes ++ [.ok ()])
      | .error e => (g, members, outcomes ++ [.error e]))
    (Gathered.empty, [], [])
  (outcomes, w.addNode name (.gathered members))

/-- A source of several sources, with the outcome for each. -/
def addComposite (w : Workspace) (name : String) (wanted : List (Nat × Dict String)) :
    List (Except Error Unit) × Workspace :=
  let views := w.views
  let (c, parts, outcomes) := wanted.foldl
    (fun (c, parts, outcomes) (e : Nat × Dict String) =>
      let below := w.below e.1
      let child := below.source views
      let names := (CollectionNaming.renameAll child.names e.2.entries .empty).2
      match Composite.add c child e.2 with
      | .ok c => (c, parts ++ [(below, names)], outcomes ++ [.ok ()])
      | .error e => (c, parts, outcomes ++ [.error e]))
    (Composite.empty, [], [])
  (outcomes, w.addNode name (.composite parts c.owners))

/-- A cache over the replica of a memory source, with a feed as its origin. -/
def addCached (w : Workspace) (name : String) (database : Database) (replica : Lens World Store)
    (options : CacheOptions) (feed : Feed) (slow : Bool) : Workspace :=
  let state := World.cacheLens replica w.world.caches.length
  let caches := w.world.caches ++ [⟨none, 0, false, feed, []⟩]
  { w with world := { w.world with caches } }.addNode name
    (.cached ⟨database, Feed.origin slow, options⟩ state)

/-- A source on a server, after a handshake. -/
def addRemote (w : Workspace) (name : String) (target : ServerTarget) (definition : Value)
    (maxBody : Nat) : Except Error Unit × Workspace :=
  let client := Client.ofServer (target.server w.views) maxBody definition
  match w.run client.handshake with
  | (.ok handshake, w) => (.ok (), w.addNode name (.remote ⟨target, definition, maxBody, handshake⟩))
  | (.error e, w) => (.error e, w)

/-! ## Servers and registries -/

def addServer (w : Workspace) (name : String) (i : Nat) : Workspace :=
  { w with servers := w.servers.insert name (.node i) }

/-- Room for the instances of a registry. -/
def addInstances (w : Workspace) : Nat × Workspace :=
  (w.world.registries.length,
    { w with world := { w.world with registries := w.world.registries ++ [.empty] } })

def addDefinitionServer (w : Workspace) (name : String) : Workspace :=
  let (i, w) := w.addInstances
  { w with servers := w.servers.insert name (.registry .builtIn i) }

def addRegistry (w : Workspace) (name : String) (factories : Factories) : Workspace :=
  let (i, w) := w.addInstances
  { w with registries := w.registries.insert name (factories, i) }

/-- Keeps the instance for a definition as a source. -/
def addResolved (w : Workspace) (name : String) (factories : Factories) (i : Nat)
    (definition : Value) : Except Error Unit × Workspace :=
  let registry := World.registryLens i
  match w.run ((Instances.resolve definition (factories.create definition)).zoom registry) with
  | (.ok cell, w) =>
    match (registry.get w.world).get? cell with
    | some built => (.ok (), w.addNode name (.memory built.database (World.instanceLens i cell)))
    | none => (.error (.other "no instance"), w)
  | (.error e, w) => (.error e, w)

/-! ## Customizations -/

/-- Changes a node by what a check allows. -/
def customize (w : Workspace) (i : Nat) (change : Except Error Node) : Except Error Unit × Workspace :=
  match change with
  | .ok n => (.ok (), w.setNode i n)
  | .error e => (.error e, w)

/-- Renames collections; the renames before a failing one stay. -/
def renameCollections (w : Workspace) (i : Nat) (renames : List (String × String)) :
    Except Error Unit × Workspace :=
  match w.node? i with
  | some (.renamed below names) =>
    let own := (below.source w.views).names
    let (result, names) := CollectionNaming.renameAll own renames names
    (result, w.setNode i (.renamed below names))
  | _ => (.error (.other "no renamed collections"), w)

def renameField (w : Workspace) (i : Nat) (collection current new : String) :
    Except Error Unit × Workspace :=
  w.customize i (match w.node? i with
    | some (.renamedFields below tables) => do
      let naming ← (Node.naming below tables w.views).rename collection current new
      pure (.renamedFields below naming.tables)
    | some (.stack below registrations tables) => do
      let stack ← (Node.stackOf below registrations tables w.views).rename collection current new
      pure (.stack below registrations stack.tables)
    | _ => .error (.other "no renamed fields"))

def register (w : Workspace) (i : Nat) (collection field : String) (operator : Operator)
    (rule : EmulationRule World) : Except Error Unit × Workspace :=
  w.customize i (match w.node? i with
    | some (.emulated below registrations) => do
      let emulation ← (Node.emulation below registrations w.views).register collection field operator rule
      pure (.emulated below emulation.registrations)
    | some (.stack below registrations tables) => do
      let stack ← (Node.stackOf below registrations tables w.views).register collection field operator rule
      pure (.stack below stack.registrations tables)
    | _ => .error (.other "no emulated operators"))

def emulateFiltering (w : Workspace) (i : Nat) (collection field : String) :
    Except Error Unit × Workspace :=
  w.customize i (match w.node? i with
    | some (.stack below registrations tables) => do
      let stack ← (Node.stackOf below registrations tables w.views).emulateFiltering collection field
      pure (.stack below stack.registrations tables)
    | _ => .error (.other "no stack"))

end Workspace

end QueryLayer
