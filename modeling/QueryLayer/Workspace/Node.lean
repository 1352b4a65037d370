import QueryLayer.Source.Composite
import QueryLayer.Source.Gathered
import QueryLayer.Stack
import QueryLayer.Workspace.World

/-! # Nodes

The sources of a workspace as data, each built on earlier ones. A source that is built on another one
holds the collections that this one had at that time. A collection that was renamed since keeps the
name it was taken under, so the name and the own name together identify it.
-/
namespace QueryLayer

/-- A collection as it was taken from a source. -/
structure Member where
  name : String
  own : String
deriving DecidableEq

/-- The collections taken from an earlier source. -/
structure Below where
  node : Nat
  members : List Member

/-- What a server answers for. -/
inductive ServerTarget where
  | node (i : Nat)
  | registry (factories : Factories) (i : Nat)

/-- How a remote source reaches its server, and what the handshake told. -/
structure RemoteLink where
  target : ServerTarget
  definition : Value
  maxBody : Nat
  handshake : Handshake

inductive Node where
  | memory (database : Database) (store : Lens World Store)
  | gathered (members : List (Nat × Member))
  | composite (parts : List (Below × Names)) (owners : Dict Nat)
  | renamed (below : Below) (names : Names)
  | emulated (below : Below) (registrations : Registrations (EmulationRule World))
  | renamedFields (below : Below) (tables : Dict Names)
  | stack (below : Below) (registrations : Registrations (EmulationRule World)) (tables : Dict Names)
  | cached (cache : Cache Feed) (state : Lens World (CacheState Feed))
  | remote (link : RemoteLink)

/-- A source as it is now, with the collections that were ever taken from it. -/
structure View where
  source : Source World
  member? : Member → Option (Collection World)
  /-- The own names of the collections that have another one. -/
  ownNames : Dict String

namespace View

def empty : View := ⟨.empty, fun _ => none, ∅⟩

instance : Inhabited View := ⟨empty⟩

/-- A source whose collections are never renamed. -/
def ofSource (s : Source World) : View := ⟨s, fun m => s.collection? m.name, ∅⟩

/-- The collections that a source built on this one takes. -/
def members (v : View) : List Member :=
  v.source.collections.map fun c => ⟨c.name, (v.ownNames.get? c.name).getD c.name⟩

end View

/-- A source with the collections that were taken from an earlier one. -/
def Below.source (b : Below) (views : List View) : Source World :=
  let v := views.getD b.node .empty
  { v.source with collections := b.members.filterMap v.member? }

def ServerTarget.server (t : ServerTarget) (views : List View) : Server World :=
  match t with
  | node i => .bound (views.getD i .empty).source
  | registry factories i => .byDefinition factories (World.registryLens i)

def RemoteLink.client (l : RemoteLink) (views : List View) : Client World :=
  .ofServer (l.target.server views) l.maxBody l.definition

namespace Node

def gatheredSource (members : List (Nat × Member)) (views : List View) : Source World where
  collections := (Dict.ofList (members.filterMap fun m =>
    ((views.getD m.1 .empty).member? m.2).map fun c => (c.name, c))).values
  charts := ∅
  renderChart := Source.noChart

def compositeOf (parts : List (Below × Names)) (owners : Dict Nat) (views : List View) :
    Composite World :=
  ⟨parts.map fun p => CollectionNaming.source p.2 (p.1.source views), owners⟩

def renamedView (below : Below) (names : Names) (views : List View) : View :=
  let child := below.source views
  { source := CollectionNaming.source names child
    member? := fun m => (child.collection? m.own).map (CollectionNaming.present names child m.name)
    ownNames := .ofList (child.collections.map fun c => (names.publicName c.name, c.name)) }

def emulation (below : Below) (registrations : Registrations (EmulationRule World))
    (views : List View) : Emulation World := ⟨below.source views, registrations⟩

def naming (below : Below) (tables : Dict Names) (views : List View) : FieldNaming World :=
  ⟨below.source views, tables⟩

def stackOf (below : Below) (registrations : Registrations (EmulationRule World))
    (tables : Dict Names) (views : List View) : Stack World :=
  ⟨below.source views, registrations, tables⟩

/-- The view of a node over those of the earlier ones. -/
def view (views : List View) : Node → View
  | memory database store => .ofSource ((Memory.source database).zoom store)
  | gathered members => .ofSource (gatheredSource members views)
  | composite parts owners => .ofSource (compositeOf parts owners views).source
  | renamed below names => renamedView below names views
  | emulated below registrations => .ofSource (emulation below registrations views).source
  | renamedFields below tables => .ofSource (naming below tables views).source
  | stack below registrations tables => .ofSource (stackOf below registrations tables views).source
  | cached cache state => .ofSource (cache.source.zoom state)
  | remote link => .ofSource ((link.client views).source link.handshake)

/-- The views of nodes, each over those before it. -/
def views (nodes : List Node) : List View := nodes.foldl (fun vs n => vs ++ [n.view vs]) []

end Node

end QueryLayer
