import QueryLayer.Naming.Names
import QueryLayer.Source.Basic

/-! # Renamed collections

A source whose collections answer to public names. Calls pass through unchanged; relations are shown
with the public names of the collections they lead to.
-/
namespace QueryLayer

def Relation.renameCollections (names : Names) (r : Relation) : Relation :=
  { r with
    foreignCollection := names.publicName r.foreignCollection
    throughCollection := r.throughCollection.map names.publicName }

def CollectionSchema.renameCollections (names : Names) (s : CollectionSchema) : CollectionSchema :=
  { s with
    fields := s.fields.map fun
      | .column c => .column c
      | .relation r => .relation (r.renameCollections names) }

namespace CollectionNaming

/-- The members of a source by public name. -/
def members {σ : Type} (names : Names) (child : Source σ) : Dict (Collection σ) :=
  Dict.ofList (child.collections.map fun c => (names.publicName c.name, c))

def catalog {σ : Type} (names : Names) (child : Source σ) : Catalog := fun name =>
  ((members names child).get? name).map fun c => c.schema.renameCollections names

/-- A member as it is seen under a name. -/
def present {σ : Type} (names : Names) (child : Source σ) (name : String) (c : Collection σ) :
    Collection σ :=
  { c with name, schema := c.schema.renameCollections names, catalog := catalog names child }

/-- The source under its public names, in their order. -/
def source {σ : Type} (names : Names) (child : Source σ) : Source σ where
  collections := (members names child).entries.map fun e => present names child e.1 e.2
  charts := child.charts
  renderChart := child.renderChart

/-- Gives the collection known as `current` a new name. The own names of the collections say what
there is to rename. -/
def rename (names : Names) (own : List String) (current new : String) : Except Error Names :=
  let known := own.map names.publicName
  if current = new then .ok names
  else if known.contains new then
    .error (.setup (.invalidRename current new "a collection with this name already exists"))
  else if known.contains current then .ok (names.rename current new)
  else .error (.setup (.collectionNotFound current))

/-- Renames one after the other. The renames made before a failing one stay, beside the error. -/
def renameAll (own : List String) : List (String × String) → Names → Except Error Unit × Names
  | [], names => (.ok (), names)
  | (current, new) :: rest, names =>
    match rename names own current new with
    | .ok names => renameAll own rest names
    | .error e => (.error e, names)

end CollectionNaming

end QueryLayer
