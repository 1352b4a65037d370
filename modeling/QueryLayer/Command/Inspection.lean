import QueryLayer.Remote.Source
import QueryLayer.Text.Fill

/-! # Inspection

What a handshake tells about a source, as lines of text.
-/
namespace QueryLayer.Handshake

def fieldLine (name : String) (field : Field) : String :=
  "  " ++ Text.fill 24 name ++ " " ++
    match field with
    | .column c =>
      Text.fill 10 c.columnType.name ++ " [" ++
        String.intercalate ", " (c.filterOperators.members.map Operator.name) ++ "]"
    | .relation r => r.kind.name ++ " -> " ++ r.foreignCollection

/-- The name of a collection and below it its fields. -/
def collectionLines (name : String) (schema : CollectionSchema) : List String :=
  name :: schema.fields.entries.map fun e => fieldLine e.1 e.2

/-- Collections in name order, and then the charts if there are any. -/
def lines (h : Handshake) : List String :=
  (h.schemas.entries.flatMap fun e => collectionLines e.1 e.2) ++
    if h.charts.isEmpty then [] else ["charts: " ++ String.intercalate ", " h.charts.keys]

/-- The lines, each with its end. -/
def listing (h : Handshake) : String := String.join (h.lines.map (· ++ "\n"))

end QueryLayer.Handshake
