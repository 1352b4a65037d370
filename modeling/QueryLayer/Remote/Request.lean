import QueryLayer.Remote.Method
import QueryLayer.Source.Basic
import QueryLayer.Value.Parser
import QueryLayer.Wire.Schema
import QueryLayer.Wire.Shape

/-! # Requests

What travels to a server: the definition of the source, the method, and its arguments, of which each
method reads its own. A request that is written down may not repeat a member that it knows.
-/
namespace QueryLayer

open Wire

structure Arguments where
  caller : Value
  filter : Option PaginatedFilter
  projection : Option Projection
  data : Option (List Record)
  patch : Option Record
  aggregation : Option Aggregation
  limit : Option Nat
  /-- The name of a chart or of an action. -/
  name : Option String
  formValues : Option Record

namespace Arguments

def empty : Arguments := ⟨.null, none, none, none, none, none, none, none, none⟩

def ofCaller (caller : Caller) : Arguments := { empty with caller := caller.context }

/-- The filter without order and window; the empty one when none was sent. -/
def plainFilter (a : Arguments) : Filter := (a.filter.map PaginatedFilter.toFilter).getD .empty

def encode (a : Arguments) : Value := Wire.object [
  ("aggregation", a.aggregation.map Aggregation.encode),
  ("caller", some a.caller),
  ("data", a.data.map fun records => .array (records.map .object)),
  ("filter", a.filter.map PaginatedFilter.encode),
  ("formValues", a.formValues.map .object),
  ("limit", a.limit.map .nat),
  ("name", a.name.map .text),
  ("patch", a.patch.map .object),
  ("projection", a.projection.map Projection.encode)]

def decode : Decoder Arguments := Wire.fields do
  let caller ← optional "caller" raw .null
  let filter ← maybe "filter" PaginatedFilter.decode
  let projection ← maybe "projection" Projection.decode
  let data ← maybe "data" (list record)
  let patch ← maybe "patch" record
  let aggregation ← maybe "aggregation" Aggregation.decode
  let limit ← maybe "limit" size
  let name ← maybe "name" text
  let formValues ← maybe "formValues" record
  pure ⟨caller, filter, projection, data, patch, aggregation, limit, name, formValues⟩

end Arguments

structure Request where
  definition : Value
  collection : Option String
  method : String
  arguments : Arguments

namespace Request

def encode (r : Request) : Value := Wire.object [
  ("collection", r.collection.map .text),
  ("dataSource", some r.definition),
  ("method", some (.text r.method)),
  ("params", some r.arguments.encode)]

def decode : Decoder Request := Wire.fields do
  let definition ← optional "dataSource" raw .null
  let collection ← maybe "collection" text
  let method ← required "method" text
  let arguments ← optional "params" Arguments.decode .empty
  pure ⟨definition, collection, method, arguments⟩

/-- The members that a request knows. -/
def shape : Shape :=
  let clause : Shape := .object [("field", .any), ("ascending", .any)]
  let page : Shape := .object [("skip", .any), ("limit", .any)]
  let filter : Shape := .gathered [("conditionTree", .any), ("search", .any),
    ("searchExtended", .any), ("segment", .any), ("sort", .items clause), ("page", page)]
  let group : Shape := .object [("field", .any), ("operation", .choice)]
  let aggregation : Shape :=
    .object [("operation", .choice), ("field", .any), ("groups", .items group)]
  let arguments : Shape := .object [("caller", .any), ("filter", filter), ("projection", .any),
    ("data", .any), ("patch", .any), ("aggregation", aggregation), ("limit", .any), ("name", .any),
    ("formValues", .any)]
  .object [("dataSource", .any), ("collection", .any), ("method", .any), ("params", arguments)]

def ofValue (v : Value) : Except Error Request := (decode v).mapError .malformed

/-- The request that a text writes down. -/
def ofText (s : String) : Except Error Request :=
  match (Value.readWritten? s).bind (shape.read? Written.maxDepth) with
  | none => .error (.malformed "no request")
  | some v => ofValue v

end Request

/-- What a server tells about its source. -/
structure Handshake where
  charts : Dict Unit
  schemas : Dict CollectionSchema
deriving DecidableEq

/-- The chart names as a member of a source's schema. -/
def encodeCharts (charts : Dict Unit) : Value := .object [("charts", texts charts.keys)]

namespace Handshake

def ofSource {σ : Type} (s : Source σ) : Handshake :=
  ⟨s.charts, .ofList (s.collections.map fun c => (c.name, c.schema))⟩

def encode (h : Handshake) : Value :=
  .object [("collectionSchemas", h.schemas.encode CollectionSchema.encode),
    ("dataSourceSchema", encodeCharts h.charts)]

def decodeCharts : Decoder (Dict Unit) := Wire.fields do
  let names ← optional "charts" (list text) []
  pure (.ofList (names.map fun name => (name, ())))

def decode : Decoder Handshake := Wire.fields do
  let charts ← required "dataSourceSchema" decodeCharts
  let schemas ← required "collectionSchemas" (dict CollectionSchema.decode)
  pure ⟨charts, schemas⟩

end Handshake

end QueryLayer
