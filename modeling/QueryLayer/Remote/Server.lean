import QueryLayer.Remote.Instances
import QueryLayer.Remote.Request

/-! # Servers

A server answers requests for one source, or for whatever source each request defines. Requests come
as texts, and every failure has an HTTP status.
-/
namespace QueryLayer

/-- The HTTP status of a failed call. -/
def Error.status : Error → Nat
  | .query _ | .setup _ | .malformed _ => 400
  | .notSynced _ => 503
  | .transport _ => 502
  | .other _ => 500

/-- A member that the method needs. -/
def needed {α : Type} (name : String) (member : Option α) : Except Error α :=
  match member with
  | some a => .ok a
  | none => .error (.setup (.missingParameter name))

def recordsValue (records : List Record) : Value := .array (records.map .object)

/-- What a collection answers to a method. -/
def Collection.answer {σ : Type} (c : Collection σ) (method : Method) (a : Arguments) :
    Action σ Value := do
  let caller : Caller := ⟨a.caller⟩
  match method with
  | .list =>
    let records ← c.list caller (a.filter.getD .empty) (a.projection.getD (.columnsOf c.schema))
    pure (recordsValue records)
  | .create => do
    let data ← needed "data" a.data
    pure (recordsValue (← c.create caller data))
  | .update => do
    let patch ← needed "patch" a.patch
    c.update caller a.plainFilter patch
    pure .null
  | .delete => do
    c.delete caller a.plainFilter
    pure .null
  | .aggregate => do
    let aggregation ← needed "aggregation" a.aggregation
    let rows ← c.aggregate caller a.plainFilter aggregation a.limit
    pure (.array (rows.map AggregateRow.encode))
  | .execute => do
    let action ← needed "name" a.name
    c.execute caller action (a.formValues.getD []) a.plainFilter
  | .getForm => do
    let action ← needed "name" a.name
    let fields ← c.getForm caller action a.formValues (a.filter.map PaginatedFilter.toFilter)
    pure (.array fields)
  | .handshake | .schema | .renderChart => throw (.setup (.unsupportedMethod method.name))

/-- What a source answers to a method. -/
def Source.answer {σ : Type} (s : Source σ) (method : Method) (collection : Option String)
    (a : Arguments) : Action σ Value := do
  match method with
  | .handshake => pure (Handshake.ofSource s).encode
  | .schema => pure (encodeCharts s.charts)
  | .renderChart => do
    let name ← needed "name" a.name
    s.renderChart ⟨a.caller⟩ name
  | method => do
    let name ← needed "collection" collection
    let c ← s.collection name
    c.answer method a

inductive Server (σ : Type) where
  /-- Every request is for this source. -/
  | bound (source : Source σ)
  /-- Every request is for the source of its definition. -/
  | byDefinition (factories : Factories) (instances : Lens σ (Instances MemoryInstance))

structure Response where
  status : Nat
  contentType : String
  body : String
deriving DecidableEq

namespace Server

variable {σ : Type}

def sourceFor (server : Server σ) (definition : Value) : Action σ (Source σ) :=
  match server with
  | bound source => pure source
  | byDefinition factories instances => do
    let source ← (Instances.resolveSource factories definition).zoom instances
    pure (source.zoom instances)

def dispatch (server : Server σ) (r : Request) : Action σ Value := do
  match Method.ofName? r.method with
  | some method =>
    let source ← server.sourceFor r.definition
    source.answer method r.collection r.arguments
  | none => throw (.setup (.unsupportedMethod r.method))

/-- Answers a request that is written down. -/
def handle (server : Server σ) (body : String) : Action σ Value := do
  let request ← Request.ofText body
  server.dispatch request

def plain (status : Nat) (message : String) : Response :=
  ⟨status, "text/plain; charset=utf-8", message⟩

/-- Answers an HTTP request. Bodies of more than `maxBody` bytes are refused. -/
def respond (server : Server σ) (maxBody : Nat) (httpMethod body : String) : Action σ Response :=
  if httpMethod ≠ "POST" then pure (plain 405 "Only POST is supported")
  else if maxBody < body.utf8ByteSize then pure (plain 413 "Request body too large")
  else do
    match ← (server.handle body).attempt with
    | .ok v => pure ⟨200, "application/json", v.compact⟩
    | .error e => pure (plain e.status e.message)

end Server

end QueryLayer
