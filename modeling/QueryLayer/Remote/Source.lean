import QueryLayer.Remote.Server

/-! # Remote sources

A source whose collections live on a server. Names and schemas are those of the handshake; every
call goes to the server, and its failures come back with the HTTP status and the server's text.
-/
namespace QueryLayer

open Wire

/-- A way to a server, for one definition. -/
structure Client (σ : Type) where
  definition : Value
  post : String → Action σ Response

namespace Client

variable {σ α : Type}

/-- The client of a server that refuses bodies of more than `maxBody` bytes. -/
def ofServer (server : Server σ) (maxBody : Nat) (definition : Value) : Client σ :=
  ⟨definition, server.respond maxBody "POST"⟩

/-- What a response says. -/
def read (decode : Decoder α) (r : Response) : Except Error α :=
  if 200 ≤ r.status ∧ r.status < 300 then
    match Value.read? r.body with
    | some v => (decode v).mapError fun reason => .transport (.decode reason)
    | none => .error (.transport (.decode "not a document"))
  else .error (.transport (.status r.status r.body))

def call (client : Client σ) (collection : Option String) (method : Method) (a : Arguments)
    (decode : Decoder α) : Action σ α := do
  let request : Request := ⟨client.definition, collection, method.name, a⟩
  let response ← client.post request.encode.compact
  read decode response

def handshake (client : Client σ) : Action σ Handshake :=
  client.call none .handshake .empty Handshake.decode

/-- A collection of the server. -/
def collection (client : Client σ) (catalog : Catalog) (name : String) (schema : CollectionSchema) :
    Collection σ where
  name
  schema
  catalog
  list caller filter projection :=
    client.call (some name) .list
      { Arguments.ofCaller caller with filter := some filter, projection := some projection }
      (list record)
  create caller records :=
    client.call (some name) .create { Arguments.ofCaller caller with data := some records }
      (list record)
  update caller filter patch := do
    let _ ← client.call (some name) .update
      { Arguments.ofCaller caller with filter := some (.ofFilter filter), patch := some patch } raw
  delete caller filter := do
    let _ ← client.call (some name) .delete
      { Arguments.ofCaller caller with filter := some (.ofFilter filter) } raw
  aggregate caller filter aggregation limit :=
    client.call (some name) .aggregate
      { Arguments.ofCaller caller with
        filter := some (.ofFilter filter), aggregation := some aggregation, limit }
      (list AggregateRow.decode)
  execute caller action values filter :=
    client.call (some name) .execute
      { Arguments.ofCaller caller with
        filter := some (.ofFilter filter), name := some action, formValues := some values } raw
  getForm caller action values filter :=
    client.call (some name) .getForm
      { Arguments.ofCaller caller with
        filter := filter.map .ofFilter, name := some action, formValues := values } (list raw)

/-- The source that a handshake told about. -/
def source (client : Client σ) (h : Handshake) : Source σ where
  collections := h.schemas.entries.map fun e => client.collection h.schemas.get? e.1 e.2
  charts := h.charts
  renderChart caller name :=
    client.call none .renderChart { Arguments.ofCaller caller with name := some name } raw

end Client

end QueryLayer
