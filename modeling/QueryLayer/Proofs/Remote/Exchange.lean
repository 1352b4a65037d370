import QueryLayer.Proofs.Action.Yields
import QueryLayer.Proofs.Remote.Request
import QueryLayer.Proofs.Source.Calls
import QueryLayer.Remote.Source
import QueryLayer.Source.Memory.Basic

/-! # Calls through a server

A source that is bound to a server answers its clients as it answers directly: the same answers and
the same states after them, and its failures come back with their status and their text. What crosses
has to read back and to fit the size of a body.
-/
namespace QueryLayer

open Wire

variable {σ α β : Type}

/-- How a failure comes back from a server. -/
def Error.carried (e : Error) : Error := .transport (.status e.status e.message)

/-- An outcome whose failure comes back from a server. -/
def carried (r : Except Error α × σ) : Except Error α × σ := (r.1.mapError Error.carried, r.2)

theorem Error.status_cases (e : Error) : e.status = 400 ∨ e.status = 503 ∨ e.status = 502 ∨ e.status = 500 := by
  cases e <;> simp [Error.status]

/-! ## Servers -/

namespace Server

/-- The response to an outcome. -/
def said : Except Error Value → Response
  | .ok v => ⟨200, "application/json", v.compact⟩
  | .error e => plain e.status e.message

theorem runOn_handle {server : Server σ} {source : Source σ} {r : Request} {method : Method}
    {body : String} (hbody : Request.ofText body = .ok r) (hmethod : r.method = method.name) {s t : σ}
    (hsource : (server.sourceFor r.definition).runOn s = (.ok source, t)) :
    (server.handle body).runOn s = (source.answer method r.collection r.arguments).runOn t := by
  have hdispatch : (server.dispatch r).runOn s =
      (source.answer method r.collection r.arguments).runOn t := by
    rw [dispatch, hmethod, Method.ofName?_name, Action.runOn_bind, hsource]
  rw [handle, hbody, ← hdispatch]
  rfl

theorem runOn_respond {server : Server σ} {source : Source σ} {r : Request} {method : Method}
    {body : String} {maxBody : Nat} (hbody : Request.ofText body = .ok r)
    (hmethod : r.method = method.name) (hfits : body.utf8ByteSize ≤ maxBody) {s t : σ}
    (hsource : (server.sourceFor r.definition).runOn s = (.ok source, t)) :
    (server.respond maxBody "POST" body).runOn s =
      (.ok (said ((source.answer method r.collection r.arguments).runOn t).1),
        ((source.answer method r.collection r.arguments).runOn t).2) := by
  have hpost : ¬("POST" ≠ "POST") := fun h => h rfl
  have hsize : ¬maxBody < body.utf8ByteSize := Nat.not_lt.2 hfits
  rw [respond, if_neg hpost, if_neg hsize, Action.runOn_bind, Action.runOn_attempt,
    runOn_handle hbody hmethod hsource]
  simp only
  cases ((source.answer method r.collection r.arguments).runOn t).1 <;> rfl

end Server

/-! ## Clients -/

namespace Client

theorem read_plain (decode : Decoder α) (e : Error) :
    read decode (Server.plain e.status e.message) = .error e.carried := by
  have hstatus : ¬(200 ≤ e.status ∧ e.status < 300) := by
    rcases e.status_cases with h | h | h | h <;> omega
  exact if_neg hstatus

theorem read_compact {decode : Decoder α} {v : Value} {a : α} (hback : v.ReadsBack)
    (hdecode : decode v = .ok a) : read decode ⟨200, "application/json", v.compact⟩ = .ok a := by
  have hread : Value.read? v.compact = some v := hback
  unfold read
  simp only
  rw [if_pos (by decide), hread]
  simp only
  rw [hdecode]
  rfl

theorem read_map (f : α → β) (decode : Decoder α) (r : Response) :
    read (fun v => (decode v).map f) r = (read decode r).map f := by
  unfold read
  split
  · split
    · next v _ => cases hv : decode v <;> simp [Except.mapError, Except.map, hv]
    · rfl
  · rfl

/-- What is made of a decoded answer can be made by the decoder. -/
theorem map_call (client : Client σ) (f : α → β) (collection : Option String) (method : Method)
    (a : Arguments) (decode : Decoder α) :
    f <$> client.call collection method a decode =
      client.call collection method a fun v => (decode v).map f := by
  unfold call
  rw [map_bind]
  refine bind_congr fun response => ?_
  rw [read_map]
  simp only [Action.liftM_eq_ofExcept]
  cases read decode response <;> rfl

/-- A call whose answer is that of an action, written down and read back. -/
theorem runOn_call {server : Server σ} {source : Source σ} {definition : Value} {maxBody : Nat}
    {collection : Option String} {method : Method} {a : Arguments} {act : Action σ α}
    {encode : α → Value} {decode : Decoder α} (hsendable : a.Sendable)
    (hrequest : (Request.mk definition collection method.name a).encode.ReadsBack)
    (hfits : (Request.mk definition collection method.name a).encode.compact.utf8ByteSize ≤ maxBody)
    {s t : σ} (hsource : (server.sourceFor definition).runOn s = (.ok source, t))
    (hanswer : source.answer method collection a = encode <$> act)
    (hread : ∀ x, (act.runOn t).1 = .ok x → (encode x).ReadsBack ∧ decode (encode x) = .ok x) :
    ((ofServer server maxBody definition).call collection method a decode).runOn s =
      carried (act.runOn t) := by
  have hbody := Request.ofText_compact hsendable hrequest
  rw [call, Action.runOn_bind]
  simp only [ofServer]
  rw [Server.runOn_respond hbody rfl hfits hsource, hanswer, Action.runOn_map]
  cases hact : (act.runOn t).1 with
  | error e =>
    have hfailed : read decode (Server.said (.error e)) = .error e.carried := read_plain decode e
    simp only [Except.map, hfailed, Action.liftM_eq_ofExcept, Action.runOn_ofExcept, carried, hact]
    rfl
  | ok x =>
    obtain ⟨hx, hdecode⟩ := hread x hact
    have hfound : read decode (Server.said (.ok (encode x))) = .ok x := read_compact hx hdecode
    simp only [Except.map, hfound, Action.liftM_eq_ofExcept, Action.runOn_ofExcept, carried, hact]
    rfl

end Client

/-! ## Calls -/

namespace CollectionCall

def method : CollectionCall → Method
  | list .. => .list
  | create .. => .create
  | update .. => .update
  | delete .. => .delete
  | aggregate .. => .aggregate
  | execute .. => .execute
  | getForm .. => .getForm

/-- What of a call travels to a server. -/
def arguments (caller : Caller) : CollectionCall → Arguments
  | list filter projection =>
    { Arguments.ofCaller caller with filter := some filter, projection := some projection }
  | create records => { Arguments.ofCaller caller with data := some records }
  | update filter patch =>
    { Arguments.ofCaller caller with filter := some (.ofFilter filter), patch := some patch }
  | delete filter => { Arguments.ofCaller caller with filter := some (.ofFilter filter) }
  | aggregate filter aggregation limit =>
    { Arguments.ofCaller caller with
      filter := some (.ofFilter filter), aggregation := some aggregation, limit }
  | execute action values filter =>
    { Arguments.ofCaller caller with
      filter := some (.ofFilter filter), name := some action, formValues := some values }
  | getForm action values filter =>
    { Arguments.ofCaller caller with
      filter := filter.map .ofFilter, name := some action, formValues := values }

/-- How the answer to a call is read. -/
def decode : CollectionCall → Decoder Answer
  | list .. | create .. => fun v => (Wire.list record v).map .records
  | update .. | delete .. => fun v => (raw v).map fun _ => .done
  | aggregate .. => fun v => (Wire.list AggregateRow.decode v).map .rows
  | execute .. => fun v => (raw v).map .value
  | getForm .. => fun v => (Wire.list raw v).map .fields

end CollectionCall

/-- An answer as a server writes it down. -/
def Answer.encode : Answer → Value
  | .records list => recordsValue list
  | .done => .null
  | .rows list => .array (list.map AggregateRow.encode)
  | .value v => v
  | .fields list => .array list

namespace CollectionCall

/-- A server's answer to a call is that of its collection. -/
theorem answer_eq (c : Collection σ) (caller : Caller) (call : CollectionCall) :
    c.answer call.method (call.arguments caller) = Answer.encode <$> call.send c caller := by
  cases call with
  | list filter projection | create records | aggregate filter aggregation limit | update filter patch
  | delete filter =>
    rw [send, Functor.map_map, map_eq_pure_bind]
    rfl
  | execute action values filter =>
    have hvalue : (fun v => (Answer.value v).encode) = id := rfl
    rw [send, Functor.map_map, hvalue, id_map]
    rfl
  | getForm action values filter =>
    have hfilter : (filter.map PaginatedFilter.ofFilter).map PaginatedFilter.toFilter = filter := by
      cases filter <;> rfl
    rw [send, Functor.map_map, map_eq_pure_bind]
    change (do
      let fields ← c.getForm caller action values
        ((filter.map PaginatedFilter.ofFilter).map PaginatedFilter.toFilter)
      pure (Value.array fields)) = _
    rw [hfilter]
    rfl

theorem source_answer {source : Source σ} {name : String} {c : Collection σ}
    (hc : source.collection name = .ok c) (call : CollectionCall) (a : Arguments) :
    source.answer call.method (some name) a = c.answer call.method a := by
  have hlookup : ∀ method, (do
      let name ← (needed "collection" (some name) : Action σ String)
      let c ← (source.collection name : Action σ (Collection σ))
      c.answer method a) = c.answer method a := by
    intro method
    rw [needed, Action.liftM_eq_ofExcept, Action.ofExcept_ok_bind, hc, Action.liftM_eq_ofExcept,
      Action.ofExcept_ok_bind]
  cases call <;> exact hlookup _

/-- A client's call is the one of its method. -/
theorem send_client (client : Client σ) (catalog : Catalog) (name : String) (schema : CollectionSchema)
    (caller : Caller) (call : CollectionCall) :
    call.send (client.collection catalog name schema) caller =
      client.call (some name) call.method (call.arguments caller) call.decode := by
  cases call with
  | list filter projection | create records | aggregate filter aggregation limit
  | execute action values filter | getForm action values filter => exact client.map_call ..
  | update filter patch =>
    have hcall := client.map_call (fun _ => Answer.done) (some name) .update
      (arguments caller (update filter patch)) raw
    exact (Functor.map_map ..).trans hcall
  | delete filter =>
    have hcall := client.map_call (fun _ => Answer.done) (some name) .delete
      (arguments caller (delete filter)) raw
    exact (Functor.map_map ..).trans hcall

theorem exists_of_map_eq_ok {x : Except Error α} {f : α → β} {b : β} (h : x.map f = .ok b) :
    ∃ a, x = .ok a ∧ f a = b := by
  cases x with
  | error e => exact nomatch h
  | ok a => exact ⟨a, rfl, Except.ok.inj h⟩

/-- The answers to a call are of its kind. -/
theorem decode_encode {c : Collection σ} {caller : Caller} {call : CollectionCall} {s : σ} {a : Answer}
    (h : ((call.send c caller).runOn s).1 = .ok a) : call.decode a.encode = .ok a := by
  cases call with
  | list filter projection | create records =>
    rw [send, Action.runOn_map] at h
    obtain ⟨records, _, rfl⟩ := exists_of_map_eq_ok h
    have hread : Wire.list record (recordsValue records) = .ok records :=
      list_of_forall fun r _ => (Arguments.record_object r).1
    exact congrArg (Except.map Answer.records) hread
  | update filter patch | delete filter =>
    rw [send, Action.runOn_map] at h
    obtain ⟨_, _, rfl⟩ := exists_of_map_eq_ok h
    rfl
  | aggregate filter aggregation limit =>
    rw [send, Action.runOn_map] at h
    obtain ⟨rows, _, rfl⟩ := exists_of_map_eq_ok h
    have hread : Wire.list AggregateRow.decode (.array (rows.map AggregateRow.encode)) = .ok rows :=
      list_of_forall fun r _ => r.decode_encode
    exact congrArg (Except.map Answer.rows) hread
  | execute action values filter =>
    rw [send, Action.runOn_map] at h
    obtain ⟨v, _, rfl⟩ := exists_of_map_eq_ok h
    rfl
  | getForm action values filter =>
    rw [send, Action.runOn_map] at h
    obtain ⟨fields, _, rfl⟩ := exists_of_map_eq_ok h
    have hread : Wire.list raw (.array fields) = .ok fields := by
      change fields.mapM Except.ok = _
      rw [Outcome.mapM_eq_ok_map fun v _ => rfl, List.map_id']
    exact congrArg (Except.map Answer.fields) hread

end CollectionCall

/-! ## Histories -/

namespace SourceCall

/-- The request of a call, to the server of a definition. -/
def request (definition : Value) (caller : Caller) : SourceCall → Request
  | on name call => ⟨definition, some name, call.method.name, call.arguments caller⟩
  | renderChart name =>
    ⟨definition, none, Method.renderChart.name, { Arguments.ofCaller caller with name := some name }⟩

/-- What a call needs to reach a server and its answer to come back: numbers that fit, bodies that
read back, and a request body within the limit. -/
structure Travels (source : Source σ) (definition : Value) (maxBody : Nat) (s : σ) (caller : Caller)
    (call : SourceCall) : Prop where
  target : ∀ name ∈ call.target?, name ∈ source.names
  sendable : (call.request definition caller).arguments.Sendable
  request : (call.request definition caller).encode.ReadsBack
  fits : (call.request definition caller).encode.compact.utf8ByteSize ≤ maxBody
  answer : ∀ a, ((call.send source caller).runOn s).1 = .ok a → a.encode.ReadsBack

instance decidableAnswer (r : Except Error Answer) : Decidable (∀ a, r = .ok a → a.encode.ReadsBack) :=
  match r with
  | .ok a => decidable_of_iff a.encode.ReadsBack ⟨fun h _ e => Except.ok.inj e ▸ h, fun h => h a rfl⟩
  | .error _ => isTrue nofun

instance (source : Source σ) (definition : Value) (maxBody : Nat) (s : σ) (caller : Caller)
    (call : SourceCall) : Decidable (call.Travels source definition maxBody s caller) :=
  decidable_of_iff ((∀ name ∈ call.target?, name ∈ source.names) ∧
      (call.request definition caller).arguments.Sendable ∧
      (call.request definition caller).encode.ReadsBack ∧
      (call.request definition caller).encode.compact.utf8ByteSize ≤ maxBody ∧
      ∀ a, ((call.send source caller).runOn s).1 = .ok a → a.encode.ReadsBack)
    ⟨fun ⟨htarget, hsendable, hrequest, hfits, hanswer⟩ =>
      ⟨htarget, hsendable, hrequest, hfits, hanswer⟩,
      fun h => ⟨h.target, h.sendable, h.request, h.fits, h.answer⟩⟩

end SourceCall

theorem Client.collection_source (client : Client σ) {h : Handshake} {name : String}
    (hname : h.schemas.contains name = true) :
    ∃ schema, (client.source h).collection name =
      .ok (client.collection h.schemas.get? name schema) := by
  obtain ⟨schema, hschema⟩ := Option.isSome_iff_exists.1 hname
  have hfound : (client.source h).collection? name =
      some (client.collection h.schemas.get? name schema) := by
    refine Eq.trans (Source.find?_named (fun _ => rfl) h.schemas.entries name) ?_
    exact congrArg (Option.map _) hschema
  exact ⟨schema, by rw [Source.collection, hfound]⟩

/-- A call through a server that is bound to a source is the call on the source. -/
theorem SourceCall.Travels.runOn_send {source : Source σ} {definition : Value} {maxBody : Nat}
    {h : Handshake} {s : σ} {caller : Caller} {call : SourceCall}
    (htravels : call.Travels source definition maxBody s caller)
    (hlisted : ∀ name ∈ source.names, h.schemas.contains name = true) :
    (call.send ((Client.ofServer (.bound source) maxBody definition).source h) caller).runOn s =
      carried ((call.send source caller).runOn s) := by
  have hanswer := htravels.answer
  cases call with
  | on name call =>
    have hname := htravels.target name rfl
    obtain ⟨c, hc⟩ := Source.exists_collection hname
    obtain ⟨schema, hremote⟩ :=
      (Client.ofServer (.bound source) maxBody definition).collection_source (hlisted name hname)
    rw [send_on hc] at hanswer ⊢
    rw [send_on hremote, CollectionCall.send_client]
    have hdirect : source.answer call.method (some name) (call.arguments caller) =
        Answer.encode <$> call.send c caller :=
      (CollectionCall.source_answer hc call _).trans (CollectionCall.answer_eq c caller call)
    exact Client.runOn_call htravels.sendable htravels.request htravels.fits rfl hdirect fun a ha =>
      ⟨hanswer a ha, CollectionCall.decode_encode ha⟩
  | renderChart name =>
    have hsend := Client.map_call (Client.ofServer (.bound source) maxBody definition) Answer.value none
      .renderChart { Arguments.ofCaller caller with name := some name } raw
    have hchart : source.answer .renderChart none
        { Arguments.ofCaller caller with name := some name } =
          Answer.encode <$> (Answer.value <$> source.renderChart caller name) := by
      have hvalue : (fun v => (Answer.value v).encode) = id := rfl
      rw [Functor.map_map, hvalue, id_map]
      rfl
    refine Eq.trans (congrArg (fun act => act.runOn s) hsend) ?_
    refine Client.runOn_call htravels.sendable htravels.request htravels.fits rfl hchart fun a ha =>
      ⟨hanswer a ha, ?_⟩
    change ((Answer.value <$> source.renderChart caller name).runOn s).1 = .ok a at ha
    rw [Action.runOn_map] at ha
    obtain ⟨v, _, rfl⟩ := CollectionCall.exists_of_map_eq_ok ha
    rfl

/-- What every call of a history needs, on the state that it is made on. -/
def Source.Reaches (source : Source σ) (definition : Value) (maxBody : Nat) :
    List (Caller × SourceCall) → σ → Prop
  | [], _ => True
  | (caller, call) :: rest, s =>
    call.Travels source definition maxBody s caller ∧
      source.Reaches definition maxBody rest ((call.send source caller).runOn s).2

def Source.decidableReaches (source : Source σ) (definition : Value) (maxBody : Nat) :
    (calls : List (Caller × SourceCall)) → (s : σ) →
      Decidable (source.Reaches definition maxBody calls s)
  | [], _ => isTrue trivial
  | (caller, call) :: rest, s =>
    @instDecidableAnd _ _ (inferInstanceAs (Decidable (call.Travels source definition maxBody s caller)))
      (source.decidableReaches definition maxBody rest _)

instance (source : Source σ) (definition : Value) (maxBody : Nat) (calls : List (Caller × SourceCall))
    (s : σ) : Decidable (source.Reaches definition maxBody calls s) :=
  source.decidableReaches definition maxBody calls s

/-- Calls through a server have the answers and leave the states of calls on its source; failures come
back with their status and text. -/
theorem Client.history_source {source : Source σ} {definition : Value} {maxBody : Nat} {h : Handshake}
    (hlisted : ∀ name ∈ source.names, h.schemas.contains name = true)
    (calls : List (Caller × SourceCall)) (s : σ) (hreaches : source.Reaches definition maxBody calls s) :
    ((ofServer (.bound source) maxBody definition).source h).history calls s =
      (source.history calls s).map carried := by
  induction calls generalizing s with
  | nil => rfl
  | cons head rest ih =>
    obtain ⟨caller, call⟩ := head
    obtain ⟨htravels, hrest⟩ := hreaches
    have hsend := htravels.runOn_send hlisted
    rw [Source.history, Source.history, hsend]
    exact congrArg (List.cons _) (ih _ hrest)

/-! ## A server of one collection -/

namespace Desk

def schema : CollectionSchema :=
  CollectionSchema.empty.withField "id"
    (.column (Column.primaryKey ((Column.ofType .number).withOperators [.equal, .oneOf])))

def database : Database := ⟨Dict.empty.insert "people" schema, ∅⟩

/-- The second call fails and so does the last. -/
def calls : List (Caller × SourceCall) := [
  (default, .on "people" (.create [[("id", .nat 1)]])),
  (default, .on "people" (.create [[("id", .nat 1)]])),
  (default, .on "people" (.list
    { PaginatedFilter.empty with sort := .descending "id", page := some ⟨0, some 5⟩ } (.ofList ["id"]))),
  (default, .on "people" (.update (.ofCondition (.leaf ⟨"id", .equal, .nat 1⟩)) [("id", .nat 2)])),
  (default, .renderChart "none")]

theorem history_through_server :
    (∀ name ∈ (Memory.source database).names,
      (Handshake.ofSource (Memory.source database)).schemas.contains name = true) ∧
    (Memory.source database).Reaches .null 1000 calls database.emptyStore ∧
    ((Client.ofServer (.bound (Memory.source database)) 1000 .null).source
        (Handshake.ofSource (Memory.source database))).history calls database.emptyStore =
      ((Memory.source database).history calls database.emptyStore).map carried := by
  have hlisted : ∀ name ∈ (Memory.source database).names,
      (Handshake.ofSource (Memory.source database)).schemas.contains name = true := by
    decide +kernel
  have hreaches : (Memory.source database).Reaches .null 1000 calls database.emptyStore := by
    decide +kernel
  exact ⟨hlisted, hreaches, Client.history_source hlisted calls database.emptyStore hreaches⟩

end Desk

end QueryLayer
