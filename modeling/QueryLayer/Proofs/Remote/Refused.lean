import QueryLayer.Proofs.Action.Effects
import QueryLayer.Remote.Body

/-! # Refused requests

A server whose source transacts loses nothing by a request that fails: at whatever stage the failure
arises, nothing has been written before it. Methods that do not write leave everything as it is,
whatever they answer. Main statement: `Server.unchanged_memory`, about any bytes that a server of a
memory source is sent.
-/
namespace QueryLayer

open QueryLayer.Action

variable {σ : Type}

namespace Method

def writes : Method → Bool
  | create | update | delete => true
  | list | aggregate | handshake | schema | renderChart | execute | getForm => false

end Method

theorem readsOnly_needed {α : Type} (name : String) (member : Option α) :
    (liftM (needed name member) : Action σ α).ReadsOnly := readsOnly_ofExcept _

namespace Collection.Transacts

variable {c : Collection σ}

theorem readsOnly_answer (h : c.Transacts) {method : Method} (hmethod : method.writes = false)
    (a : Arguments) : (c.answer method a).ReadsOnly := by
  cases method with
  | create | update | delete => exact nomatch hmethod
  | list => exact (h.list _ _ _).bind fun _ => readsOnly_pure _
  | aggregate =>
    refine (readsOnly_needed _ _).bind fun _ => ?_
    exact (h.aggregate _ _ _ _).bind fun _ => readsOnly_pure _
  | execute => exact (readsOnly_needed _ _).bind fun _ => h.execute _ _ _ _
  | getForm =>
    refine (readsOnly_needed _ _).bind fun _ => ?_
    exact (h.getForm _ _ _ _).bind fun _ => readsOnly_pure _
  | handshake | schema | renderChart => exact readsOnly_throw _

/-- Before a collection writes, only the arguments have been looked at; after that nothing fails. -/
theorem atomic_answer (h : c.Transacts) (method : Method) (a : Arguments) :
    (c.answer method a).Atomic := by
  cases hmethod : method.writes with
  | false => exact (h.readsOnly_answer hmethod a).atomic
  | true =>
    cases method with
    | create => exact (readsOnly_needed _ _).bind_atomic fun _ => (h.create _ _).bind_pure _
    | update => exact (readsOnly_needed _ _).bind_atomic fun _ => (h.update _ _ _).bind_pure _
    | delete => exact (h.delete _ _).bind_pure _
    | list | aggregate | handshake | schema | renderChart | execute | getForm => exact nomatch hmethod

end Collection.Transacts

namespace Source

variable {s : Source σ}

/-- A method is answered by the source itself, or by the collection that the request names. -/
theorem answer_cases {motive : Action σ Value → Prop} (s : Source σ) (method : Method)
    (collection : Option String) (a : Arguments)
    (hpure : ∀ v, motive (pure v))
    (hchart : motive (do let name ← needed "name" a.name; s.renderChart ⟨a.caller⟩ name))
    (hcollection : motive (do
      let name ← needed "collection" collection
      let c ← s.collection name
      c.answer method a)) : motive (s.answer method collection a) := by
  cases method with
  | handshake => exact hpure _
  | schema => exact hpure _
  | renderChart => exact hchart
  | list | create | update | delete | aggregate | execute | getForm => exact hcollection

theorem Transacts.readsOnly_answer (h : s.Transacts) {method : Method} (hmethod : method.writes = false)
    (collection : Option String) (a : Arguments) : (s.answer method collection a).ReadsOnly := by
  refine answer_cases s method collection a (fun v => readsOnly_pure v) ?_ ?_
  · exact (readsOnly_needed _ _).bind fun _ => h.renderChart _ _
  · refine (readsOnly_needed _ _).bind fun name => ?_
    cases hname : s.collection name with
    | error e => exact readsOnly_throw e
    | ok c => exact (h.collections c (mem_of_collection hname)).readsOnly_answer hmethod a

theorem Transacts.atomic_answer (h : s.Transacts) (method : Method) (collection : Option String)
    (a : Arguments) : (s.answer method collection a).Atomic := by
  refine answer_cases s method collection a (fun v => (readsOnly_pure v).atomic) ?_ ?_
  · exact ((readsOnly_needed _ _).bind fun _ => h.renderChart _ _).atomic
  · refine (readsOnly_needed _ _).bind_atomic fun name => ?_
    cases hname : s.collection name with
    | error e => exact (readsOnly_throw e).atomic
    | ok c => exact (h.collections c (mem_of_collection hname)).atomic_answer method a

end Source

namespace Server

variable {source : Source σ}

theorem atomic_dispatch (h : source.Transacts) (r : Request) : ((bound source).dispatch r).Atomic := by
  unfold dispatch
  split
  · next method _ => exact h.atomic_answer method r.collection r.arguments
  · exact (readsOnly_throw _).atomic

theorem readsOnly_dispatch (h : source.Transacts) {r : Request}
    (hmethod : ∀ m, Method.ofName? r.method = some m → m.writes = false) :
    ((bound source).dispatch r).ReadsOnly := by
  unfold dispatch
  split
  · next method hname => exact h.readsOnly_answer (hmethod method hname) r.collection r.arguments
  · exact readsOnly_throw _

/-- A body that is answered with a failure changes no record of a memory source, and neither does one
that asks for a method that does not write. -/
theorem unchanged_memory (db : Database) (reader : BodyReader) (body : ByteArray) (store : Store) :
    let outcome := ((bound (Memory.source db)).handleBody reader body).runOn store
    (∀ e, outcome.1 = .error e → outcome.2 = store) ∧
      ∀ r method, reader.read body = .ok r → Method.ofName? r.method = some method →
        method.writes = false → outcome.2 = store := by
  have htransacts := Memory.transacts_source db
  constructor
  · refine (readsOnly_ofExcept (reader.read body)).bind_atomic (fun r => ?_) store
    exact atomic_dispatch htransacts r
  · intro r method hread hname hmethod
    have honly : ((bound (Memory.source db)).dispatch r).ReadsOnly := by
      refine readsOnly_dispatch htransacts fun m hm => ?_
      obtain rfl := Option.some.inj (hname.symm.trans hm)
      exact hmethod
    rw [handleBody_of_ok hread]
    exact honly store

end Server

/-! ## A batch with a duplicate -/

namespace Roster

def schema : CollectionSchema :=
  CollectionSchema.empty.withField "id"
    (.column (Column.primaryKey ((Column.ofType .number).withOperators [.equal, .oneOf])))

def database : Database := ⟨Dict.empty.insert "people" schema, ∅⟩

def store : Store := database.emptyStore.setRows "people" [[("id", .nat 1)]]

/-- The first record is new, the second one is not. -/
def batch : String :=
  "\x7b\"method\": \"create\", \"collection\": \"people\", \"params\": \x7b\"data\": [\x7b\"id\": 2\x7d, \x7b\"id\": 1\x7d]\x7d\x7d"

theorem unchanged_memory_batch :
    (((Server.bound (Memory.source database)).handleBody .textsOnly batch.toUTF8).runOn store).1 =
      .error (.query (.duplicatePrimaryKey [.nat 1])) ∧
    (((Server.bound (Memory.source database)).handleBody .textsOnly batch.toUTF8).runOn store).2 =
      store := by
  have hrefused :
      (((Server.bound (Memory.source database)).handleBody .textsOnly batch.toUTF8).runOn store).1 =
        .error (.query (.duplicatePrimaryKey [.nat 1])) := by
    rw [Server.handleBody_toUTF8]
    decide +kernel
  exact ⟨hrefused, (Server.unchanged_memory database .textsOnly batch.toUTF8 store).1 _ hrefused⟩

end Roster

end QueryLayer
