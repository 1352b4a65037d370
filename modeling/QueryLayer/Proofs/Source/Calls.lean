import Mathlib.Data.List.Nodup
import QueryLayer.Source.Basic

/-! # Calls on a source

Everything that can be asked of a source and its collections, as data. Calls are made one after the
other, each on the state that the one before it leaves.
-/
namespace QueryLayer

variable {σ : Type}

/-- A call on a collection, with all that its caller passes. -/
inductive CollectionCall where
  | list (filter : PaginatedFilter) (projection : Projection)
  | create (records : List Record)
  | update (filter : Filter) (patch : Record)
  | delete (filter : Filter)
  | aggregate (filter : Filter) (aggregation : Aggregation) (limit : Option Nat)
  | execute (action : String) (values : Record) (filter : Filter)
  | getForm (action : String) (values : Option Record) (filter : Option Filter)

inductive SourceCall where
  | on (collection : String) (call : CollectionCall)
  | renderChart (name : String)

/-- What a call is answered with. -/
inductive Answer where
  | records (records : List Record)
  | done
  | rows (rows : List AggregateRow)
  | value (v : Value)
  | fields (fields : List Value)
deriving DecidableEq

def CollectionCall.send (c : Collection σ) (caller : Caller) : CollectionCall → Action σ Answer
  | list filter projection => .records <$> c.list caller filter projection
  | create records => .records <$> c.create caller records
  | update filter patch => (fun _ => .done) <$> c.update caller filter patch
  | delete filter => (fun _ => .done) <$> c.delete caller filter
  | aggregate filter aggregation limit => .rows <$> c.aggregate caller filter aggregation limit
  | execute action values filter => .value <$> c.execute caller action values filter
  | getForm action values filter => .fields <$> c.getForm caller action values filter

namespace SourceCall

/-- The collection that a call is made on; a chart is not of one. -/
def target? : SourceCall → Option String
  | on name _ => some name
  | renderChart _ => none

def send (s : Source σ) (caller : Caller) : SourceCall → Action σ Answer
  | on name call => do
    let c ← s.collection name
    call.send c caller
  | renderChart name => .value <$> s.renderChart caller name

end SourceCall

/-- The outcome of each call, and the state that it leaves. -/
def Source.history (s : Source σ) : List (Caller × SourceCall) → σ → List (Except Error Answer × σ)
  | [], _ => []
  | (caller, call) :: rest, state =>
    let outcome := (call.send s caller).runOn state
    outcome :: s.history rest outcome.2

theorem SourceCall.send_on {s : Source σ} {name : String} {c : Collection σ}
    (h : s.collection name = .ok c) (caller : Caller) (call : CollectionCall) :
    (on name call).send s caller = call.send c caller := by
  rw [send, h]
  rfl

namespace Source

variable {s : Source σ} {name : String} {c : Collection σ}

theorem mem_names_iff : name ∈ s.names ↔ (s.collection? name).isSome := by
  rw [collection?, names, List.find?_isSome]
  simp

theorem collection_eq_ok_iff_collection? : s.collection name = .ok c ↔ s.collection? name = some c := by
  rw [collection]
  cases s.collection? name with
  | none => simp
  | some d => simp

theorem exists_collection (h : name ∈ s.names) : ∃ c, s.collection name = .ok c := by
  obtain ⟨c, hc⟩ := Option.isSome_iff_exists.1 (mem_names_iff.1 h)
  exact ⟨c, collection_eq_ok_iff_collection?.2 hc⟩

theorem mem_of_collection (h : s.collection name = .ok c) : c ∈ s.collections :=
  List.mem_of_find?_eq_some (collection_eq_ok_iff_collection?.1 h)

theorem name_of_collection (h : s.collection name = .ok c) : c.name = name :=
  of_decide_eq_true (List.find?_some (collection_eq_ok_iff_collection?.1 h) :)

/-- Collections of different names are found by their names. -/
theorem collection_eq_ok_iff (hnames : s.names.Nodup) :
    s.collection name = .ok c ↔ c ∈ s.collections ∧ c.name = name := by
  constructor
  · exact fun h => ⟨mem_of_collection h, name_of_collection h⟩
  · rintro ⟨hc, rfl⟩
    obtain ⟨d, hd⟩ := exists_collection (List.mem_map_of_mem hc)
    rw [hd, List.inj_on_of_nodup_map hnames (mem_of_collection hd) hc (name_of_collection hd)]

theorem collection_eq_error_iff :
    s.collection name = .error (.setup (.collectionNotFound name)) ↔ name ∉ s.names := by
  rw [mem_names_iff, collection]
  cases s.collection? name with
  | none => simp
  | some d => simp

end Source

/-- Collections that are made from entries of their names are found by these. -/
theorem Source.find?_named_of_mem {α : Type} {make : String × α → Collection σ} {entries : List (String × α)}
    (hmake : ∀ e ∈ entries, (make e).name = e.1) (name : String) :
    (entries.map make).find? (fun c => c.name = name) =
      (Entries.get? entries name).map fun a => make (name, a) := by
  induction entries with
  | nil => rfl
  | cons e rest ih =>
    rw [List.forall_mem_cons] at hmake
    rw [List.map_cons, List.find?_cons, Entries.get?_cons, hmake.1, ih hmake.2]
    by_cases hname : e.1 = name
    · subst hname
      simp
    · simp [hname]

theorem Source.find?_named {α : Type} {make : String × α → Collection σ} (hmake : ∀ e, (make e).name = e.1)
    (entries : List (String × α)) (name : String) :
    (entries.map make).find? (fun c => c.name = name) =
      (Entries.get? entries name).map fun a => make (name, a) :=
  find?_named_of_mem (fun e _ => hmake e) name

end QueryLayer
