import QueryLayer.Proofs.Value.Legible
import QueryLayer.Proofs.Wire.Shape
import QueryLayer.Remote.Request

/-! # Requests read back

A request whose text gives back its value is read as the request: its members are all known, and each
is decoded to what it was encoded from.
-/
namespace QueryLayer

open Wire

/-- The value is what its compact text reads as. -/
def Value.ReadsBack (v : Value) : Prop := Value.read? v.compact = some v

-- the text need not be read to decide this
instance (v : Value) : Decidable v.ReadsBack := decidable_of_iff' _ v.read?_compact_iff

namespace Wire.Shape

/-- Every member that is there is known, and covered. -/
def Knows (known : List (String × Shape)) (members : List (String × Option Value)) : Prop :=
  ∀ m ∈ members, ∃ shape, Entries.get? known m.1 = some shape ∧ ∀ v ∈ m.2, shape.Covers v

variable {known : List (String × Shape)} {members : List (String × Option Value)}

theorem Knows.isSome (h : Knows known members) :
    ∀ m ∈ present members, (Entries.get? known m.1).isSome := by
  intro m hm
  obtain ⟨shape, hshape, _⟩ := h _ (mem_present.1 hm)
  rw [hshape]
  rfl

theorem Knows.covers (h : Knows known members) : ∀ m ∈ present members, ∀ shape,
    Entries.get? known m.1 = some shape → shape.Covers m.2 := by
  intro m hm shape hshape
  obtain ⟨found, hfound, hcovers⟩ := h _ (mem_present.1 hm)
  obtain rfl := Option.some.inj (hshape.symm.trans hfound)
  exact hcovers m.2 rfl

theorem Knows.object (h : Knows known members) (hs : Entries.Sorted members)
    (hknown : (known.map Prod.fst).Nodup) : (Shape.object known).Covers (Wire.object members) :=
  .object (sorted_present hs) hknown h.isSome h.covers

theorem Knows.gathered (h : Knows known members) (hs : Entries.Sorted members)
    (hknown : (known.map Prod.fst).Nodup) : (Shape.gathered known).Covers (Wire.object members) :=
  .gathered (sorted_present hs) hknown h.isSome h.covers

theorem knows_nil : Knows known [] := by simp [Knows]

theorem Knows.cons {name : String} {v : Option Value} {shape : Shape} (h : Knows known members)
    (hname : Entries.get? known name = some shape) (hv : ∀ u ∈ v, shape.Covers u) :
    Knows known ((name, v) :: members) := by
  intro m hm
  rcases List.mem_cons.1 hm with rfl | hm
  · exact ⟨shape, hname, hv⟩
  · exact h m hm

theorem covers_some {shape : Shape} {u : Value} (h : shape.Covers u) : ∀ v ∈ some u, shape.Covers v :=
  fun _ hv => Option.some.inj hv ▸ h

section

variable {α : Type} {shape : Shape} {encode : α → Value}

theorem covers_map (h : ∀ a, shape.Covers (encode a)) {o : Option α} : ∀ v ∈ o.map encode, shape.Covers v := by
  intro v hv
  obtain ⟨a, _, rfl⟩ := Option.map_eq_some_iff.1 hv
  exact h a

/-- A list that is left out when it is empty. -/
theorem covers_unless_empty (h : ∀ a, shape.Covers (encode a)) {l : List α} :
    ∀ v ∈ (if l.isEmpty then none else some (Value.array (l.map encode))), (Shape.items shape).Covers v := by
  intro v hv
  split at hv
  · exact nomatch hv
  · obtain rfl := Option.some.inj hv
    exact .items (List.forall_mem_map.2 fun a _ => h a)

end

end Wire.Shape

namespace Request

open Wire.Shape

def clauseShape : Shape := .object [("field", .any), ("ascending", .any)]

def pageShape : Shape := .object [("skip", .any), ("limit", .any)]

def filterShape : Shape := .gathered [("conditionTree", .any), ("search", .any),
  ("searchExtended", .any), ("segment", .any), ("sort", .items clauseShape), ("page", pageShape)]

def groupShape : Shape := .object [("field", .any), ("operation", .choice)]

def aggregationShape : Shape :=
  .object [("operation", .choice), ("field", .any), ("groups", .items groupShape)]

def argumentsShape : Shape := .object [("caller", .any), ("filter", filterShape), ("projection", .any),
  ("data", .any), ("patch", .any), ("aggregation", aggregationShape), ("limit", .any), ("name", .any),
  ("formValues", .any)]

theorem covers_any {o : Option Value} : ∀ v ∈ o, Shape.any.Covers v := fun v _ => .any v

theorem covers_clause (c : SortClause) : clauseShape.Covers c.encode := by
  have hknows : Knows [("field", .any), ("ascending", .any)] c.entries :=
    (knows_nil.cons rfl covers_any).cons rfl covers_any
  exact hknows.object c.sorted_entries (by decide)

theorem covers_page (p : Page) : pageShape.Covers p.encode := by
  have hknows : Knows [("skip", .any), ("limit", .any)] p.entries :=
    (knows_nil.cons rfl covers_any).cons rfl covers_any
  exact hknows.object p.sorted_entries (by decide)

theorem covers_filter (f : PaginatedFilter) : filterShape.Covers f.encode := by
  have hknows : Knows [("conditionTree", .any), ("search", .any), ("searchExtended", .any),
      ("segment", .any), ("sort", .items clauseShape), ("page", pageShape)] f.entries :=
    (((((knows_nil.cons rfl (covers_unless_empty covers_clause)).cons rfl covers_any).cons rfl covers_any).cons
      rfl covers_any).cons rfl (covers_map covers_page)).cons rfl covers_any
  exact hknows.gathered f.sorted_entries (by decide)

theorem covers_group (g : AggregationGroup) : groupShape.Covers g.encode := by
  have hknows : Knows [("field", .any), ("operation", .choice)] g.entries :=
    (knows_nil.cons rfl (covers_map fun u : DateUnit => .choice u.name)).cons rfl covers_any
  exact hknows.object g.sorted_entries (by decide)

theorem covers_aggregation (a : Aggregation) : aggregationShape.Covers a.encode := by
  have hknows : Knows [("operation", .choice), ("field", .any), ("groups", .items groupShape)]
      a.entries :=
    ((knows_nil.cons rfl (covers_some (.choice a.function.name))).cons rfl
      (covers_unless_empty covers_group)).cons rfl covers_any
  exact hknows.object a.sorted_entries (by decide)

end Request

/-! ## Arguments -/

namespace Arguments

open Wire.Shape

/-- The numbers of the arguments fit where they are sent. -/
structure Sendable (a : Arguments) : Prop where
  page : ∀ f ∈ a.filter, ∀ p ∈ f.page, p.Sendable
  limit : ∀ n ∈ a.limit, QueryLayer.Sendable n

instance (a : Arguments) : Decidable a.Sendable :=
  decidable_of_iff ((∀ f ∈ a.filter, ∀ p ∈ f.page, p.Sendable) ∧ ∀ n ∈ a.limit, QueryLayer.Sendable n)
    ⟨fun h => ⟨h.1, h.2⟩, fun h => ⟨h.page, h.limit⟩⟩

def entries (a : Arguments) : List (String × Option Value) := [
  ("aggregation", a.aggregation.map Aggregation.encode),
  ("caller", some a.caller),
  ("data", a.data.map fun records => .array (records.map .object)),
  ("filter", a.filter.map PaginatedFilter.encode),
  ("formValues", a.formValues.map .object),
  ("limit", a.limit.map .nat),
  ("name", a.name.map .text),
  ("patch", a.patch.map .object),
  ("projection", a.projection.map Projection.encode)]

theorem sorted_entries (a : Arguments) : Entries.Sorted a.entries :=
  Entries.sorted_of_names ["aggregation", "caller", "data", "filter", "formValues", "limit", "name", "patch",
    "projection"] rfl (by decide)

theorem record_object (r : Record) : record (.object r) = .ok r ∧ Value.object r ≠ .null := ⟨rfl, by simp⟩

theorem decode_encode {a : Arguments} (h : a.Sendable) : decode a.encode = .ok a := by
  have hs := a.sorted_entries
  have hcaller : ((some a.caller).map raw).getD (.ok .null) = .ok a.caller := rfl
  have hfilter : ∀ f ∈ a.filter, PaginatedFilter.decode f.encode = .ok f ∧ f.encode ≠ .null :=
    fun f hf => ⟨PaginatedFilter.decode_encode (h.page f hf), object_ne_null _⟩
  have hprojection : ∀ p ∈ a.projection, Projection.decode p.encode = .ok p ∧ p.encode ≠ .null :=
    fun p _ => ⟨p.decode_encode, by simp [Projection.encode, texts]⟩
  have hdata : ∀ records ∈ a.data, list record (.array (records.map .object)) = .ok records ∧
      Value.array (records.map .object) ≠ .null :=
    fun records _ => ⟨list_of_forall fun r _ => (record_object r).1, by simp⟩
  have hget : Entries.get? a.entries "data" =
      some (a.data.map fun records => .array (records.map .object)) := rfl
  have haggregation : ∀ g ∈ a.aggregation, Aggregation.decode g.encode = .ok g ∧ g.encode ≠ .null :=
    fun g _ => ⟨g.decode_encode, object_ne_null _⟩
  have hlimit : ∀ n ∈ a.limit, size (.nat n) = .ok n ∧ Value.nat n ≠ .null :=
    fun n hn => ⟨size_nat (h.limit n hn), by simp [Value.nat]⟩
  refine fields_of_run a.entries ?_
  rw [run_optional "caller" hs rfl hcaller, run_maybe "filter" hs rfl hfilter,
    run_maybe "projection" hs rfl hprojection,
    run_maybe "data" hs hget hdata,
    run_maybe "patch" hs rfl fun r _ => record_object r,
    run_maybe "aggregation" hs rfl haggregation, run_maybe "limit" hs rfl hlimit,
    run_maybe "name" hs rfl fun s _ => text_text s,
    run_maybe "formValues" hs rfl fun r _ => record_object r]
  rfl

theorem covers (a : Arguments) : Request.argumentsShape.Covers a.encode := by
  have hlater : Knows [("caller", .any), ("filter", Request.filterShape), ("projection", .any),
      ("data", .any), ("patch", .any), ("aggregation", Request.aggregationShape), ("limit", .any),
      ("name", .any), ("formValues", .any)] (a.entries.drop 4) :=
    ((((knows_nil.cons rfl Request.covers_any).cons rfl Request.covers_any).cons rfl
      Request.covers_any).cons rfl Request.covers_any).cons rfl Request.covers_any
  have hknows : Knows [("caller", .any), ("filter", Request.filterShape), ("projection", .any),
      ("data", .any), ("patch", .any), ("aggregation", Request.aggregationShape), ("limit", .any),
      ("name", .any), ("formValues", .any)] a.entries :=
    (((hlater.cons rfl (covers_map Request.covers_filter)).cons rfl Request.covers_any).cons rfl
      Request.covers_any).cons rfl (covers_map Request.covers_aggregation)
  exact hknows.object a.sorted_entries (by decide)

end Arguments

/-! ## Requests -/

namespace Request

open Wire.Shape

def entries (r : Request) : List (String × Option Value) := [
  ("collection", r.collection.map .text),
  ("dataSource", some r.definition),
  ("method", some (.text r.method)),
  ("params", some r.arguments.encode)]

theorem sorted_entries (r : Request) : Entries.Sorted r.entries :=
  Entries.sorted_of_names ["collection", "dataSource", "method", "params"] rfl (by decide)

theorem decode_encode {r : Request} (h : r.arguments.Sendable) : decode r.encode = .ok r := by
  have hs := r.sorted_entries
  have hdefinition : ((some r.definition).map raw).getD (.ok .null) = .ok r.definition := rfl
  have harguments : ((some r.arguments.encode).map Arguments.decode).getD (.ok .empty) =
      .ok r.arguments := by
    rw [Option.map_some, Option.getD_some, Arguments.decode_encode h]
  refine fields_of_run r.entries ?_
  rw [run_optional "dataSource" hs rfl hdefinition,
    run_maybe "collection" hs rfl fun s _ => text_text s,
    run_required "method" hs rfl (text_text r.method).1, run_optional "params" hs rfl harguments]
  rfl

theorem covers (r : Request) : shape.Covers r.encode := by
  have hknows : Knows [("dataSource", .any), ("collection", .any), ("method", .any),
      ("params", argumentsShape)] r.entries :=
    (((knows_nil.cons rfl (covers_some r.arguments.covers)).cons rfl covers_any).cons rfl covers_any).cons rfl
      covers_any
  exact hknows.object r.sorted_entries (by decide)

/-- What a request writes down is the request. -/
theorem ofText_compact {r : Request} (h : r.arguments.Sendable) (hback : r.encode.ReadsBack) :
    ofText r.encode.compact = .ok r := by
  obtain ⟨hwritten, hvalue⟩ := Value.readWritten?_of_read? hback
  have hseen := r.covers.read?_written hvalue
  rw [ofText, hwritten, Option.bind_some, hseen]
  simp only
  rw [ofValue, decode_encode h]
  rfl

end Request

end QueryLayer
