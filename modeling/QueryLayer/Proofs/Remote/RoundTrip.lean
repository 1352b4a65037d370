import QueryLayer.Proofs.Remote.Request
import QueryLayer.Proofs.Value.Legible
import QueryLayer.Remote.Body

/-! # Requests there and back

A request is what its encoding decodes to, whatever it asks for: what was left out is left out again,
a filter comes back together with its order and window, the shape of an object tells which condition
it is, and values that are passed on are taken as they are. Its text is read as the request, too, as
far as texts can be read: `Request.read_encode`.
-/
namespace QueryLayer

namespace Request

theorem ofText_legible {r : Request} (h : r.arguments.Sendable)
    (hlegible : r.encode.legible Written.maxDepth = true) : ofText r.encode.compact = .ok r :=
  ofText_compact h ((Value.read?_compact_iff _).2 hlegible)

theorem read_legible {r : Request} (h : r.arguments.Sendable)
    (hlegible : r.encode.legible Written.maxDepth = true) (reader : BodyReader) :
    reader.read r.encode.compact.toUTF8 = .ok r :=
  (reader.read_toUTF8 _).trans (ofText_legible h hlegible)

/-- A request is read back from its encoding, from the text of it, and from the bytes of the text. -/
theorem read_encode {r : Request} (h : r.arguments.Sendable) :
    decode r.encode = .ok r ∧
      (r.encode.legible Written.maxDepth = true → ofText r.encode.compact = .ok r ∧
        ∀ reader : BodyReader, reader.read r.encode.compact.toUTF8 = .ok r) :=
  ⟨decode_encode h, fun hlegible => ⟨ofText_legible h hlegible, read_legible h hlegible⟩⟩

end Request

/-! ## A request with everything in it -/

namespace Enquiry

/-- A value that looks like a condition. -/
def lookalike : Value :=
  .object [("aggregator", .null), ("conditions", .array [.null, .object []]), ("field", .text "a:b")]

def condition : Condition :=
  .branch .or [.not (.branch .and []), .leaf ⟨"author:name", .equal, lookalike⟩,
    .not (.not (.leaf ⟨"\"rating\"", .missing, .null⟩))]

def filter : PaginatedFilter where
  condition := some condition
  search := some ""
  searchExtended := some false
  segment := some "read"
  sort := ⟨[⟨"rating", false⟩, ⟨"rating", true⟩]⟩
  page := some ⟨18446744073709551615, none⟩

def record : Record := [("id", .nat 1), ("name", .null)]

def request : Request where
  definition := .null
  collection := some "books"
  method := "no method"
  arguments := {
    caller := lookalike
    filter := some filter
    projection := some (.ofList ["title", "author:name", "title"])
    data := some [record, []]
    patch := some []
    aggregation := some ⟨.max, some "rating", [⟨"published", some .week⟩, ⟨"title", none⟩]⟩
    limit := some 0
    name := some "n"
    formValues := some [("v", .int (-1))] }

theorem read_request : request.arguments.Sendable ∧ request.encode.legible Written.maxDepth = true ∧
    Request.decode request.encode = .ok request ∧
    Request.ofText request.encode.compact = .ok request := by
  have hsendable : request.arguments.Sendable := by decide +kernel
  have hlegible : request.encode.legible Written.maxDepth = true := by decide +kernel
  obtain ⟨hdecode, hread⟩ := Request.read_encode hsendable
  exact ⟨hsendable, hlegible, hdecode, (hread hlegible).1⟩

end Enquiry

end QueryLayer
