import QueryLayer.Proofs.Memory.Fitting
import QueryLayer.Proofs.Query.Matching
import QueryLayer.Proofs.Typing.Matching

/-! # Conditions on stored records in their own collection

The condition that `matchRecords` makes of stored records is not always one that their collection accepts.
The constructor asks the keys for equality alone, and yet compares ids as a list where there is one key and
not one id, or several keys and no id.
-/
namespace QueryLayer.Memory

/-- The record has been stored in the collection, in the course of some calls. -/
def Stored (db : Database) (name : String) (r : Record) : Prop := ∃ calls, r ∈ (run db calls).rows name

theorem storedId_of_stored {db : Database} {name : String} {schema : CollectionSchema}
    (hs : db.schemas.get? name = some schema) {r : Record} (hr : Stored db name r) {id : CompositeId}
    (hid : r.id schema = .ok id) : schema.StoredId id := by
  obtain ⟨calls, hr⟩ := hr
  have hfitting : Fitting db (run db calls) := Reachable.fitting ⟨calls, rfl⟩
  obtain ⟨hkey, hpresent⟩ := Record.id_eq_ok_iff.1 hid
  subst hkey
  exact ⟨r, hfitting name schema hs r hr, rfl, hpresent⟩

/-- The condition on stored records with ids is accepted by their collection exactly when the first key declares
membership or the ids are not compared as a list. -/
theorem checkCondition_matchRecords (db : Database) {name : String} {schema : CollectionSchema}
    (hs : db.schemas.get? name = some schema) (hkeys : ∀ pk ∈ schema.primaryKeys, schema.ListableKey pk)
    {records : List Record} (hrecords : ∀ r ∈ records, Stored db name r) {ids : List CompositeId}
    (hids : records.mapM (fun r => r.id schema) = .ok ids) :
    Condition.matchRecords schema records = Condition.matchIds schema ids ∧
      ∀ t, Condition.matchIds schema ids = .ok t →
        ((db.scope name schema).checkCondition t = .ok () ↔ schema.ListsWithin ids) := by
  constructor
  · rw [Condition.matchRecords, hids, Outcome.ok_bind]
  · intro t ht
    refine (db.scope name schema).checkCondition_matchIds_iff hkeys (fun id hmem => ?_) ht
    obtain ⟨r, hr, hid⟩ := Outcome.exists_of_mem_mapM hids hmem
    exact storedId_of_stored hs (hrecords r hr) hid

/-- Tickets have a number that the store assigns. -/
def tickets : CollectionSchema :=
  let id := ((Column.ofType .number).withOperators [.equal]).primaryKey
  (CollectionSchema.empty.withField "id" (.column id)).withField "title" (.column (.ofType .string))

/-- Seats and tickets, of which no key declares membership. -/
def hall : Database :=
  ⟨(Dict.empty.insert "seats" Condition.seats).insert "tickets" tickets, ∅⟩

def bookings : List Call :=
  [.create default "seats" [[("hall", .text "north"), ("number", .int 1)],
      [("hall", .text "south"), ("number", .int 2)]],
    .create default "tickets" [[("title", .text "matinee")], [("title", .text "premiere")]]]

/-- Two seats are compared by equalities. -/
theorem checkCondition_matchRecords_seats :
    let seats : List Record := [[("hall", .text "north"), ("number", .int 1)],
      [("hall", .text "south"), ("number", .int 2)]]
    hall.schemas.get? "seats" = some Condition.seats ∧
      (∀ pk ∈ Condition.seats.primaryKeys, Condition.seats.ListableKey pk) ∧
      (∀ r ∈ seats, Stored hall "seats" r) ∧
      ∃ t, Condition.matchRecords Condition.seats seats = .ok t ∧
        (hall.scope "seats" Condition.seats).checkCondition t = .ok () := by
  intro seats
  have hschema : hall.schemas.get? "seats" = some Condition.seats := by decide +kernel
  have hkeys : ∀ pk ∈ Condition.seats.primaryKeys, Condition.seats.ListableKey pk := by decide +kernel
  have hrows : (run hall bookings).rows "seats" = seats := by decide +kernel
  have hstored : ∀ r ∈ seats, Stored hall "seats" r := fun r hr => ⟨bookings, hrows ▸ hr⟩
  let ids : List CompositeId := [[.text "north", .int 1], [.text "south", .int 2]]
  have hids : seats.mapM (fun r => r.id Condition.seats) = .ok ids := rfl
  have hmatch : Condition.matchIds Condition.seats ids = .ok (Condition.ofIds "hall" ["number"] ids) := rfl
  have hequalities : Condition.listsIds Condition.seats.primaryKeys ids = false := rfl
  obtain ⟨hsame, hcheck⟩ := checkCondition_matchRecords hall hschema hkeys hstored hids
  refine ⟨hschema, hkeys, hstored, _, hsame.trans hmatch, (hcheck _ hmatch).2 fun hlists => ?_⟩
  rw [hequalities] at hlists
  cases hlists

/-- Two tickets are compared with a list of numbers, which their collection refuses. -/
theorem not_checkCondition_matchRecords : ¬∀ (db : Database) (name : String) (schema : CollectionSchema),
    db.schemas.get? name = some schema → (∀ pk ∈ schema.primaryKeys, schema.ListableKey pk) →
    ∀ (records : List Record) (t : Condition), (∀ r ∈ records, Stored db name r) →
      Condition.matchRecords schema records = .ok t → (db.scope name schema).checkCondition t = .ok () := by
  intro haccepted
  let sold : List Record :=
    [[("id", .int 1), ("title", .text "matinee")], [("id", .int 2), ("title", .text "premiere")]]
  have hschema : hall.schemas.get? "tickets" = some tickets := by decide +kernel
  have hkeys : ∀ pk ∈ tickets.primaryKeys, tickets.ListableKey pk := by decide +kernel
  have hrows : (run hall bookings).rows "tickets" = sold := by decide +kernel
  have hstored : ∀ r ∈ sold, Stored hall "tickets" r := fun r hr => ⟨bookings, hrows ▸ hr⟩
  have hmatch : Condition.matchRecords tickets sold =
      .ok (.leaf ⟨"id", .oneOf, .array [.int 1, .int 2]⟩) := rfl
  have hrefused : (hall.scope "tickets" tickets).checkCondition (.leaf ⟨"id", .oneOf, .array [.int 1, .int 2]⟩) =
      .error (.query (.unsupportedOperator "id" .oneOf)) := rfl
  rw [haccepted hall "tickets" tickets hschema hkeys sold _ hstored hmatch] at hrefused
  cases hrefused

end QueryLayer.Memory
