import QueryLayer.Proofs.Memory.Assigned

/-! # The counter of assigned numbers

A creation with the arithmetic of its counter as a parameter: `creation` is the one that wraps around, and
the one that is `checked` has no result where 64 signed bits do not hold the next number. The counter gets
only as far as doubles tell neighbours apart, and near the greatest integer of all they do not. So it
overflows only where one of the two greatest integers is stored already.
-/
namespace QueryLayer.Memory

section

variable {m : Type → Type} [Monad m]

/-- What a record becomes, and the counter after it. -/
def keyedBy (succ : Int → m Int) (key? : Option String) (record : Record) (next : Int) : m (Record × Int) :=
  match key? with
  | some pk =>
    if lacks pk record then do
      let after ← succ next
      pure (record.insert pk (.int next), after)
    else pure (record, next)
  | none => pure (record, next)

def assignBy (succ : Int → m Int) (schema : CollectionSchema) (key? : Option String) :
    List Record → List CompositeId → Int → m (Except Error (List Record))
  | [], _, _ => pure (.ok [])
  | record :: rest, ids, next => do
    let keyed ← keyedBy succ key? record next
    match keyed.1.id schema with
    | .error e => pure (.error e)
    | .ok id =>
      if hasId ids id then pure (.error (.query (.duplicatePrimaryKey id)))
      else do
        let others ← assignBy succ schema key? rest (ids ++ [id]) keyed.2
        pure (others.map (keyed.1 :: ·))

/-- A creation that counts with `succ`, from the greatest stored integer on. -/
def creationBy (succ : Int → m Int) (scope : Scope) (stored records : List Record) :
    m (Except Error (List Record)) :=
  match prepare scope records with
  | .error e => pure (.error e)
  | .ok prepared => do
    let ids := idsOf scope.schema stored
    let next ← succ (greatest ids)
    assignBy succ scope.schema (assignedKey? scope.schema) prepared ids next

/-! ## Both arithmetics -/

/-- A relation that says of a computation what comes out of it, if anything does. -/
structure Results (R : ∀ α : Type, m α → α → Prop) : Prop where
  pure : ∀ {α : Type} (a : α), R α (pure a) a
  bind : ∀ {α β : Type} {x : m α} {f : α → m β} {a : α} {b : β}, R α x a → R β (f a) b → R β (x >>= f) b

namespace Results

variable {R : ∀ α : Type, m α → α → Prop} {succ : Int → m Int}

theorem keyedBy (h : Results R) (hsucc : ∀ i, R Int (succ i) (wrap64 (i + 1))) (key? : Option String)
    (record : Record) (next : Int) :
    R _ (keyedBy succ key? record next) (keyedFrom key? record next) := by
  unfold Memory.keyedBy keyedFrom lacks
  cases key? with
  | none => exact h.pure _
  | some pk =>
    dsimp only
    split
    · exact h.bind (hsucc next) (h.pure _)
    · exact h.pure _

theorem assignBy (h : Results R) (hsucc : ∀ i, R Int (succ i) (wrap64 (i + 1))) (schema : CollectionSchema)
    (key? : Option String) (records : List Record) (ids : List CompositeId) (next : Int) :
    R _ (assignBy succ schema key? records ids next) (assign schema key? records ids next) := by
  induction records generalizing ids next with
  | nil => exact h.pure _
  | cons record rest ih =>
    rw [assign_cons_eq, Memory.assignBy]
    refine h.bind (h.keyedBy hsucc key? record next) ?_
    cases (keyedFrom key? record next).1.id schema with
    | error e => exact h.pure _
    | ok id =>
      rw [Outcome.ok_bind]
      dsimp only
      split
      · exact h.pure _
      · refine h.bind (ih _ _) ?_
        cases assign schema key? rest (ids ++ [id]) (keyedFrom key? record next).2 <;> exact h.pure _

/-- Where the next number is the wrapped one, the creation is the one of the store. -/
theorem creationBy (h : Results R) (hsucc : ∀ i, R Int (succ i) (wrap64 (i + 1))) (scope : Scope)
    (stored records : List Record) :
    R _ (creationBy succ scope stored records) (creation scope stored records) := by
  unfold Memory.creationBy creation
  cases prepare scope records with
  | error e => exact h.pure _
  | ok prepared =>
    rw [Outcome.ok_bind]
    dsimp only
    rw [nextId_eq]
    exact h.bind (hsucc _) (h.assignBy hsucc ..)

end Results

end

/-- The next integer, wrapped around. -/
def wrapping (i : Int) : Id Int := wrap64 (i + 1)

theorem creationBy_wrapping (scope : Scope) (stored records : List Record) :
    (creationBy wrapping scope stored records).run = creation scope stored records := by
  have hresults : Results (m := Id) fun _ x a => x.run = a :=
    ⟨fun _ => rfl, fun hx hf => by rw [Id.run_bind, hx, hf]⟩
  exact hresults.creationBy (fun _ => rfl) scope stored records

/-- The next integer, as long as 64 signed bits hold it. -/
def checked (i : Int) : Option Int := if -2 ^ 63 ≤ i + 1 ∧ i + 1 < 2 ^ 63 then some (i + 1) else none

theorem checked_of_lt {i : Int} (hlow : -2 ^ 63 ≤ i) (hhigh : i + 1 < 2 ^ 63) : checked i = some (i + 1) :=
  if_pos ⟨by omega, hhigh⟩

theorem checked_top : checked (2 ^ 63 - 1) = none := rfl

theorem creation_of_checked {scope : Scope} {stored records : List Record}
    {outcome : Except Error (List Record)} (h : creationBy checked scope stored records = some outcome) :
    creation scope stored records = outcome := by
  have hresults : Results (m := Option) fun _ x a => ∀ b, x = some b → a = b := by
    constructor
    · intro α a b hb
      exact Option.some.inj hb
    · intro α β x f a b hx hf c hc
      obtain ⟨d, hd, hc⟩ := Option.bind_eq_some_iff.1 hc
      obtain rfl := hx d hd
      exact hf c hc
  refine hresults.creationBy (fun i j hj => ?_) scope stored records outcome h
  unfold checked at hj
  split at hj
  · next hrange =>
    rw [wrap64_of_lt hrange.1 hrange.2]
    exact Option.some.inj hj
  · cases hj

/-! ## Overflow -/

/-- A creation gets to a record that lacks an id: the ids before it are fresh. -/
structure Needs (schema : CollectionSchema) (pk : String) (ids : List CompositeId) (records : List Record) :
    Prop where
  lacking : ∃ r ∈ records, lacks pk r = true
  fresh : Fresh ids ((records.takeWhile fun r => !lacks pk r).map fun r => r.key schema)

section

variable {schema : CollectionSchema} {pk : String} {record : Record} {rest : List Record}
  {ids : List CompositeId} {next : Int}

theorem keyedBy_of_keeps (h : lacks pk record = false) (next : Int) :
    keyedBy checked (some pk) record next = some (record, next) := by
  unfold keyedBy
  dsimp only
  rw [h]
  rfl

theorem keyedBy_of_lacks (h : lacks pk record = true) (next : Int) :
    keyedBy checked (some pk) record next =
      (checked next).map fun after => (record.insert pk (.int next), after) := by
  unfold keyedBy
  dsimp only
  rw [if_pos h]
  cases checked next <;> rfl

theorem needs_of_lacks (h : lacks pk record = true) : Needs schema pk ids (record :: rest) := by
  refine ⟨⟨record, List.mem_cons_self, h⟩, ?_⟩
  rw [List.takeWhile_cons_of_neg (by simp [h])]
  exact .nil ids

theorem needs_cons_iff_of_keeps (h : lacks pk record = false) :
    Needs schema pk ids (record :: rest) ↔
      hasId ids (record.key schema) = false ∧ Needs schema pk (ids ++ [record.key schema]) rest := by
  have htake : (record :: rest).takeWhile (fun r => !lacks pk r) =
      record :: rest.takeWhile fun r => !lacks pk r :=
    List.takeWhile_cons_of_pos (by simp [h])
  constructor
  · rintro ⟨⟨r, hr, hlacks⟩, hfresh⟩
    rw [htake, List.map_cons, Fresh.cons_iff] at hfresh
    rcases List.mem_cons.1 hr with rfl | hr
    · rw [h] at hlacks
      cases hlacks
    · exact ⟨hfresh.1, ⟨r, hr, hlacks⟩, hfresh.2⟩
  · rintro ⟨hnew, ⟨r, hr, hlacks⟩, hfresh⟩
    refine ⟨⟨r, List.mem_cons_of_mem _ hr, hlacks⟩, ?_⟩
    rw [htake, List.map_cons, Fresh.cons_iff]
    exact ⟨hnew, hfresh⟩

/-- Once a record is accepted, it is the others that count too far. -/
theorem assignBy_cons_eq_none_iff {keyed : Record × Int} {key? : Option String}
    (hkeyed : keyedBy checked key? record next = some keyed) :
    assignBy checked schema key? (record :: rest) ids next = none ↔
      ∃ id, keyed.1.id schema = .ok id ∧ hasId ids id = false ∧
        assignBy checked schema key? rest (ids ++ [id]) keyed.2 = none := by
  rw [assignBy, hkeyed, Option.bind_eq_bind, Option.bind_some]
  cases hid : keyed.1.id schema with
  | error e => simp
  | ok id =>
    dsimp only
    cases hnew : hasId ids id with
    | true => simp [hnew]
    | false => cases hrest : assignBy checked schema key? rest (ids ++ [id]) keyed.2 <;> simp [hnew, hrest]

/-- Without a key to assign, nothing is counted. -/
theorem assignBy_none_ne_none (records : List Record) (ids : List CompositeId) (next : Int) :
    assignBy checked schema none records ids next ≠ none := by
  induction records generalizing ids with
  | nil => exact Option.some_ne_none _
  | cons record rest ih =>
    have hkeyed : keyedBy checked none record next = some (record, next) := rfl
    rw [ne_eq, assignBy_cons_eq_none_iff hkeyed]
    rintro ⟨id, -, -, hrest⟩
    exact ih _ hrest

variable (hkeys : schema.primaryKeys = [pk])
include hkeys

theorem id_of_keeps (h : lacks pk record = false) : record.id schema = .ok (record.key schema) := by
  refine Record.id_of_present ?_
  rw [key_eq_singleton hkeys]
  simpa [lacks, Value.isNull_eq_true, ← Bool.not_eq_true] using h

theorem id_insert_int (record : Record) (i : Int) :
    Record.id (record.insert pk (.int i)) schema = .ok [.int i] := by
  rw [← key_insert hkeys record (.int i)]
  refine Record.id_of_present ?_
  rw [key_insert hkeys]
  simp [Value.int]

/-- At the greatest integer there is none for a record that lacks an id. -/
theorem assignBy_top_eq_none_iff (records : List Record) (ids : List CompositeId) :
    assignBy checked schema (some pk) records ids (2 ^ 63 - 1) = none ↔ Needs schema pk ids records := by
  induction records generalizing ids with
  | nil =>
    constructor
    · intro h
      cases h
    · rintro ⟨⟨r, hr, -⟩, -⟩
      cases hr
  | cons record rest ih =>
    cases hlacks : lacks pk record with
    | true =>
      refine iff_of_true ?_ (needs_of_lacks hlacks)
      rw [assignBy, keyedBy_of_lacks hlacks, checked_top]
      rfl
    | false =>
      rw [assignBy_cons_eq_none_iff (keyedBy_of_keeps hlacks _), needs_cons_iff_of_keeps hlacks, ← ih]
      constructor
      · rintro ⟨id, hid, hnew, hrest⟩
        rw [id_of_keeps hkeys hlacks] at hid
        cases hid
        exact ⟨hnew, hrest⟩
      · rintro ⟨hnew, hrest⟩
        exact ⟨_, id_of_keeps hkeys hlacks, hnew, hrest⟩

/-- Below it, the counter stops in time: the last number that has a next one is the same double as the number
before it. -/
theorem assignBy_below_ne_none (records : List Record) (ids : List CompositeId) (next : Int)
    (hlow : -2 ^ 63 ≤ next) (hhigh : next < 2 ^ 63 - 1)
    (hlast : next = 2 ^ 63 - 2 → hasId ids [.int (2 ^ 63 - 3)] = true) :
    assignBy checked schema (some pk) records ids next ≠ none := by
  have hsame : sameId [.int (2 ^ 63 - 3)] [.int (2 ^ 63 - 2)] = true := by decide +kernel
  have htaken : ∀ {ids more : List CompositeId} {id : CompositeId},
      hasId ids id = true → hasId (ids ++ more) id = true := by
    intro ids more id h
    rw [hasId, List.any_append, Bool.or_eq_true]
    exact Or.inl h
  induction records generalizing ids next with
  | nil => exact Option.some_ne_none _
  | cons record rest ih =>
    cases hlacks : lacks pk record with
    | true =>
      have hkeyed := keyedBy_of_lacks hlacks next
      rw [checked_of_lt hlow (by omega), Option.map_some] at hkeyed
      rw [ne_eq, assignBy_cons_eq_none_iff hkeyed]
      rintro ⟨id, hid, hnew, hrest⟩
      rw [id_insert_int hkeys] at hid
      cases hid
      have hinner : next ≠ 2 ^ 63 - 2 := by
        rintro rfl
        obtain ⟨i, hi, hsame'⟩ := List.any_eq_true.1 (hlast rfl)
        have hdiff := hasId_eq_false_iff.1 hnew i hi
        rw [sameId_trans hsame' hsame] at hdiff
        cases hdiff
      refine ih _ (next + 1) (by omega) (by omega) (fun hnext => ?_) hrest
      have hnext : next = 2 ^ 63 - 3 := by omega
      rw [hnext, hasId, List.any_append, List.any_cons, sameId_self]
      simp
    | false =>
      rw [ne_eq, assignBy_cons_eq_none_iff (keyedBy_of_keeps hlacks next)]
      rintro ⟨id, -, -, hrest⟩
      exact ih _ next hlow hhigh (fun hnext => htaken (hlast hnext)) hrest

end

theorem hasId_greatest {ids : List CompositeId} (hone : ∀ id ∈ ids, id.length = 1) (h : greatest ids ≠ 0) :
    hasId ids [.int (greatest ids)] = true := by
  obtain ⟨id, hid, hcounted⟩ := (greatest_eq_zero_or ids).resolve_left h
  obtain ⟨v, rfl⟩ := List.length_eq_one_iff.1 (hone id hid)
  rw [hasId, List.any_eq_true]
  refine ⟨_, hid, ?_⟩
  rw [← eq_int_of_counted? hcounted]
  exact sameId_self _

/-- A creation from any number on that the greatest stored integer has after it. -/
theorem assignBy_after_greatest_eq_none_iff {schema : CollectionSchema} {ids : List CompositeId}
    (hone : ∀ id ∈ ids, id.length = schema.primaryKeys.length) (hgreatest : greatest ids < 2 ^ 63 - 1)
    (records : List Record) :
    assignBy checked schema (assignedKey? schema) records ids (greatest ids + 1) = none ↔
      greatest ids = 2 ^ 63 - 2 ∧ ∃ pk, assignedKey? schema = some pk ∧ Needs schema pk ids records := by
  have hbounds := greatest_bounds ids
  cases hkey : assignedKey? schema with
  | none =>
    refine iff_of_false (assignBy_none_ne_none records ids _) ?_
    rintro ⟨-, pk, hpk, -⟩
    cases hpk
  | some pk =>
    have hkeys := primaryKeys_of_assignedKey hkey
    rw [hkeys] at hone
    by_cases hlast : greatest ids = 2 ^ 63 - 2
    · have hnext : greatest ids + 1 = 2 ^ 63 - 1 := by omega
      rw [hnext, assignBy_top_eq_none_iff hkeys]
      constructor
      · intro h
        exact ⟨hlast, pk, rfl, h⟩
      · rintro ⟨-, _, hpk, h⟩
        cases hpk
        exact h
    · refine iff_of_false (assignBy_below_ne_none hkeys records ids _ (by omega) (by omega) fun hnext => ?_)
        fun h => hlast h.1
      have hgreatest : greatest ids = 2 ^ 63 - 3 := by omega
      rw [← hgreatest]
      exact hasId_greatest hone (by omega)

/-- A record is created with the greatest integer for its id. -/
def topmost : List Call := [.create default "a" [[("id", .int (2 ^ 63 - 1))]]]

end QueryLayer.Memory
