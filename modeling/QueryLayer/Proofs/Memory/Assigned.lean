import QueryLayer.Proofs.Memory.Keyed
import QueryLayer.Proofs.Number.Integers

/-! # Ids that the store assigns

Where the only key is a number, records without an id get integers in turn, from one more than the greatest
stored integer on. The numbers are not counted on past the ids that other records of the batch come with, so
that a creation with distinct ids of its own is accepted exactly when the assigned numbers are `Fresh` to
them. Stored ids never stand in the way as long as they are integers that are told apart.
-/
namespace QueryLayer.Memory

/-! ## The assigned numbers -/

theorem wrap64_of_lt {i : Int} (hlow : -2 ^ 63 ≤ i) (hhigh : i < 2 ^ 63) : wrap64 i = i := by
  have hpow : Nat.pow 2 64 = 18446744073709551616 := rfl
  refine Int.bmod_eq_of_le ?_ ?_ <;> omega

theorem wrap64_wrap64_add (i j : Int) : wrap64 (wrap64 i + j) = wrap64 (i + j) := Int.bmod_add_bmod

/-- So many integers from `next` on. -/
def numbersFrom (next : Int) (count : Nat) : List Int :=
  (List.range count).map fun i : Nat => wrap64 (next + i)

theorem numbersFrom_succ (next : Int) (count : Nat) :
    numbersFrom next (count + 1) = wrap64 next :: numbersFrom (wrap64 (next + 1)) count := by
  unfold numbersFrom
  rw [List.range_succ_eq_map, List.map_cons, List.map_map, Int.natCast_zero, Int.add_zero]
  refine congrArg (wrap64 next :: ·) (List.map_congr_left fun i _ => ?_)
  have hsucc : next + ((i + 1 : Nat) : Int) = next + 1 + i := by omega
  rw [wrap64_wrap64_add, Function.comp_apply, Nat.succ_eq_add_one, hsucc]

theorem mem_numbersFrom_iff {next n : Int} {count : Nat} (hlow : -2 ^ 63 ≤ next)
    (hhigh : next + count ≤ 2 ^ 63) : n ∈ numbersFrom next count ↔ next ≤ n ∧ n < next + count := by
  unfold numbersFrom
  rw [List.mem_map]
  constructor
  · rintro ⟨i, hi, rfl⟩
    have hi := List.mem_range.1 hi
    rw [wrap64_of_lt (by omega) (by omega)]
    omega
  · rintro ⟨hle, hlt⟩
    refine ⟨(n - next).toNat, List.mem_range.2 (by omega), ?_⟩
    rw [wrap64_of_lt (by omega) (by omega)]
    omega

theorem pairwise_numbersFrom {next : Int} {count : Nat} (hlow : -2 ^ 63 ≤ next)
    (hhigh : next + count ≤ 2 ^ 63) : (numbersFrom next count).Pairwise (· < ·) := by
  unfold numbersFrom
  rw [List.pairwise_map]
  refine List.pairwise_lt_range.imp_of_mem fun {i j} hi hj hij => ?_
  have hi := List.mem_range.1 hi
  have hj := List.mem_range.1 hj
  rw [wrap64_of_lt (by omega) (by omega), wrap64_of_lt (by omega) (by omega)]
  omega

/-- The integer that the store counts an id as. -/
def counted? (id : CompositeId) : Option Int := (id.head?.bind Value.number?).bind Number.toInt64?

/-- The greatest id that is counted, or zero. -/
def greatest (ids : List CompositeId) : Int := (ids.filterMap counted?).max?.getD 0

theorem nextId_eq (ids : List CompositeId) : nextId ids = wrap64 (greatest ids + 1) := by
  unfold nextId greatest counted?
  dsimp only
  split
  · next hnone =>
    rw [hnone]
    rfl
  · next i rest hsome =>
    rw [hsome, List.max?_cons', Option.getD_some]

theorem wrap64_nextId (ids : List CompositeId) : wrap64 (nextId ids) = nextId ids := Int.bmod_bmod

theorem le_greatest {ids : List CompositeId} {id : CompositeId} (hid : id ∈ ids) {i : Int}
    (h : counted? id = some i) : i ≤ greatest ids := by
  have hmem : i ∈ ids.filterMap counted? := List.mem_filterMap.2 ⟨id, hid, h⟩
  unfold greatest
  cases hmax : (ids.filterMap counted?).max? with
  | none =>
    rw [List.max?_eq_none_iff.1 hmax] at hmem
    cases hmem
  | some m => exact (List.max?_eq_some_iff.1 hmax).2 i hmem

theorem counted?_bounds {id : CompositeId} {i : Int} (h : counted? id = some i) : -2 ^ 63 ≤ i ∧ i < 2 ^ 63 := by
  obtain ⟨n, -, hn⟩ := Option.bind_eq_some_iff.1 h
  cases n with
  | double x => cases hn
  | integer j hj =>
    unfold Number.toInt64? at hn
    unfold Number.Fits at hj
    dsimp only at hn
    split at hn <;> cases hn
    omega

theorem greatest_eq_zero_or (ids : List CompositeId) :
    greatest ids = 0 ∨ ∃ id ∈ ids, counted? id = some (greatest ids) := by
  unfold greatest
  cases hmax : (ids.filterMap counted?).max? with
  | none => exact Or.inl rfl
  | some m =>
    obtain ⟨id, hid, hm⟩ := List.mem_filterMap.1 (List.max?_eq_some_iff.1 hmax).1
    exact Or.inr ⟨id, hid, hm⟩

theorem greatest_bounds (ids : List CompositeId) : -2 ^ 63 ≤ greatest ids ∧ greatest ids < 2 ^ 63 := by
  rcases greatest_eq_zero_or ids with hzero | ⟨id, -, hcounted⟩
  · rw [hzero]
    omega
  · exact counted?_bounds hcounted

theorem eq_int_of_counted? {v : Value} {i : Int} (h : counted? [v] = some i) : v = .int i := by
  obtain ⟨n, hv, hn⟩ := Option.bind_eq_some_iff.1 h
  cases v <;> cases hv
  cases n with
  | double x => cases hn
  | integer j hj =>
    unfold Number.toInt64? at hn
    dsimp only at hn
    split at hn <;> cases hn
    rw [Value.int, Number.ofInt_of_fits hj]

theorem sameId_singleton (v w : Value) : sameId [v] [w] = v.same w := by
  unfold sameId
  rw [Value.sameItems, Value.sameItems, Bool.and_true]

theorem sameId_int_eq_false {i j : Int} (hi : i.natAbs < 2 ^ 53) (hj : Number.Fits j) (h : j ≠ i) :
    sameId [.int j] [.int i] = false := by
  rw [sameId_singleton, ← Bool.not_eq_true, Value.same_int_iff hi hj]
  exact h

/-- Only the greatest integer of all has a number after it that is not greater. -/
theorem greatest_add_one {ids : List CompositeId} (h : -2 ^ 63 < nextId ids) :
    greatest ids + 1 = nextId ids := by
  have hbounds := greatest_bounds ids
  rw [nextId_eq] at h ⊢
  by_cases htop : greatest ids = 2 ^ 63 - 1
  · rw [htop] at h
    exact absurd h (by decide)
  · exact (wrap64_of_lt (by omega) (by omega)).symm

/-- The ids that are not counted: doubles, and integers beyond the signed ones. -/
def uncounted (ids : List CompositeId) : List CompositeId := ids.filter fun id => (counted? id).isNone

/-- Where integers are told apart, assigned numbers are fresh unless one of them is an id that is not
counted. -/
theorem fresh_numbersFrom_iff {ids given : List CompositeId} {count : Nat}
    (hone : ∀ id ∈ ids, id.length = 1) (hlow : -2 ^ 53 < nextId ids) (hhigh : nextId ids + count ≤ 2 ^ 53) :
    Fresh (ids ++ given) ((numbersFrom (nextId ids) count).map fun n => [.int n]) ↔
      ∀ n, nextId ids ≤ n → n < nextId ids + count → hasId (uncounted ids ++ given) [.int n] = false := by
  have hnext : greatest ids + 1 = nextId ids := greatest_add_one (by omega)
  have hmem : ∀ n, n ∈ numbersFrom (nextId ids) count ↔ nextId ids ≤ n ∧ n < nextId ids + count :=
    fun n => mem_numbersFrom_iff (by omega) (by omega)
  constructor
  · intro h n hle hlt
    have hfresh := h.apart _ (List.mem_map_of_mem ((hmem n).2 ⟨hle, hlt⟩))
    rw [hasId_eq_false_iff] at hfresh ⊢
    intro id hid
    rcases List.mem_append.1 hid with hid | hid
    · exact hfresh id (List.mem_append_left _ (List.mem_of_mem_filter hid))
    · exact hfresh id (List.mem_append_right _ hid)
  · intro h
    refine ⟨fun id hid => ?_, ?_⟩
    · obtain ⟨n, hn, rfl⟩ := List.mem_map.1 hid
      obtain ⟨hle, hlt⟩ := (hmem n).1 hn
      have hfree := hasId_eq_false_iff.1 (h n hle hlt)
      rw [hasId_eq_false_iff]
      intro id hid
      rcases List.mem_append.1 hid with hid | hid
      · cases hcounted : counted? id with
        | none => exact hfree id (List.mem_append_left _ (List.mem_filter.2 ⟨hid, by rw [hcounted]; rfl⟩))
        | some i =>
          -- a counted id is below all assigned numbers
          obtain ⟨v, rfl⟩ := List.length_eq_one_iff.1 (hone id hid)
          have hle' := le_greatest hid hcounted
          have hi := counted?_bounds hcounted
          rw [eq_int_of_counted? hcounted]
          exact sameId_int_eq_false (by omega) (by unfold Number.Fits; omega) (by omega)
      · exact hfree id (List.mem_append_right _ hid)
    · rw [List.pairwise_map]
      refine (pairwise_numbersFrom (by omega) (by omega)).imp_of_mem fun {a b} ha hb hab => ?_
      have ha := (hmem a).1 ha
      have hb := (hmem b).1 hb
      exact sameId_int_eq_false (by omega) (by unfold Number.Fits; omega) (by omega)

/-! ## Creations -/

/-- A record that the store gives an id. -/
def lacks (pk : String) (record : Record) : Bool := ((record.get? pk).getD .null).isNull

theorem keyedFrom_of_lacks {pk : String} {record : Record} (h : lacks pk record = true) (next : Int) :
    keyedFrom (some pk) record next = (record.insert pk (.int next), wrap64 (next + 1)) := if_pos h

theorem keyedFrom_of_keeps {pk : String} {record : Record} (h : lacks pk record = false) (next : Int) :
    keyedFrom (some pk) record next = (record, next) := if_neg (by rw [← lacks, h]; exact Bool.false_ne_true)

/-- The records of a batch that come with an id. -/
def given (pk : String) (records : List Record) : List Record := records.filter fun r => !lacks pk r

/-- The records of a batch that get one. -/
def lacking (pk : String) (records : List Record) : List Record := records.filter (lacks pk)

theorem perm_numberedFrom (pk : String) (records : List Record) (next : Int) :
    (numberedFrom (some pk) records next).Perm
      (given pk records ++ numberedFrom (some pk) (lacking pk records) next) := by
  induction records generalizing next with
  | nil => exact .nil
  | cons record rest ih =>
    unfold given lacking at ih ⊢
    rw [numberedFrom]
    cases hlacks : lacks pk record with
    | true =>
      rw [keyedFrom_of_lacks hlacks, List.filter_cons_of_neg (by simp [hlacks]),
        List.filter_cons_of_pos hlacks, numberedFrom, keyedFrom_of_lacks hlacks]
      exact ((ih _).cons _).trans List.perm_middle.symm
    | false =>
      rw [keyedFrom_of_keeps hlacks, List.filter_cons_of_pos (by simp [hlacks]),
        List.filter_cons_of_neg (by simp [hlacks]), List.cons_append]
      exact (ih _).cons _

section

variable {schema : CollectionSchema} {pk : String} (hkeys : schema.primaryKeys = [pk])
include hkeys

theorem key_eq_singleton (record : Record) : record.key schema = [(record.get? pk).getD .null] := by
  unfold Record.key
  rw [hkeys, List.map_singleton]

theorem key_insert (record : Record) (v : Value) : Record.key (record.insert pk v) schema = [v] := by
  rw [key_eq_singleton hkeys, Record.get?, Record.insert, Entries.get?_insert_self, Option.getD_some]

theorem key_lacking {records : List Record} (h : ∀ r ∈ records, lacks pk r = true) {next : Int}
    (hnext : wrap64 next = next) : (numberedFrom (some pk) records next).map (fun r => r.key schema) =
      (numbersFrom next records.length).map fun n => [.int n] := by
  induction records generalizing next with
  | nil => rfl
  | cons record rest ih =>
    obtain ⟨hfirst, hrest⟩ := List.forall_mem_cons.1 h
    have hsucc : wrap64 (wrap64 (next + 1)) = wrap64 (next + 1) := Int.bmod_bmod
    rw [numberedFrom, keyedFrom_of_lacks hfirst, List.map_cons, key_insert hkeys, ih hrest hsucc,
      List.length_cons, numbersFrom_succ, hnext, List.map_cons]

theorem present_numberedFrom (records : List Record) (next : Int) :
    ∀ r ∈ numberedFrom (some pk) records next, ∀ v ∈ r.key schema, v ≠ .null := by
  induction records generalizing next with
  | nil => simp [numberedFrom]
  | cons record rest ih =>
    rw [numberedFrom, List.forall_mem_cons]
    refine ⟨?_, ih _⟩
    cases hlacks : lacks pk record with
    | true =>
      rw [keyedFrom_of_lacks hlacks, key_insert hkeys]
      simp [Value.int]
    | false =>
      rw [keyedFrom_of_keeps hlacks, key_eq_singleton hkeys]
      simpa [lacks, Value.isNull_eq_true, ← Bool.not_eq_true] using hlacks

/-- What is stored is fresh when the given ids are, and the assigned numbers are beside them. -/
theorem fresh_numberedFrom_iff {records : List Record} {ids : List CompositeId} {next : Int}
    (hnext : wrap64 next = next) :
    Fresh ids ((numberedFrom (some pk) records next).map fun r => r.key schema) ↔
      Fresh ids ((given pk records).map fun r => r.key schema) ∧
        Fresh (ids ++ (given pk records).map fun r => r.key schema)
          ((numbersFrom next (lacking pk records).length).map fun n => [.int n]) := by
  have hlacking : ∀ r ∈ lacking pk records, lacks pk r = true := fun r hr => (List.mem_filter.1 hr).2
  rw [Fresh.perm_iff ((perm_numberedFrom pk records next).map _), List.map_append, Fresh.append_iff,
    key_lacking hkeys hlacking hnext]

end

theorem length_of_mem_idsOf {schema : CollectionSchema} {rows : List Record} {id : CompositeId}
    (h : id ∈ idsOf schema rows) : id.length = schema.primaryKeys.length := by
  obtain ⟨r, -, hid⟩ := List.mem_filterMap.1 h
  obtain ⟨rfl, -⟩ := Record.id_eq_ok_iff.1 (Outcome.eq_ok_of_toOption hid)
  exact Record.length_key r schema

theorem runOn_create (db : Database) (name : String) (schema : CollectionSchema) (caller : Caller)
    (records : List Record) (store : Store) :
    ((collection db name schema).create caller records).runOn store =
      match creation (db.scope name schema) (store.rows name) records with
      | .ok created => (.ok created, store.setRows name (store.rows name ++ created))
      | .error e => (.error e, store) := by
  refine (runOn_writing _ _ _).trans ?_
  dsimp only
  cases creation (db.scope name schema) (store.rows name) records <;> rfl

/-- A batch whose own ids are distinct, and none of the stored ones, is stored with consecutive numbers, or it
is refused for one of them. Where integers are told apart, that takes an id of the batch in the way of the
numbers, or a stored one that is not counted. -/
theorem create_of_fresh {db : Database} {store : Store} {name : String} {schema : CollectionSchema}
    {pk : String} {records prepared : List Record} (caller : Caller)
    (hkey : assignedKey? schema = some pk)
    (hprepared : prepare (db.scope name schema) records = .ok prepared)
    (hgiven : Fresh (idsOf schema (store.rows name)) ((given pk prepared).map fun r => r.key schema)) :
    let ids := idsOf schema (store.rows name)
    let givenIds := (given pk prepared).map fun r => r.key schema
    let count := (lacking pk prepared).length
    let created := numberedFrom (some pk) prepared (nextId ids)
    let accepted := Fresh (ids ++ givenIds) ((numbersFrom (nextId ids) count).map fun n => [.int n])
    let answer := ((collection db name schema).create caller records).runOn store
    (accepted → answer = (.ok created, store.setRows name (store.rows name ++ created))) ∧
      (¬accepted → ∃ id, answer = (.error (.query (.duplicatePrimaryKey id)), store)) ∧
      (-2 ^ 53 < nextId ids → nextId ids + count ≤ 2 ^ 53 →
        (accepted ↔ ∀ n, nextId ids ≤ n → n < nextId ids + count →
          hasId (uncounted ids ++ givenIds) [.int n] = false)) := by
  intro ids givenIds count created accepted answer
  have hkeys := primaryKeys_of_assignedKey hkey
  have hpresent := present_numberedFrom hkeys prepared (nextId ids)
  have hfresh : Fresh ids (created.map fun r => r.key schema) ↔ accepted := by
    refine (fresh_numberedFrom_iff hkeys (wrap64_nextId ids)).trans ?_
    exact and_iff_right hgiven
  have hcreation : creation (db.scope name schema) (store.rows name) records =
      assign schema (some pk) prepared ids (nextId ids) := by
    unfold creation
    rw [hprepared, ← hkey]
    rfl
  have hanswer := runOn_create db name schema caller records store
  rw [hcreation] at hanswer
  refine ⟨fun haccepted => ?_, fun hrefused => ?_, fun hlow hhigh => ?_⟩
  · have hassign := assign_eq_ok_iff.2 ⟨rfl, hpresent, hfresh.2 haccepted⟩
    rw [hassign] at hanswer
    exact hanswer
  · cases hassign : assign schema (some pk) prepared ids (nextId ids) with
    | ok stored =>
      obtain ⟨rfl, -, hstored⟩ := assign_eq_ok_iff.1 hassign
      exact absurd (hfresh.1 hstored) hrefused
    | error e =>
      obtain ⟨id, rfl⟩ := failsAs_assign hpresent e hassign
      rw [hassign] at hanswer
      exact ⟨id, hanswer⟩
  · refine fresh_numbersFrom_iff (fun id hid => ?_) hlow hhigh
    rw [length_of_mem_idsOf hid, hkeys, List.length_singleton]

/-- The numbers 4 and 5 go around the given 7. -/
theorem create_of_fresh_numbered :
    let store := run numbered [.create default "a" [[("id", .int 3)]]]
    let schema := CollectionSchema.empty.withField "id" (.column (Column.primaryKey (.ofType .number)))
    let records : List Record := [[], [("id", .int 7)], []]
    assignedKey? schema = some "id" ∧ prepare (numbered.scope "a" schema) records = .ok records ∧
      Fresh (idsOf schema (store.rows "a")) ((given "id" records).map fun r => r.key schema) ∧
      (((collection numbered "a" schema).create default records).runOn store).1.toOption =
        some [[("id", .int 4)], [("id", .int 7)], [("id", .int 5)]] := by
  intro store schema records
  have hkey : assignedKey? schema = some "id" := by decide +kernel
  have hprepared : prepare (numbered.scope "a" schema) records = .ok records := by decide +kernel
  have hgiven : Fresh (idsOf schema (store.rows "a")) ((given "id" records).map fun r => r.key schema) :=
    ⟨by decide +kernel, by decide +kernel⟩
  obtain ⟨haccepted, -, hwhen⟩ := create_of_fresh default hkey hprepared hgiven
  have hnext : nextId (idsOf schema (store.rows "a")) = 4 := by decide +kernel
  have hcount : (lacking "id" records).length = 2 := by decide +kernel
  rw [hnext, hcount] at hwhen
  have hfree := (hwhen (by decide) (by decide)).2 fun n hle hlt => by
    obtain rfl | rfl : n = 4 ∨ n = 5 := by omega
    all_goals decide +kernel
  rw [← hnext, ← hcount] at hfree
  refine ⟨hkey, hprepared, hgiven, ?_⟩
  rw [haccepted hfree]
  decide +kernel

/-- The batch is its own obstacle: the id of the first record is the number that the second one gets. -/
theorem not_create_of_distinct :
    ¬ ∀ (db : Database) (store : Store) (name : String) (schema : CollectionSchema) (pk : String)
        (records prepared : List Record) (caller : Caller), Reachable db store →
      db.schemas.get? name = some schema → assignedKey? schema = some pk →
      prepare (db.scope name schema) records = .ok prepared →
      Fresh (idsOf schema (store.rows name)) ((given pk prepared).map fun r => r.key schema) →
      ∀ id, (((collection db name schema).create caller records).runOn store).1 ≠
        .error (.query (.duplicatePrimaryKey id)) := by
  intro h
  have hgiven : Fresh [] [[Value.int 1]] := ⟨by decide +kernel, by decide +kernel⟩
  refine h numbered numbered.emptyStore "a" _ "id" [[("id", .int 1)], []] [[("id", .int 1)], []] default
    .emptyStore rfl (by decide +kernel) (by decide +kernel) ?_ [.int 1] (by decide +kernel)
  rw [rows_emptyStore]
  exact hgiven

end QueryLayer.Memory
