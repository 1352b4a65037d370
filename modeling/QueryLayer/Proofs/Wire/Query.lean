import QueryLayer.Proofs.Data.Entries
import QueryLayer.Proofs.Outcome
import QueryLayer.Wire.Query

/-! # Queries read back

What is written for a query is read as the query. Numbers have to fit 64 bits, as they do where they
are sent; everything else is free.
-/
namespace QueryLayer

namespace Wire

variable {α β : Type}

/-! ## Members -/

/-- The members that are there. -/
def present (members : List (String × Option Value)) : Record :=
  members.filterMap fun e => e.2.map fun v => (e.1, v)

theorem object_eq (members : List (String × Option Value)) : object members = .object (present members) := rfl

theorem object_ne_null (members : List (String × Option Value)) : object members ≠ .null := by
  rw [object_eq]
  exact nofun

theorem map_fst_present_sublist (members : List (String × Option Value)) :
    ((present members).map Prod.fst).Sublist (members.map Prod.fst) := by
  induction members with
  | nil => exact List.Sublist.refl _
  | cons e rest ih =>
    obtain ⟨name, v⟩ := e
    cases v with
    | none => exact ih.cons _
    | some v => exact ih.cons_cons _

theorem sorted_present {members : List (String × Option Value)} (h : Entries.Sorted members) :
    Entries.Sorted (present members) := by
  have hnames : (members.map Prod.fst).Pairwise (· < ·) := List.pairwise_map.2 h
  exact List.pairwise_map.1 (hnames.sublist (map_fst_present_sublist members))

theorem mem_present {members : List (String × Option Value)} {e : String × Value} :
    e ∈ present members ↔ (e.1, some e.2) ∈ members := by
  obtain ⟨name, v⟩ := e
  simp only [present, List.mem_filterMap, Option.map_eq_some_iff, Prod.mk.injEq]
  constructor
  · rintro ⟨⟨k, u⟩, hmem, w, rfl, rfl, rfl⟩
    exact hmem
  · intro h
    exact ⟨(name, some v), h, v, rfl, rfl, rfl⟩

theorem get?_present {members : List (String × Option Value)} (h : Entries.Sorted members)
    (name : String) : Entries.get? (present members) name = (Entries.get? members name).join := by
  cases hget : Entries.get? (present members) name with
  | some v =>
    have hmem := mem_present.1 (Entries.get?_eq_some_mem hget)
    rw [Entries.get?_of_mem h hmem]
    rfl
  | none =>
    cases hwhole : Entries.get? members name with
    | none => rfl
    | some v =>
      cases v with
      | none => rfl
      | some v =>
        have hmem : (name, v) ∈ present members := mem_present.2 (Entries.get?_eq_some_mem hwhole)
        rw [Entries.get?_of_mem (sorted_present h) hmem] at hget
        exact nomatch hget

/-! ## Readers of named members -/

theorem run_take? (members : Record) (name : String) :
    (take? name).run (.named members) = .ok (Entries.get? members name, .named members) := rfl

theorem get?_present_of_get? {members : List (String × Option Value)} {name : String} {v : Option Value}
    (hs : Entries.Sorted members) (hget : Entries.get? members name = some v) :
    Entries.get? (present members) name = v := by
  rw [get?_present hs, hget]
  rfl

/-- What leaves all members where they are is followed by what reads them. -/
theorem run_bind_of_run {reader : MemberReader α} {members : Members} {a : α}
    (h : reader.run members = .ok (a, members)) (next : α → MemberReader β) :
    (reader >>= next).run members = (next a).run members := by
  rw [StateT.run_bind, h]
  rfl

theorem run_decoded {x : Except String α} {a : α} (h : x = .ok a) (members : Members) :
    (x >>= fun a => Except.ok (a, members)) = .ok (a, members) := by
  rw [h]
  rfl

theorem run_optional {members : List (String × Option Value)} (name : String) {d : Decoder α}
    {default a : α} {v : Option Value} (hs : Entries.Sorted members)
    (hget : Entries.get? members name = some v) (hv : (v.map d).getD (.ok default) = .ok a)
    (next : α → MemberReader β) :
    (optional name d default >>= next).run (.named (present members)) =
      (next a).run (.named (present members)) := by
  refine run_bind_of_run ?_ next
  rw [optional, StateT.run_bind, run_take?, get?_present_of_get? hs hget]
  cases v with
  | none =>
    obtain rfl : default = a := Except.ok.inj hv
    rfl
  | some v => exact run_decoded (x := d v) hv _

theorem run_required {members : List (String × Option Value)} (name : String) {d : Decoder α} {a : α}
    {v : Value} (hs : Entries.Sorted members) (hget : Entries.get? members name = some (some v))
    (hd : d v = .ok a) (next : α → MemberReader β) :
    (required name d >>= next).run (.named (present members)) =
      (next a).run (.named (present members)) := by
  refine run_bind_of_run ?_ next
  rw [required, StateT.run_bind, run_take?, get?_present_of_get? hs hget]
  exact run_decoded hd _

theorem nullable_of_ne_null {d : Decoder α} {v : Value} {a : α} (hd : d v = .ok a) (hv : v ≠ .null) :
    nullable d v = .ok (some a) := by
  unfold nullable
  split
  · exact absurd rfl hv
  · rw [hd]
    rfl

/-- A member that is never written as null reads as what is there. -/
theorem run_maybe {members : List (String × Option Value)} (name : String) {d : Decoder α}
    {encode : α → Value} {x : Option α} (hs : Entries.Sorted members)
    (hget : Entries.get? members name = some (x.map encode))
    (hd : ∀ a ∈ x, d (encode a) = .ok a ∧ encode a ≠ .null) (next : Option α → MemberReader β) :
    (maybe name d >>= next).run (.named (present members)) =
      (next x).run (.named (present members)) := by
  refine run_optional name hs hget ?_ next
  cases x with
  | none => rfl
  | some a =>
    obtain ⟨hread, hnull⟩ := hd a rfl
    exact nullable_of_ne_null hread hnull

theorem fields_of_run (members : List (String × Option Value)) {reader : MemberReader α} {a : α}
    (h : reader.run (.named (present members)) = .ok (a, .named (present members))) :
    fields reader (object members) = .ok a := by
  unfold fields
  rw [object_eq]
  simp only
  rw [h]
  rfl

theorem namedOnly_of_run (members : List (String × Option Value)) {reader : MemberReader α} {a : α}
    (h : reader.run (.named (present members)) = .ok (a, .named (present members))) :
    namedOnly reader (object members) = .ok a := by
  unfold namedOnly
  rw [object_eq]
  simp only
  rw [h]
  rfl

theorem text_text (s : String) : text (.text s) = .ok s ∧ Value.text s ≠ .null := ⟨rfl, by simp⟩

theorem flag_bool (b : Bool) : flag (.bool b) = .ok b ∧ Value.bool b ≠ .null := ⟨rfl, by simp⟩

theorem list_of_forall {d : Decoder α} {encode : α → Value} {items : List α}
    (h : ∀ a ∈ items, d (encode a) = .ok a) : list d (.array (items.map encode)) = .ok items := by
  change (items.map encode).mapM d = .ok items
  rw [Outcome.mapM_eq_ok_iff, List.forall₂_map_left_iff, List.forall₂_same]
  exact h

theorem size_nat {n : Nat} (h : n < 18446744073709551616) : size (.nat n) = .ok n := by
  have hpow : Nat.pow 2 64 = 18446744073709551616 := by decide
  rw [size, hpow, Value.nat, natural, Number.toUInt64?_ofNat h]
  simp only
  rw [if_pos h]

end Wire

open Wire

/-! ## Parts of queries -/

theorem Operator.decode_encode (o : Operator) : Operator.decode o.encode = .ok o := by
  cases o <;> rfl

theorem Aggregator.decode_name (a : Aggregator) : Aggregator.decode (.text a.name) = .ok a := by
  cases a <;> rfl

theorem AggregateFunction.decode_name (f : AggregateFunction) :
    AggregateFunction.decode (.text f.name) = .ok f := by
  cases f <;> rfl

theorem DateUnit.decode_name (u : DateUnit) : DateUnit.decode (.text u.name) = .ok u := by
  cases u <;> rfl

def Leaf.entries (l : Leaf) : List (String × Option Value) :=
  [("field", some (.text l.field)), ("operator", some l.operator.encode), ("value", some l.value)]

theorem Leaf.decode_encode (l : Leaf) : Leaf.decode l.encode = .ok l := by
  have hs : Entries.Sorted l.entries :=
    Entries.sorted_of_names ["field", "operator", "value"] rfl (by decide)
  have hvalue : ((some l.value).map raw).getD (.ok .null) = .ok l.value := rfl
  refine fields_of_run l.entries ?_
  rw [run_required "field" hs rfl (text_text l.field).1,
    run_required "operator" hs rfl l.operator.decode_encode, run_optional "value" hs rfl hvalue]
  rfl

def SortClause.entries (c : SortClause) : List (String × Option Value) :=
  [("ascending", some (.bool c.ascending)), ("field", some (.text c.field))]

theorem SortClause.sorted_entries (c : SortClause) : Entries.Sorted c.entries :=
  Entries.sorted_of_names ["ascending", "field"] rfl (by decide)

theorem SortClause.decode_encode (c : SortClause) : SortClause.decode c.encode = .ok c := by
  have hascending : ((some (Value.bool c.ascending)).map flag).getD (.ok true) = .ok c.ascending := rfl
  refine fields_of_run c.entries ?_
  rw [run_required "field" c.sorted_entries rfl (text_text c.field).1,
    run_optional "ascending" c.sorted_entries rfl hascending]
  rfl

theorem Sorting.decode_encode (s : Sorting) : Sorting.decode s.encode = .ok s := by
  unfold Sorting.decode Sorting.encode
  rw [list_of_forall fun c _ => c.decode_encode]
  rfl

theorem Projection.decode_encode (p : Projection) : Projection.decode p.encode = .ok p := by
  unfold Projection.decode Projection.encode texts
  have hlist : list text (.array (p.fields.map .text)) = .ok p.fields :=
    list_of_forall fun _ _ => rfl
  rw [hlist]
  exact congrArg Except.ok p.ofList_fields

namespace Condition

theorem encode_ne_null (c : Condition) : c.encode ≠ .null := by
  cases c <;> simp [encode, Leaf.encode]

@[simp] theorem encodeAll_eq (cs : List Condition) : encodeAll cs = cs.map encode := by
  induction cs with
  | nil => rfl
  | cons c cs ih => rw [encodeAll, ih, List.map_cons]

theorem ofValue?_encode (c : Condition) : ofValue? c.encode = .ok (some c) := by
  induction c using Condition.induct with
  | hleaf l =>
    have hdecode : Leaf.decode (.object [("field", .text l.field), ("operator", l.operator.encode),
      ("value", l.value)]) = .ok l := l.decode_encode
    rw [encode, Leaf.encode, ofValue?]
    simp [Entries.get?, Entries.contains, hdecode]
  | hnot c ih =>
    rw [encode, ofValue?]
    simp only [Entries.get?, String.reduceEq, ↓reduceIte, ↓dreduceIte, ih, Outcome.ok_bind]
    rfl
  | hbranch a cs ih =>
    have hparts : (cs.map encode).mapM ofValue = .ok cs := by
      rw [Outcome.mapM_eq_ok_iff, List.forall₂_map_left_iff, List.forall₂_same]
      intro c hc
      rw [ofValue, ih c hc]
      rfl
    rw [encode, encodeAll_eq, ofValue?]
    simp only [Entries.get?, ↓reduceIte, a.decode_name, String.reduceEq, ↓dreduceIte, bind_pure_comp]
    rw [List.mapM_subtype (g := ofValue) fun _ _ => rfl, List.unattach_attach, hparts]
    rfl

theorem decode_encode (c : Condition) : decode c.encode = .ok c := by
  unfold decode ofValue
  rw [ofValue?_encode]
  rfl

end Condition

/-! ## Filters and aggregations -/

/-- The number fits where it is sent. -/
abbrev Sendable (n : Nat) : Prop := n < 18446744073709551616

structure Page.Sendable (p : Page) : Prop where
  skip : QueryLayer.Sendable p.skip
  limit : ∀ n ∈ p.limit, QueryLayer.Sendable n

instance (p : Page) : Decidable p.Sendable :=
  decidable_of_iff (QueryLayer.Sendable p.skip ∧ ∀ n ∈ p.limit, QueryLayer.Sendable n)
    ⟨fun h => ⟨h.1, h.2⟩, fun h => ⟨h.skip, h.limit⟩⟩

def Page.entries (p : Page) : List (String × Option Value) :=
  [("limit", p.limit.map .nat), ("skip", some (.nat p.skip))]

theorem Page.sorted_entries (p : Page) : Entries.Sorted p.entries :=
  Entries.sorted_of_names ["limit", "skip"] rfl (by decide)

theorem Page.decode_encode {p : Page} (h : p.Sendable) : Page.decode p.encode = .ok p := by
  have hlimit : ∀ n ∈ p.limit, size (.nat n) = .ok n ∧ Value.nat n ≠ .null :=
    fun n hn => ⟨size_nat (h.limit n hn), by simp [Value.nat]⟩
  have hskip : ((some (Value.nat p.skip)).map size).getD (.ok 0) = .ok p.skip := by
    rw [Option.map_some, Option.getD_some, size_nat h.skip]
  refine fields_of_run p.entries ?_
  rw [run_optional "skip" p.sorted_entries rfl hskip,
    run_maybe "limit" p.sorted_entries rfl hlimit]
  rfl

def PaginatedFilter.entries (f : PaginatedFilter) : List (String × Option Value) := [
  ("conditionTree", f.condition.map Condition.encode),
  ("page", f.page.map Page.encode),
  ("search", f.search.map .text),
  ("searchExtended", f.searchExtended.map .bool),
  ("segment", f.segment.map .text),
  ("sort", if f.sort.isEmpty then none else some f.sort.encode)]

theorem PaginatedFilter.sorted_entries (f : PaginatedFilter) : Entries.Sorted f.entries :=
  Entries.sorted_of_names ["conditionTree", "page", "search", "searchExtended", "segment", "sort"] rfl
    (by decide)

theorem PaginatedFilter.decode_encode {f : PaginatedFilter} (h : ∀ p ∈ f.page, p.Sendable) :
    PaginatedFilter.decode f.encode = .ok f := by
  have hs := f.sorted_entries
  have hcondition : ∀ c ∈ f.condition, Condition.decode c.encode = .ok c ∧ c.encode ≠ .null :=
    fun c _ => ⟨c.decode_encode, c.encode_ne_null⟩
  have hpage : ∀ p ∈ f.page, Page.decode p.encode = .ok p ∧ p.encode ≠ .null :=
    fun p hp => ⟨Page.decode_encode (h p hp), object_ne_null _⟩
  have hsort : ((if f.sort.isEmpty then none else some f.sort.encode).map Sorting.decode).getD
      (.ok .empty) = .ok f.sort := by
    by_cases hempty : f.sort.isEmpty = true
    · have hclauses : f.sort.clauses = [] := List.isEmpty_iff.1 hempty
      rw [if_pos hempty]
      exact congrArg (fun clauses => Except.ok (Sorting.mk clauses)) hclauses.symm
    · rw [if_neg hempty]
      exact f.sort.decode_encode
  refine namedOnly_of_run f.entries ?_
  simp only [Filter.members, bind_assoc, pure_bind]
  rw [run_maybe "conditionTree" hs rfl hcondition, run_maybe "search" hs rfl fun s _ => text_text s,
    run_maybe "searchExtended" hs rfl fun b _ => flag_bool b,
    run_maybe "segment" hs rfl fun s _ => text_text s,
    run_optional "sort" hs rfl hsort, run_maybe "page" hs rfl hpage]
  rfl

def AggregationGroup.entries (g : AggregationGroup) : List (String × Option Value) :=
  [("field", some (.text g.field)), ("operation", g.unit.map fun u => .text u.name)]

theorem AggregationGroup.sorted_entries (g : AggregationGroup) : Entries.Sorted g.entries :=
  Entries.sorted_of_names ["field", "operation"] rfl (by decide)

theorem AggregationGroup.decode_encode (g : AggregationGroup) :
    AggregationGroup.decode g.encode = .ok g := by
  have hunit : ∀ u ∈ g.unit, DateUnit.decode (.text u.name) = .ok u ∧ Value.text u.name ≠ .null :=
    fun u _ => ⟨u.decode_name, by simp⟩
  have hget : Entries.get? g.entries "operation" = some (g.unit.map fun u => .text u.name) := rfl
  refine fields_of_run g.entries ?_
  rw [run_required "field" g.sorted_entries rfl (text_text g.field).1,
    run_maybe "operation" g.sorted_entries hget hunit]
  rfl

def Aggregation.entries (a : Aggregation) : List (String × Option Value) := [
  ("field", a.field.map .text),
  ("groups", if a.groups.isEmpty then none else some (.array (a.groups.map AggregationGroup.encode))),
  ("operation", some (.text a.function.name))]

theorem Aggregation.sorted_entries (a : Aggregation) : Entries.Sorted a.entries :=
  Entries.sorted_of_names ["field", "groups", "operation"] rfl (by decide)

theorem Aggregation.decode_encode (a : Aggregation) : Aggregation.decode a.encode = .ok a := by
  have hs := a.sorted_entries
  have hgroups : ((if a.groups.isEmpty then none
      else some (.array (a.groups.map AggregationGroup.encode))).map
        (list AggregationGroup.decode)).getD (.ok []) = .ok a.groups := by
    by_cases hempty : a.groups.isEmpty = true
    · rw [if_pos hempty]
      exact congrArg Except.ok (List.isEmpty_iff.1 hempty).symm
    · rw [if_neg hempty]
      exact list_of_forall fun g _ => g.decode_encode
  refine fields_of_run a.entries ?_
  rw [run_required "operation" hs rfl a.function.decode_name, run_maybe "field" hs rfl fun s _ => text_text s, run_optional "groups" hs rfl hgroups]
  rfl

def AggregateRow.entries (r : AggregateRow) : List (String × Option Value) :=
  [("group", some (.object r.group)), ("value", some r.value)]

theorem AggregateRow.decode_encode (r : AggregateRow) : AggregateRow.decode r.encode = .ok r := by
  have hs : Entries.Sorted r.entries :=
    Entries.sorted_of_names ["group", "value"] rfl (by decide)
  have hvalue : raw r.value = .ok r.value := rfl
  have hgroup : ((some (Value.object r.group)).map record).getD (.ok []) = .ok r.group := rfl
  refine fields_of_run r.entries ?_
  rw [run_required "value" hs rfl hvalue, run_optional "group" hs rfl hgroup]
  rfl

end QueryLayer
