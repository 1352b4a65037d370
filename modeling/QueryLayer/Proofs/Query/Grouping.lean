import QueryLayer.Proofs.Query.Aggregation
import QueryLayer.Proofs.Query.Agreement
import QueryLayer.Proofs.Query.Condition
import QueryLayer.Proofs.Query.Truncation
import QueryLayer.Proofs.Value.Doubles

/-! # Records that are counted together

A group has one value for each field that is grouped by, the one of the last group by that field. Two records
are in one row exactly when these values agree; those of the other groups may differ all the same, unless one
that is kept determines them. Main statement: `Aggregation.sameRow_iff`.
-/
namespace QueryLayer

variable {u w : Option DateUnit} {inner outer : DateUnit} {v x : Value}

/-! ## Values taken to the start of a span, or left as they are -/

def truncated (unit : Option DateUnit) (v : Value) : Value :=
  match unit with
  | some unit => truncateDate unit v
  | none => v

/-- The values of the one unit determine those of the other. -/
def Finer : Option DateUnit → Option DateUnit → Prop
  | none, _ => True
  | some _, none => False
  | some inner, some outer => Date.Within inner outer

instance : (u w : Option DateUnit) → Decidable (Finer u w)
  | none, _ => inferInstanceAs (Decidable True)
  | some _, none => inferInstanceAs (Decidable False)
  | some inner, some outer => inferInstanceAs (Decidable (Date.Within inner outer))

theorem object?_truncateDate (unit : DateUnit) (v : Value) : (truncateDate unit v).object? = v.object? := by
  cases v with
  | text s =>
    unfold truncateDate
    dsimp only
    split <;> rfl
  | _ => rfl

theorem object?_truncated (unit : Option DateUnit) (v : Value) : (truncated unit v).object? = v.object? := by
  cases unit with
  | none => rfl
  | some unit => exact object?_truncateDate unit v

theorem truncated_congr (h : Finer u w) (hv : ∀ unit ∈ w, v.Reaches unit) (hx : ∀ unit ∈ w, x.Reaches unit)
    (heq : truncated u v = truncated u x) : truncated w v = truncated w x := by
  cases u with
  | none => exact congrArg (truncated w) heq
  | some inner =>
    cases w with
    | none => exact h.elim
    | some outer =>
      change truncateDate outer v = truncateDate outer x
      change truncateDate inner v = truncateDate inner x at heq
      rw [← truncateDate_truncateDate h (hv outer rfl), heq, truncateDate_truncateDate h (hx outer rfl)]

theorem finer_refl (unit : Option DateUnit) : Finer unit unit := by
  cases unit with
  | none => trivial
  | some unit => exact Or.inl rfl

/-- Two dates that values of the one unit do not tell apart, and those of the other do. -/
def lookalikes : Option DateUnit → Option DateUnit → String × String
  | _, none => ("2025-01-01", "2025-1-1")
  | some .year, _ => ("2025-01-01", "2025-12-31")
  | some .month, _ => ("2025-01-01", "2025-01-31")
  | _, _ => ("2024-12-30", "2025-01-01")

theorem truncated_lookalikes (h : ¬Finer u w) :
    truncated u (.text (lookalikes u w).1) = truncated u (.text (lookalikes u w).2) ∧
    truncated w (.text (lookalikes u w).1) ≠ truncated w (.text (lookalikes u w).2) := by
  cases u with
  | none => exact absurd trivial h
  | some inner =>
    cases w with
    | none => cases inner <;> decide +kernel
    | some outer =>
      cases inner <;> cases outer <;> first | exact absurd (by decide) h | decide +kernel

theorem late_lookalikes (u w : Option DateUnit) :
    ((Value.text (lookalikes u w).1).date?.all fun d => Date.leastYear < d.year) = true ∧
    ((Value.text (lookalikes u w).2).date?.all fun d => Date.leastYear < d.year) = true := by
  fun_cases lookalikes u w <;> decide +kernel

theorem Value.reaches_of_late (h : (v.date?.all fun d => Date.leastYear < d.year) = true) (unit : DateUnit) :
    v.Reaches unit := by
  rw [reaches_iff]
  intro d hd hnone
  obtain ⟨-, hyear, -⟩ := (Date.startOf?_eq_none_iff (valid_of_date? hd)).1 hnone
  rw [hd] at h
  exact absurd hyear (Int.ne_of_gt (of_decide_eq_true h))

/-! ## Groups that are kept -/

namespace AggregationGroup

variable {k g : AggregationGroup} {r s : Record}

/-- The value that a group sorts a record by. -/
def valueOf (g : AggregationGroup) (r : Record) : Value := truncated g.unit (r.value g.field)

/-- A group tells all that the other tells: it is by the same field in spans that are no longer, or by a relation
behind which the other's field lies. -/
def Determines (k g : AggregationGroup) : Prop :=
  k.field = g.field ∧ Finer k.unit g.unit ∨
    ∃ rest, rest ≠ [] ∧ Path.hops g.field = Path.hops k.field ++ rest

theorem valueOf_congr (h : k.Determines g) (hr : ∀ unit ∈ g.unit, (r.value g.field).Reaches unit)
    (hs : ∀ unit ∈ g.unit, (s.value g.field).Reaches unit) (heq : k.valueOf r = k.valueOf s) :
    g.valueOf r = g.valueOf s := by
  unfold valueOf at heq ⊢
  rcases h with ⟨hfield, hfiner⟩ | ⟨rest, hrest, hhops⟩
  · rw [hfield] at heq
    exact truncated_congr hfiner hr hs heq
  · have hobject := congrArg Value.object? heq
    rw [object?_truncated, object?_truncated] at hobject
    have hbehind : ∀ t : Record, t.value g.field =
        (((t.value k.field).object?).bind fun nested => nested.valueAt? rest).getD .null := by
      intro t
      rw [Record.value, Record.value?, hhops, Record.valueAt?_append (Path.hops_ne_nil k.field) hrest]
      unfold Record.value Record.value?
      cases t.valueAt? (Path.hops k.field) <;> rfl
    rw [hbehind r, hbehind s, hobject]

end AggregationGroup

namespace Aggregation

variable {a : Aggregation} {records : List Record} {r s : Record} {k g : AggregationGroup} {field : String}

/-- The last group by a field. -/
def last? (a : Aggregation) (field : String) : Option AggregationGroup :=
  a.groups.reverse.find? fun g => g.field = field

/-- No later group is by the same field. -/
def Kept (a : Aggregation) (g : AggregationGroup) : Prop := a.last? g.field = some g

instance (a : Aggregation) (g : AggregationGroup) : Decidable (a.Kept g) := inferInstanceAs (Decidable (_ = _))

theorem mem_of_last? (h : a.last? field = some k) : k ∈ a.groups ∧ k.field = field :=
  ⟨List.mem_reverse.1 (List.mem_of_find?_eq_some h), by simpa using List.find?_some h⟩

theorem kept_of_last? (h : a.last? field = some k) : a.Kept k := by
  rw [Kept, (mem_of_last? h).2]
  exact h

/-- Every field that is grouped by has a group that is kept. -/
theorem exists_kept (h : g ∈ a.groups) : ∃ k, a.Kept k ∧ k.field = g.field := by
  cases hlast : a.last? g.field with
  | none => simpa using List.find?_eq_none.1 hlast g (List.mem_reverse.2 h)
  | some k => exact ⟨k, kept_of_last? hlast, (mem_of_last? hlast).2⟩

theorem Kept.eq_of_field (hk : a.Kept k) (hg : a.Kept g) (h : k.field = g.field) : k = g := by
  unfold Kept at hk hg
  rw [h, hg] at hk
  exact (Option.some.inj hk).symm

theorem get?_groupOf (a : Aggregation) (r : Record) (field : String) :
    (a.groupOf r).get? field = (a.last? field).map fun g => g.valueOf r := by
  have hfold : a.groupOf r =
      a.groups.reverse.foldr (fun g out => Entries.insert g.field (g.valueOf r) out) [] :=
    List.foldl_eq_foldr_reverse
  unfold last? Record.get?
  rw [hfold]
  generalize a.groups.reverse = groups
  induction groups with
  | nil => rfl
  | cons g groups ih =>
    rw [List.foldr_cons, Entries.get?_insert, List.find?_cons]
    by_cases hfield : g.field = field
    · simp [hfield]
    · simpa [hfield] using ih

theorem sorted_groupOf (a : Aggregation) (r : Record) : Entries.Sorted (a.groupOf r) :=
  Entries.sorted_foldl_insert a.groups AggregationGroup.field (fun g => g.valueOf r) Entries.sorted_nil

/-- Records are of one group when the groups that are kept agree on them. -/
theorem groupOf_eq_iff : a.groupOf r = a.groupOf s ↔ ∀ k, a.Kept k → k.valueOf r = k.valueOf s := by
  constructor
  · intro h k hk
    have hget : (a.groupOf r).get? k.field = (a.groupOf s).get? k.field := by rw [h]
    rw [get?_groupOf, get?_groupOf, hk] at hget
    exact Option.some.inj hget
  · intro h
    refine Entries.ext_get? (a.sorted_groupOf r) (a.sorted_groupOf s) fun field => ?_
    change (a.groupOf r).get? field = (a.groupOf s).get? field
    rw [get?_groupOf, get?_groupOf]
    cases hlast : a.last? field with
    | none => rfl
    | some k => exact congrArg some (h k (kept_of_last? hlast))

/-- The records are counted in the same row. -/
def SameRow (a : Aggregation) (records : List Record) (r s : Record) : Prop :=
  ∃ g ∈ a.groupsOf records, r ∈ g.2 ∧ s ∈ g.2

theorem sameRow_iff_groupOf (hr : r ∈ records) (hs : s ∈ records) :
    a.SameRow records r s ↔ a.groupOf r = a.groupOf s := by
  have h := a.grouped_groupsOf records
  constructor
  · rintro ⟨g, hg, hrg, hsg⟩
    rw [h.members g hg, mem_membersOf_iff] at hrg hsg
    exact hrg.2.trans hsg.2.symm
  · intro heq
    obtain ⟨g, hg, hgroup⟩ := List.mem_map.1 ((h.appears (a.groupOf r)).2 ⟨r, hr, rfl⟩)
    refine ⟨g, hg, ?_, ?_⟩
    · rw [h.members g hg]
      exact mem_membersOf_iff.2 ⟨hr, hgroup.symm⟩
    · rw [h.members g hg]
      exact mem_membersOf_iff.2 ⟨hs, heq.symm.trans hgroup.symm⟩

/-- Groups with one text are one group. -/
theorem textsApart (a : Aggregation) (records : List Record) : a.TextsApart records :=
  fun _ _ _ _ htexts => Value.object.inj (Value.compact_injective htexts)

/-- The groups that are kept tell what the group would. -/
def Recovers (a : Aggregation) (g : AggregationGroup) : Prop := ∃ k, a.Kept k ∧ k.Determines g

theorem valueOf_congr_of_recovers (h : a.overflows records = false) (hr : r ∈ records) (hs : s ∈ records)
    (hg : g ∈ a.groups) (hrecovers : a.Recovers g) (heq : a.groupOf r = a.groupOf s) :
    g.valueOf r = g.valueOf s := by
  obtain ⟨k, hk, hdetermines⟩ := hrecovers
  have hreaches := overflows_eq_false_iff.1 h
  exact AggregationGroup.valueOf_congr hdetermines (hreaches r hr g hg) (hreaches s hs g hg)
    (groupOf_eq_iff.1 heq k hk)

/-- The record with a text under the field of a group and nothing else. -/
def alone (g : AggregationGroup) (text : String) : Record := .holding (.text text) (Path.hops g.field)

theorem value_alone (g : AggregationGroup) (text : String) : (alone g text).value g.field = .text text :=
  Record.value_holding _ _

section

variable (hlost : ¬a.Recovers g)
include hlost

/-- The field of a group that is lost does not lie behind another one. -/
theorem value_alone_of_ne {other : AggregationGroup} (hother : other ∈ a.groups) (hne : other.field ≠ g.field)
    (text : String) : (alone g text).value other.field = .null := by
  refine Record.value_holding_of_ne rfl hne fun rest hrest hhops => ?_
  obtain ⟨l, hl, hfield⟩ := exists_kept hother
  exact hlost ⟨l, hl, Or.inr ⟨rest, hrest, hfield ▸ hhops⟩⟩

theorem reaches_alone {text : String} (hlate : ((Value.text text).date?.all fun d => Date.leastYear < d.year) = true)
    {other : AggregationGroup} (hother : other ∈ a.groups) (unit : DateUnit) :
    ((alone g text).value other.field).Reaches unit := by
  by_cases hsame : other.field = g.field
  · rw [hsame, value_alone]
    exact Value.reaches_of_late hlate unit
  · rw [value_alone_of_ne hlost hother hsame]
    exact Value.reaches_of_late rfl unit

/-- Where a group is lost, two records are of one group although they have different values for it. -/
theorem exists_apart (hg : g ∈ a.groups) :
    ∃ r s, a.overflows [r, s] = false ∧ a.groupOf r = a.groupOf s ∧ g.valueOf r ≠ g.valueOf s := by
  obtain ⟨k, hk, hfield⟩ := exists_kept hg
  have hfiner : ¬Finer k.unit g.unit := fun hfiner => hlost ⟨k, hk, Or.inl ⟨hfield, hfiner⟩⟩
  obtain ⟨halike, hapart⟩ := truncated_lookalikes hfiner
  obtain ⟨hlate, hlater⟩ := late_lookalikes k.unit g.unit
  refine ⟨alone g (lookalikes k.unit g.unit).1, alone g (lookalikes k.unit g.unit).2, ?_, ?_, ?_⟩
  · rw [overflows_eq_false_iff]
    intro r hr other hother unit _
    rcases List.mem_pair.1 hr with rfl | rfl
    · exact reaches_alone hlost hlate hother unit
    · exact reaches_alone hlost hlater hother unit
  · refine groupOf_eq_iff.2 fun l hl => ?_
    unfold AggregationGroup.valueOf
    by_cases hsame : l.field = g.field
    · obtain rfl := hl.eq_of_field hk (hsame.trans hfield.symm)
      rw [hsame, value_alone, value_alone]
      exact halike
    · have hmem := (mem_of_last? hl).1
      rw [value_alone_of_ne hlost hmem hsame, value_alone_of_ne hlost hmem hsame]
  · unfold AggregationGroup.valueOf
    rw [value_alone, value_alone]
    exact hapart

end

/-- Fields that are grouped by once are all kept. -/
theorem recovers_of_nodup (h : (a.groups.map AggregationGroup.field).Nodup) (hg : g ∈ a.groups) :
    a.Recovers g := by
  obtain ⟨k, hk, hfield⟩ := exists_kept hg
  obtain rfl := List.inj_on_of_nodup_map h (mem_of_last? hk).1 hg hfield
  exact ⟨k, hk, Or.inl ⟨rfl, finer_refl k.unit⟩⟩

/-- Two records are counted in the same row exactly when they have the same value for each group that is kept, the
last one by its field, also where the groups stand under their texts. This is so for every group of an aggregation,
whatever the records, exactly when the kept groups determine those that are lost. -/
theorem sameRow_iff (a : Aggregation) :
    (∀ records, ∀ r ∈ records, ∀ s ∈ records,
      (a.SameRow records r s ↔ ∀ k, a.Kept k → k.valueOf r = k.valueOf s)) ∧
    (∀ records limit, a.applyByText records limit = a.apply records limit) ∧
    ((∀ records rows, a.rows? records none = some rows → ∀ r ∈ records, ∀ s ∈ records,
        (a.SameRow records r s ↔ ∀ g ∈ a.groups, g.valueOf r = g.valueOf s)) ↔
      ∀ g ∈ a.groups, a.Recovers g) := by
  have hkept : ∀ records, ∀ r ∈ records, ∀ s ∈ records,
      (a.SameRow records r s ↔ ∀ k, a.Kept k → k.valueOf r = k.valueOf s) :=
    fun records r hr s hs => (sameRow_iff_groupOf hr hs).trans groupOf_eq_iff
  refine ⟨hkept, fun records limit => applyByText_eq (a.textsApart records) limit, ?_, ?_⟩
  · intro h g hg
    by_contra hlost
    obtain ⟨r, s, hoverflows, hgroup, hne⟩ := exists_apart hlost hg
    have hr : r ∈ [r, s] := List.mem_cons_self
    have hs : s ∈ [r, s] := List.mem_cons_of_mem r (List.mem_singleton_self s)
    have hlaw := h _ _ (rows?_eq_some_iff.2 ⟨hoverflows, rfl⟩) r hr s hs
    exact hne (hlaw.1 ((sameRow_iff_groupOf hr hs).2 hgroup) g hg)
  · intro h records rows hrows r hr s hs
    obtain ⟨hoverflows, -⟩ := rows?_eq_some_iff.1 hrows
    constructor
    · intro hsame g hg
      exact valueOf_congr_of_recovers hoverflows hr hs hg (h g hg) ((sameRow_iff_groupOf hr hs).1 hsame)
    · intro hall
      exact (hkept records r hr s hs).2 fun k hk => hall k (mem_of_last? hk).1

end Aggregation

namespace Visits

def byMonthAndYear : Aggregation :=
  (Aggregation.count.groupBy "day" (some .month)).groupBy "day" (some .year)

def visits : List Record := [[("day", .text "2025-01-15")], [("day", .text "2025-02-15")]]

/-- The months are lost to the years. -/
theorem not_sameRow_iff_months :
    byMonthAndYear.rows? visits none = some [⟨.nat 2, [("day", .text "2025-01-01")]⟩] ∧
    ¬∀ r ∈ visits, ∀ s ∈ visits,
      (byMonthAndYear.SameRow visits r s ↔ ∀ g ∈ byMonthAndYear.groups, g.valueOf r = g.valueOf s) := by
  unfold Aggregation.SameRow
  decide +kernel

/-- The other way round nothing is lost: the months tell the years. -/
example : ∀ g ∈ [AggregationGroup.mk "day" (some .year), ⟨"day", some .month⟩],
    Aggregation.Recovers ⟨.count, none, [⟨"day", some .year⟩, ⟨"day", some .month⟩]⟩ g := by
  have hkept : Aggregation.Kept ⟨.count, none, [⟨"day", some .year⟩, ⟨"day", some .month⟩]⟩
      ⟨"day", some .month⟩ := by decide
  intro g hg
  refine ⟨⟨"day", some .month⟩, hkept, Or.inl ?_⟩
  revert g
  decide

end Visits

end QueryLayer
