import QueryLayer.Proofs.Time.Reading
import QueryLayer.Query.Aggregation

/-! # Dates taken to the start of a span

A value with a date becomes the text of the first day of its year, month, week or day, as long as that day is in
range. The text is read back, so that the law for two spans of which one lies in the other is the one of the
calendar: `truncateDate_truncateDate`. Main statements: `truncateDate_spec`, and
`Aggregation.rows?_eq_none_iff` on the dates that are too early for the Monday of their week.
-/
namespace QueryLayer

variable {unit inner outer : DateUnit} {v w : Value} {d e : Date}

namespace Value

theorem valid_of_date? (h : v.date? = some d) : d.Valid := by
  cases v with
  | text s => exact Time.valid_of_dateOfText? h
  | _ => exact nomatch h

theorem date?_text (h : d.Valid) : (text d.text).date? = some d := Time.dateOfText?_text h

/-- The span that holds the date of a value begins in range. -/
def Reaches (unit : DateUnit) (v : Value) : Prop :=
  ∀ d, v.date? = some d → ∀ first, Date.IsFirst unit d first → Date.leastYear ≤ first.year

/-- The first day that is meant is in range. -/
theorem Reaches.valid_start (h : v.Reaches unit) (hd : v.date? = some d) : (Date.start unit d).Valid :=
  have hvalid := valid_of_date? hd
  (Date.valid_start_iff unit hvalid).2 (h d hd _ (Date.isFirst_start unit hvalid.proper))

theorem reaches_iff : v.Reaches unit ↔ ∀ d, v.date? = some d → Date.startOf? unit d ≠ none := by
  constructor
  · intro h d hd
    rw [Date.startOf?_eq unit (valid_of_date? hd), if_pos (h.valid_start hd)]
    exact Option.some_ne_none _
  · intro h d hd first hfirst
    have hvalid := valid_of_date? hd
    obtain ⟨found, hfound⟩ := Option.ne_none_iff_exists'.1 (h d hd)
    obtain ⟨hstart, hin⟩ := (Date.startOf?_eq_some_iff hvalid).1 hfound
    obtain rfl := hstart.unique hfirst
    exact (Date.valid_iff.1 hin).1

/-- Only weeks can begin before the first date. -/
theorem reaches_of_ne_week (h : unit ≠ .week) (v : Value) : v.Reaches unit :=
  reaches_iff.2 fun _ hd hnone => h ((Date.startOf?_eq_none_iff (valid_of_date? hd)).1 hnone).1

theorem Reaches.within (h : v.Reaches outer) (hwithin : Date.Within inner outer) : v.Reaches inner := by
  rcases hwithin with rfl | rfl | ⟨rfl, -⟩
  · exact h
  · exact reaches_of_ne_week (by decide) v
  · exact reaches_of_ne_week (by decide) v

end Value

theorem truncateDate_of_none (h : v.date? = none) (unit : DateUnit) : truncateDate unit v = v := by
  cases v with
  | text s =>
    change Time.dateOfText? s = none at h
    unfold truncateDate
    dsimp only
    rw [h]
    rfl
  | _ => rfl

theorem truncateDate_of_some (h : v.date? = some d) (hreach : v.Reaches unit) :
    truncateDate unit v = .text (Date.start unit d).text := by
  cases v with
  | text s =>
    have hstart : Date.startOf? unit d = some (Date.start unit d) := by
      rw [Date.startOf?_eq unit (Value.valid_of_date? h), if_pos (hreach.valid_start h)]
    change Time.dateOfText? s = some d at h
    unfold truncateDate
    dsimp only
    rw [h, Option.bind_some, hstart]
  | _ => exact nomatch h

/-- The date of a value that was taken to a start is the start. -/
theorem date?_truncateDate (h : v.date? = some d) (hreach : v.Reaches unit) :
    (truncateDate unit v).date? = some (Date.start unit d) := by
  rw [truncateDate_of_some h hreach]
  exact Value.date?_text (hreach.valid_start h)

/-- To the start of a span and then to the start of one that it lies in is to the latter at once. -/
theorem truncateDate_truncateDate (hwithin : Date.Within inner outer) (h : v.Reaches outer) :
    truncateDate outer (truncateDate inner v) = truncateDate outer v := by
  cases hd : v.date? with
  | none => rw [truncateDate_of_none hd inner]
  | some d =>
    have hvalid := Value.valid_of_date? hd
    have hinner := date?_truncateDate hd (h.within hwithin)
    have hstart := Date.start_start hwithin hvalid.proper
    have hreach : (truncateDate inner v).Reaches outer := by
      rintro e he first hfirst
      obtain rfl : Date.start inner d = e := Option.some.inj (hinner.symm.trans he)
      obtain rfl := (Date.isFirst_start outer (Value.valid_of_date? he).proper).unique hfirst
      rw [hstart]
      exact (Date.valid_iff.1 (h.valid_start hd)).1
    rw [truncateDate_of_some hinner hreach, truncateDate_of_some hd h, hstart]

/-- A value with a date becomes the text of the first day of its span, which reads as that day; any other value is
left alone. A second time changes nothing, nor does going to the day first, and a later date does not become an
earlier one. -/
theorem truncateDate_spec (h : v.Reaches unit) :
    (∀ d, v.date? = some d → ∃ first, Date.IsFirst unit d first ∧ truncateDate unit v = .text first.text ∧
      (truncateDate unit v).date? = some first) ∧
    (v.date? = none → truncateDate unit v = v) ∧
    truncateDate unit (truncateDate unit v) = truncateDate unit v ∧
    truncateDate unit (truncateDate .day v) = truncateDate unit v ∧
    ∀ w : Value, w.Reaches unit → ∀ d e, v.date? = some d → w.date? = some e → d ≤ e →
      ∃ first later, (truncateDate unit v).date? = some first ∧ (truncateDate unit w).date? = some later ∧
        first ≤ later := by
  refine ⟨fun d hd => ?_, fun hnone => truncateDate_of_none hnone unit, ?_, ?_, fun w hw d e hd he hle => ?_⟩
  · exact ⟨Date.start unit d, Date.isFirst_start unit (Value.valid_of_date? hd).proper,
      truncateDate_of_some hd h, date?_truncateDate hd h⟩
  · exact truncateDate_truncateDate (Or.inl rfl) h
  · exact truncateDate_truncateDate (Or.inr (Or.inl rfl)) h
  · have hproper := (Value.valid_of_date? hd).proper
    have hproper' := (Value.valid_of_date? he).proper
    exact ⟨_, _, date?_truncateDate hd h, date?_truncateDate he hw, Date.start_le_start unit hproper hproper' hle⟩

theorem truncateDate_spec_sunday : (Value.text "1965-08-01T23:30:00-08:00").Reaches .week ∧
    (∃ monday, Date.IsFirst .week ⟨1965, 8, 1⟩ monday ∧
      truncateDate .week (.text "1965-08-01T23:30:00-08:00") = .text monday.text ∧
      (truncateDate .week (.text "1965-08-01T23:30:00-08:00")).date? = some monday) ∧
    truncateDate .week (truncateDate .week (.text "1965-08-01T23:30:00-08:00")) =
      truncateDate .week (.text "1965-08-01T23:30:00-08:00") := by
  have hdate : (Value.text "1965-08-01T23:30:00-08:00").date? = some ⟨1965, 8, 1⟩ := by decide +kernel
  have hreach : (Value.text "1965-08-01T23:30:00-08:00").Reaches .week := by
    refine Value.reaches_iff.2 fun d hd => ?_
    obtain rfl : ⟨1965, 8, 1⟩ = d := Option.some.inj (hdate.symm.trans hd)
    decide
  obtain ⟨hfirst, -, hagain, -⟩ := truncateDate_spec hreach
  exact ⟨hreach, hfirst _ hdate, hagain⟩

/-! ## Dates that are too early -/

namespace Value

theorem overflow_iff (unit : DateUnit) (v : Value) : (∃ d, v.date? = some d ∧ Date.startOf? unit d = none) ↔
    unit = .week ∧ ∃ d, v.date? = some d ∧ d.Early := by
  constructor
  · rintro ⟨d, hd, hnone⟩
    obtain ⟨hweek, hearly⟩ := (Date.startOf?_eq_none_iff (valid_of_date? hd)).1 hnone
    exact ⟨hweek, d, hd, hearly⟩
  · rintro ⟨hweek, d, hd, hearly⟩
    exact ⟨d, hd, (Date.startOf?_eq_none_iff (valid_of_date? hd)).2 ⟨hweek, hearly⟩⟩

end Value

namespace Aggregation

variable {a : Aggregation} {records : List Record} {limit : Option Nat}

theorem overflows_iff : a.overflows records = true ↔
    ∃ r ∈ records, ∃ g ∈ a.groups, g.unit = some .week ∧ ∃ d, (r.value g.field).date? = some d ∧ d.Early := by
  simp only [overflows, List.any_eq_true, Option.any_eq_true, Option.isNone_iff_eq_none, Value.overflow_iff]
  refine exists_congr fun r => and_congr_right fun _ => exists_congr fun g => and_congr_right fun _ => ?_
  constructor
  · rintro ⟨unit, hunit, rfl, hearly⟩
    exact ⟨hunit, hearly⟩
  · rintro ⟨hunit, hearly⟩
    exact ⟨.week, hunit, rfl, hearly⟩

theorem overflows_eq_false_iff : a.overflows records = false ↔
    ∀ r ∈ records, ∀ g ∈ a.groups, ∀ unit ∈ g.unit, (r.value g.field).Reaches unit := by
  simp only [overflows, List.any_eq_false, Bool.not_eq_true, Option.any_eq_false, Option.isNone_eq_false_iff,
    Option.isSome_iff_ne_none, Value.reaches_iff, Option.mem_def]

theorem rows?_eq_some_iff {rows : List AggregateRow} :
    a.rows? records limit = some rows ↔ a.overflows records = false ∧ a.apply records limit = rows := by
  unfold rows?
  cases a.overflows records <;> simp

/-- The search for the first day of the span of a date fails for the weeks of the first four dates only, and an
aggregation has no rows exactly when it groups such a date by its week. -/
theorem rows?_eq_none_iff (a : Aggregation) (records : List Record) (limit : Option Nat) :
    (∀ unit s, (∃ d, Time.dateOfText? s = some d ∧ Date.startOf? unit d = none) ↔
      unit = .week ∧ ∃ d, Time.dateOfText? s = some d ∧ d.Early) ∧
    (a.rows? records limit = none ↔ ∃ r ∈ records, ∃ g ∈ a.groups,
      g.unit = some .week ∧ ∃ d, (r.value g.field).date? = some d ∧ d.Early) := by
  refine ⟨fun unit s => Value.overflow_iff unit (.text s), ?_⟩
  rw [← overflows_iff, rows?]
  simp

/-- A week that is asked for at the beginning of the calendar. -/
theorem rows?_overflow : Time.dateOfText? "-262143-01-01" = some ⟨-262143, 1, 1⟩ ∧
    Date.startOf? .week ⟨-262143, 1, 1⟩ = none ∧
    (Aggregation.count.groupBy "day" (some .week)).rows? [[("day", .text "-262143-01-01")]] none = none := by
  decide +kernel

end Aggregation

end QueryLayer
