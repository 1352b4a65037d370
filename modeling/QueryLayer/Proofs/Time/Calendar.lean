import Mathlib.Tactic.ByContra
import QueryLayer.Time.Date

/-! # The calendar

The days are numbered without a gap, in the order of their dates: `Date.number_previous` and
`Date.number_le_iff`. From this come the first days of years, months and weeks: `Date.isFirst_start` says which
day `start` is, `Date.start_le_start` that it keeps the order of dates, and `Date.startOf?_eq_none_iff` which
dates have a Monday before the first date.
-/
namespace QueryLayer.Date

variable {d e first : Date} {unit : DateUnit} {year other : Int} {month next : Nat}

/-- The month and the day exist, in whatever year. -/
structure Proper (d : Date) : Prop where
  month_pos : 1 ≤ d.month
  month_le : d.month ≤ 12
  day_pos : 1 ≤ d.day
  day_le : d.day ≤ daysInMonth d.year d.month

theorem valid_iff : d.Valid ↔ leastYear ≤ d.year ∧ d.year ≤ greatestYear ∧ d.Proper := by
  constructor
  · exact fun ⟨hleast, hgreatest, hmonth, hmonths, hday, hdays⟩ =>
      ⟨hleast, hgreatest, hmonth, hmonths, hday, hdays⟩
  · exact fun ⟨hleast, hgreatest, h⟩ => ⟨hleast, hgreatest, h.month_pos, h.month_le, h.day_pos, h.day_le⟩

theorem Valid.proper (h : d.Valid) : d.Proper := (valid_iff.1 h).2.2

/-- By year, month and day. -/
instance : LE Date := ⟨fun d e =>
  d.year < e.year ∨ d.year = e.year ∧ (d.month < e.month ∨ d.month = e.month ∧ d.day ≤ e.day)⟩

theorem le_def : d ≤ e ↔
    d.year < e.year ∨ d.year = e.year ∧ (d.month < e.month ∨ d.month = e.month ∧ d.day ≤ e.day) := Iff.rfl

theorem le_antisymm (hde : d ≤ e) (hed : e ≤ d) : d = e := by
  obtain ⟨year, month, day⟩ := d
  obtain ⟨year', month', day'⟩ := e
  simp only [le_def] at hde hed
  simp only [mk.injEq]
  omega

/-! ## Years and months -/

def daysInYear (year : Int) : Nat := if isLeap year then 366 else 365

theorem isLeap_iff : isLeap year = true ↔ year % 4 = 0 ∧ (year % 100 ≠ 0 ∨ year % 400 = 0) := by
  simp [isLeap]

theorem daysBeforeYear_succ (year : Int) : daysBeforeYear (year + 1) = daysBeforeYear year + daysInYear year := by
  unfold daysBeforeYear daysInYear
  simp only [isLeap_iff]
  split <;> omega

theorem daysBeforeYear_le (h : year ≤ other) : daysBeforeYear year ≤ daysBeforeYear other := by
  unfold daysBeforeYear
  dsimp only
  omega

theorem one_le_daysInMonth (year : Int) (month : Nat) : 1 ≤ daysInMonth year month := by
  unfold daysInMonth
  split
  · split <;> decide
  all_goals decide

theorem daysInMonth_le (year : Int) (month : Nat) : daysInMonth year month ≤ 31 := by
  unfold daysInMonth
  split
  · split <;> decide
  all_goals decide

theorem daysBeforeMonth_succ (year : Int) (h : 1 ≤ month) :
    daysBeforeMonth year (month + 1) = daysBeforeMonth year month + daysInMonth year month := by
  cases month with
  | zero => omega
  | succ month => rfl

/-- The months make the year. -/
theorem daysBeforeMonth_end (year : Int) : daysBeforeMonth year 13 = daysInYear year := by
  simp only [daysBeforeMonth, daysInMonth, daysInYear]
  split <;> rfl

theorem daysBeforeMonth_le (h : month ≤ next) : daysBeforeMonth year month ≤ daysBeforeMonth year next := by
  induction h with
  | refl => exact Nat.le_refl _
  | @step next hle ih =>
    rcases Nat.eq_zero_or_pos next with rfl | hpos
    · exact ih
    · rw [daysBeforeMonth_succ year hpos]
      omega

/-- A month ends before a later one begins. -/
theorem daysBeforeMonth_add_le (year : Int) (hpos : 1 ≤ month) (h : month < next) :
    daysBeforeMonth year month + daysInMonth year month ≤ daysBeforeMonth year next := by
  rw [← daysBeforeMonth_succ year hpos]
  exact daysBeforeMonth_le h

theorem Proper.day_of_year_le (h : d.Proper) : daysBeforeMonth d.year d.month + d.day ≤ daysInYear d.year := by
  have hmonths : d.month < 13 := Nat.lt_succ_of_le h.month_le
  have hmonth := daysBeforeMonth_add_le d.year h.month_pos hmonths
  have hend := daysBeforeMonth_end d.year
  have hday := h.day_le
  omega

/-! ## Numbers of days -/

theorem number_lt_of_not_le (hd : d.Proper) (he : e.Proper) (h : ¬d ≤ e) : e.number < d.number := by
  rw [le_def] at h
  have hday := hd.day_pos
  unfold number
  rcases Int.lt_trichotomy e.year d.year with hyear | hyear | hyear
  · -- the year of `e` ends before that of `d` begins
    have hend := he.day_of_year_le
    have hnext := daysBeforeYear_succ e.year
    have hbegin := daysBeforeYear_le (Int.add_one_le_of_lt hyear)
    omega
  · rw [hyear]
    rcases Nat.lt_trichotomy e.month d.month with hmonth | hmonth | hmonth
    · have hend := daysBeforeMonth_add_le d.year he.month_pos hmonth
      have hlast := he.day_le
      rw [hyear] at hlast
      omega
    · rw [hmonth]
      omega
    · omega
  · omega

/-- Dates are in the order of their numbers. -/
theorem number_le_iff (hd : d.Proper) (he : e.Proper) : d.number ≤ e.number ↔ d ≤ e := by
  constructor
  · intro h
    by_contra hnot
    have hlt := number_lt_of_not_le hd he hnot
    omega
  · intro h
    by_cases hback : e ≤ d
    · exact Int.le_of_eq (congrArg number (le_antisymm h hback))
    · exact Int.le_of_lt (number_lt_of_not_le he hd hback)

theorem eq_of_number_eq (hd : d.Proper) (he : e.Proper) (h : d.number = e.number) : d = e :=
  le_antisymm ((number_le_iff hd he).1 (Int.le_of_eq h)) ((number_le_iff he hd).1 (Int.le_of_eq h.symm))

/-- The day before is a date, and its number is one less. -/
theorem number_previous (h : d.Proper) : d.previous.Proper ∧ d.previous.number = d.number - 1 := by
  have hmonth := h.month_pos
  have hmonths := h.month_le
  have hday := h.day_pos
  have hlast := h.day_le
  unfold previous
  split
  · refine ⟨⟨hmonth, hmonths, ?_, ?_⟩, ?_⟩
    · dsimp only
      omega
    · dsimp only
      omega
    · unfold number
      dsimp only
      omega
  · split
    · next hfirst =>
      have hbefore : 1 ≤ d.month - 1 := by omega
      have hsucc := daysBeforeMonth_succ d.year hbefore
      rw [Nat.sub_add_cancel hmonth] at hsucc
      refine ⟨⟨?_, ?_, one_le_daysInMonth _ _, Nat.le_refl _⟩, ?_⟩
      · dsimp only
        omega
      · dsimp only
        omega
      · unfold number
        dsimp only
        omega
    · next hfirst =>
      have hyear := daysBeforeYear_succ (d.year - 1)
      have hend := daysBeforeMonth_end (d.year - 1)
      have hdecember : daysInMonth (d.year - 1) 12 = 31 := rfl
      have hsucc : daysBeforeMonth (d.year - 1) 13 = daysBeforeMonth (d.year - 1) 12 + 31 :=
        daysBeforeMonth_succ (d.year - 1) (by decide)
      have hjanuary : daysBeforeMonth d.year 1 = 0 := rfl
      have hone : d.month = 1 := by omega
      rw [Int.sub_add_cancel] at hyear
      refine ⟨⟨Nat.le_add_left 1 11, Nat.le_refl 12, Nat.le_add_left 1 30, Nat.le_of_eq hdecember.symm⟩, ?_⟩
      unfold number
      rw [hone, hjanuary]
      dsimp only
      omega

theorem number_back (h : d.Proper) (n : Nat) : (back n d).Proper ∧ (back n d).number = d.number - n := by
  induction n generalizing d with
  | zero => exact ⟨h, by simp [back]⟩
  | succ n ih =>
    obtain ⟨hprevious, hnumber⟩ := number_previous h
    obtain ⟨hproper, hback⟩ := ih hprevious
    refine ⟨hproper, ?_⟩
    rw [back, hback, hnumber]
    omega

/-! ## Years, months and weeks that hold a date -/

/-- The dates are of one year, month, week from a Monday on, or day. The first Monday has the number 1. -/
def SameSpan (unit : DateUnit) (d e : Date) : Prop :=
  match unit with
  | .year => d.year = e.year
  | .month => d.year = e.year ∧ d.month = e.month
  | .week => (d.number - 1) / 7 = (e.number - 1) / 7
  | .day => d = e

/-- A date is the first one of the span that holds `d`. -/
structure IsFirst (unit : DateUnit) (d first : Date) : Prop where
  proper : first.Proper
  same : SameSpan unit d first
  least : ∀ e : Date, e.Proper → SameSpan unit d e → first ≤ e

theorem IsFirst.unique (h : IsFirst unit d first) (h' : IsFirst unit d e) : first = e :=
  le_antisymm (h.least e h'.proper h'.same) (h'.least first h.proper h.same)

/-- The first day of the span that holds a date, in range or not. -/
def start (unit : DateUnit) (d : Date) : Date :=
  match unit with
  | .year => ⟨d.year, 1, 1⟩
  | .month => ⟨d.year, d.month, 1⟩
  | .week => back d.weekday d
  | .day => d

theorem number_monday (h : d.Proper) : (start .week d).Proper ∧
    (start .week d).number = 7 * ((d.number - 1) / 7) + 1 := by
  obtain ⟨hproper, hnumber⟩ := number_back h d.weekday
  refine ⟨hproper, ?_⟩
  unfold start
  dsimp only
  rw [hnumber]
  unfold weekday
  omega

theorem isFirst_start (unit : DateUnit) (h : d.Proper) : IsFirst unit d (start unit d) := by
  have hdays := Nat.le_trans h.day_pos h.day_le
  cases unit with
  | year =>
    refine ⟨⟨Nat.le_refl 1, Nat.le_add_left 1 11, Nat.le_refl 1, one_le_daysInMonth _ _⟩, rfl, fun e he hsame => ?_⟩
    have hmonth := he.month_pos
    have hday := he.day_pos
    change d.year = e.year at hsame
    rw [le_def]
    dsimp only [start]
    omega
  | month =>
    refine ⟨⟨h.month_pos, h.month_le, Nat.le_refl 1, hdays⟩, ⟨rfl, rfl⟩, fun e he hsame => ?_⟩
    have hday := he.day_pos
    change d.year = e.year ∧ d.month = e.month at hsame
    rw [le_def]
    dsimp only [start]
    omega
  | week =>
    obtain ⟨hproper, hnumber⟩ := number_monday h
    refine ⟨hproper, ?_, fun e he hsame => ?_⟩
    · change (d.number - 1) / 7 = ((start .week d).number - 1) / 7
      omega
    · change (d.number - 1) / 7 = (e.number - 1) / 7 at hsame
      rw [← number_le_iff hproper he]
      omega
  | day =>
    refine ⟨h, rfl, fun e he hsame => ?_⟩
    obtain rfl : d = e := hsame
    exact (number_le_iff h h).1 (Int.le_refl _)

/-- A later date is in the same span or in a later one. -/
theorem start_le_start (unit : DateUnit) (hd : d.Proper) (he : e.Proper) (h : d ≤ e) :
    start unit d ≤ start unit e := by
  cases unit with
  | year =>
    rw [le_def] at h ⊢
    dsimp only [start]
    omega
  | month =>
    rw [le_def] at h ⊢
    dsimp only [start]
    omega
  | week =>
    obtain ⟨hdproper, hdnumber⟩ := number_monday hd
    obtain ⟨heproper, henumber⟩ := number_monday he
    have hle := (number_le_iff hd he).2 h
    rw [← number_le_iff hdproper heproper]
    omega
  | day => exact h

/-- Dates of one span have one first day. -/
theorem start_congr (hd : d.Proper) (he : e.Proper) (h : SameSpan unit d e) : start unit d = start unit e := by
  cases unit with
  | year =>
    change d.year = e.year at h
    unfold start
    rw [h]
  | month =>
    obtain ⟨hyear, hmonth⟩ : d.year = e.year ∧ d.month = e.month := h
    unfold start
    rw [hyear, hmonth]
  | week =>
    obtain ⟨hdproper, hdnumber⟩ := number_monday hd
    obtain ⟨heproper, henumber⟩ := number_monday he
    change (d.number - 1) / 7 = (e.number - 1) / 7 at h
    exact eq_of_number_eq hdproper heproper (by omega)
  | day => exact h

theorem sameSpan_refl (unit : DateUnit) (d : Date) : SameSpan unit d d := by
  cases unit with
  | year => rfl
  | month => exact ⟨rfl, rfl⟩
  | week => rfl
  | day => rfl

/-- Every span of the one unit lies in a span of the other. -/
def Within (inner outer : DateUnit) : Prop := inner = outer ∨ inner = .day ∨ inner = .month ∧ outer = .year

instance (inner outer : DateUnit) : Decidable (Within inner outer) := inferInstanceAs (Decidable (_ ∨ _))

/-- A span begins where the span begins that holds the first day of a span within it. -/
theorem start_start {inner outer : DateUnit} (hwithin : Within inner outer) (h : d.Proper) :
    start outer (start inner d) = start outer d := by
  have hfirst := isFirst_start inner h
  have hsame : SameSpan outer d (start inner d) := by
    rcases hwithin with rfl | rfl | ⟨rfl, rfl⟩
    · exact hfirst.same
    · exact sameSpan_refl outer d
    · exact hfirst.same.1
  exact (start_congr h hfirst.proper hsame).symm

theorem start_le (unit : DateUnit) (h : d.Proper) : start unit d ≤ d :=
  (isFirst_start unit h).least d h (sameSpan_refl unit d)

/-! ## Dates in range -/

/-- The first day of the first year, a Thursday. -/
def least : Date := ⟨leastYear, 1, 1⟩

theorem proper_least : least.Proper := ⟨by decide, by decide, by decide, by decide⟩

theorem least_le_iff (h : d.Proper) : least ≤ d ↔ leastYear ≤ d.year := by
  have hmonth := h.month_pos
  have hday := h.day_pos
  rw [le_def]
  dsimp only [least]
  omega

theorem valid_of_le (hd : d.Proper) (he : e.Valid) (hleast : leastYear ≤ d.year) (h : d ≤ e) : d.Valid := by
  obtain ⟨-, hgreatest, -⟩ := valid_iff.1 he
  rw [le_def] at h
  exact valid_iff.2 ⟨hleast, by omega, hd⟩

theorem valid_start_iff (unit : DateUnit) (h : d.Valid) :
    (start unit d).Valid ↔ leastYear ≤ (start unit d).year :=
  ⟨fun hvalid => (valid_iff.1 hvalid).1,
    fun hleast => valid_of_le (isFirst_start unit h.proper).proper h hleast (start_le unit h.proper)⟩

/-- The search for the first day finds it where it is in range. -/
theorem startOf?_eq (unit : DateUnit) (h : d.Valid) :
    startOf? unit d = if (start unit d).Valid then some (start unit d) else none := by
  obtain ⟨hleast, -, -⟩ := valid_iff.1 h
  have hin : ∀ unit, (start unit d).year = d.year → (start unit d).Valid :=
    fun unit hyear => (valid_start_iff unit h).2 (hyear ▸ hleast)
  cases unit with
  | year => exact (if_pos (hin .year rfl)).symm
  | month => exact (if_pos (hin .month rfl)).symm
  | week => rfl
  | day => exact (if_pos (hin .day rfl)).symm

theorem startOf?_eq_some_iff (h : d.Valid) : startOf? unit d = some first ↔ IsFirst unit d first ∧ first.Valid := by
  have hstart := isFirst_start unit h.proper
  rw [startOf?_eq unit h, Option.ite_none_right_eq_some]
  constructor
  · rintro ⟨hvalid, heq⟩
    obtain rfl := Option.some.inj heq
    exact ⟨hstart, hvalid⟩
  · rintro ⟨hfirst, hvalid⟩
    obtain rfl := hstart.unique hfirst
    exact ⟨hvalid, rfl⟩

/-- One of the days of the first year before its first Monday. -/
def Early (d : Date) : Prop := d.year = leastYear ∧ d.month = 1 ∧ d.day ≤ 4

/-- Only the weeks of the days before the first Monday begin out of range. -/
theorem startOf?_eq_none_iff (h : d.Valid) : startOf? unit d = none ↔ unit = .week ∧ d.Early := by
  obtain ⟨hleast, -, hproper⟩ := valid_iff.1 h
  rw [startOf?_eq unit h, ite_eq_right_iff]
  simp only [reduceCtorEq, imp_false]
  rw [valid_start_iff unit h]
  cases unit with
  | week =>
    obtain ⟨hmonday, hnumber⟩ := number_monday hproper
    let sunday : Date := ⟨leastYear, 1, 4⟩
    have hsunday : sunday.Proper := ⟨by decide, by decide, by decide, by decide⟩
    have hnumbers : least.number = -95746129 ∧ sunday.number = -95746126 := by decide
    have hbefore : d ≤ sunday ↔ d.Early := by
      have hmonth := hproper.month_pos
      rw [le_def]
      dsimp only [sunday, Early]
      omega
    have hfirst := (number_le_iff proper_least hproper).2 ((least_le_iff hproper).2 hleast)
    rw [← least_le_iff hmonday, ← number_le_iff proper_least hmonday, ← hbefore,
      ← number_le_iff hproper hsunday, eq_self, true_and]
    omega
  | _ => simpa [start] using hleast

end QueryLayer.Date
