import QueryLayer.Proofs.Number.Rounding

/-! # Shortest decimals read back

A decimal that a place admits is rounded to it, whatever its digits. The shortest one is chosen among these, and
seventeen digits are enough for there to be one: `Binary64.ofDecimal?_shortest`.
-/
namespace QueryLayer.Binary64

variable {num den place n : Nat} {i : Interval} {d : Decimal} {shift : Int}

namespace Decimal

/-- The decimal as a quotient. -/
def numerator (d : Decimal) : Nat := d.digits * 10 ^ d.exponent.toNat

def denominator (d : Decimal) : Nat := 10 ^ (-d.exponent).toNat

theorem denominator_pos (d : Decimal) : 0 < d.denominator := Nat.pow_pos (by decide)

/-- Zeros at the end of the digits stand for powers of ten. -/
theorem quotient_shift (digits k : Nat) (exponent : Int) :
    numerator ⟨digits * 10 ^ k, exponent⟩ * denominator ⟨digits, exponent + k⟩ =
      numerator ⟨digits, exponent + k⟩ * denominator ⟨digits * 10 ^ k, exponent⟩ := by
  have hexponents : k + exponent.toNat + (-(exponent + k)).toNat = (exponent + k).toNat + (-exponent).toNat := by
    omega
  unfold numerator denominator
  dsimp only
  rw [Nat.mul_assoc digits, ← Nat.pow_add, Nat.mul_assoc digits, ← Nat.pow_add, Nat.mul_assoc digits,
    ← Nat.pow_add, hexponents]

end Decimal

namespace Interval

/-- Quotients of one value are admitted alike. -/
theorem Admits.congr {num' den' : Nat} (h : i.Admits num den) (hden : 0 < den) (hden' : 0 < den')
    (heq : num * den' = num' * den) : i.Admits num' den' := by
  have hvalue : num * i.denominator * den' = num' * i.denominator * den := by
    rw [Nat.mul_right_comm, heq, Nat.mul_right_comm]
  have hbound : ∀ bound, bound * den * den' = bound * den' * den := fun bound => Nat.mul_right_comm ..
  refine ⟨Nat.le_of_mul_le_mul_right ?_ hden, Nat.le_of_mul_le_mul_right ?_ hden, fun hend => h.inner ?_⟩
  · rw [← hvalue, ← hbound]
    exact Nat.mul_le_mul_right _ h.low
  · rw [← hvalue, ← hbound]
    exact Nat.mul_le_mul_right _ h.high
  · refine hend.imp (fun heq => ?_) fun heq => ?_
    · refine Nat.eq_of_mul_eq_mul_right hden' ?_
      rw [hvalue, heq, hbound]
    · refine Nat.eq_of_mul_eq_mul_right hden' ?_
      rw [hvalue, heq, hbound]

theorem admits_of_holds (h : i.holds n = true) : i.Admits n 1 := by
  unfold holds at h
  dsimp only at h
  split at h
  · next hclosed =>
    rw [Bool.and_eq_true, decide_eq_true_iff, decide_eq_true_iff] at h
    exact ⟨by omega, by omega, fun _ => hclosed⟩
  · rw [Bool.and_eq_true, decide_eq_true_iff, decide_eq_true_iff] at h
    exact ⟨by omega, by omega, fun hend => by omega⟩

theorem scale_of_neg (h : shift < 0) (i : Interval) :
    i.scale shift = { i with denominator := i.denominator * 10 ^ shift.natAbs } := if_pos h

theorem scale_of_nonneg (h : 0 ≤ shift) (i : Interval) : i.scale shift =
    { i with
      low := i.low * 10 ^ shift.natAbs, value := i.value * 10 ^ shift.natAbs, high := i.high * 10 ^ shift.natAbs } :=
  if_neg (Int.not_lt.2 h)

theorem denominator_scale_pos (h : 0 < i.denominator) (shift : Int) : 0 < (i.scale shift).denominator := by
  rcases Int.lt_or_le shift 0 with hneg | hnonneg
  · rw [scale_of_neg hneg]
    exact Nat.mul_pos h (Nat.pow_pos (by decide))
  · rw [scale_of_nonneg hnonneg]
    exact h

/-- Bounds and value are multiplied alike. -/
theorem exists_scale (i : Interval) (shift : Int) : ∃ factor, 0 < factor ∧ (i.scale shift).low = i.low * factor ∧
    (i.scale shift).value = i.value * factor ∧ (i.scale shift).high = i.high * factor := by
  rcases Int.lt_or_le shift 0 with hneg | hnonneg
  · rw [scale_of_neg hneg]
    exact ⟨1, Nat.one_pos, (Nat.mul_one _).symm, (Nat.mul_one _).symm, (Nat.mul_one _).symm⟩
  · rw [scale_of_nonneg hnonneg]
    exact ⟨10 ^ shift.natAbs, Nat.pow_pos (by decide), rfl, rfl, rfl⟩

/-- An interval admits a decimal. -/
def Reads (i : Interval) (d : Decimal) : Prop := i.Admits d.numerator d.denominator

/-- What an interval admits that is seen with another unit. -/
theorem reads_of_scale (h : (i.scale shift).Admits n 1) : i.Reads ⟨n, -shift⟩ := by
  unfold Reads Decimal.numerator Decimal.denominator
  dsimp only
  rcases Int.lt_or_le shift 0 with hneg | hnonneg
  · have hunit : (-shift).toNat = shift.natAbs ∧ (- -shift).toNat = 0 := by omega
    rw [scale_of_neg hneg] at h
    rw [hunit.1, hunit.2]
    have hmul : n * 10 ^ shift.natAbs * i.denominator = n * (i.denominator * 10 ^ shift.natAbs) := by
      rw [Nat.mul_assoc, Nat.mul_comm i.denominator]
    refine ⟨?_, ?_, ?_⟩
    · rw [hmul]
      exact h.low
    · rw [hmul]
      exact h.high
    · rw [hmul]
      exact h.inner
  · have hunit : (-shift).toNat = 0 ∧ (- -shift).toNat = shift.natAbs := by omega
    rw [scale_of_nonneg hnonneg] at h
    obtain ⟨hlow, hhigh, hinner⟩ := h
    rw [Nat.mul_one] at hlow hhigh
    rw [Nat.mul_one, Nat.mul_one] at hinner
    rw [hunit.1, hunit.2, Nat.pow_zero, Nat.mul_one]
    exact ⟨hlow, hhigh, hinner⟩

theorem reads_shift_iff (i : Interval) (digits k : Nat) (exponent : Int) :
    i.Reads ⟨digits * 10 ^ k, exponent⟩ ↔ i.Reads ⟨digits, exponent + k⟩ := by
  have hquotient := Decimal.quotient_shift digits k exponent
  exact ⟨fun h => h.congr (Decimal.denominator_pos _) (Decimal.denominator_pos _) hquotient,
    fun h => h.congr (Decimal.denominator_pos _) (Decimal.denominator_pos _) hquotient.symm⟩

/-! ## Neighbours -/

theorem holds_of_neighbour? (h : i.neighbour? = some n) : i.holds n = true := by
  unfold neighbour? at h
  dsimp only at h
  split at h
  · next hbelow _ => exact Option.some.inj h ▸ hbelow
  · next _ habove => exact Option.some.inj h ▸ habove
  · cases h
  · next hbelow habove =>
    obtain rfl := Option.some.inj h
    have hleast := le_roundHalfEven i.value i.denominator
    have hmost := roundHalfEven_le i.value i.denominator
    rcases Nat.lt_or_ge (i.value / i.denominator) (roundHalfEven i.value i.denominator) with hlt | hge
    · rwa [show roundHalfEven i.value i.denominator = i.value / i.denominator + 1 by omega]
    · rwa [show roundHalfEven i.value i.denominator = i.value / i.denominator by omega]

/-- Where the unit is less than the way from the value to both bounds, the nearest integer lies between these. -/
theorem admits_roundHalfEven (hden : 0 < i.denominator) (hlow : i.denominator + 2 * i.low < 2 * i.value)
    (hhigh : i.denominator + 2 * i.value < 2 * i.high) :
    i.Admits (roundHalfEven i.value i.denominator) 1 := by
  obtain ⟨hbelow, habove⟩ := roundHalfEven_bounds i.value hden
  exact ⟨by omega, by omega, fun hend => by omega⟩

/-- The decimal that is found is admitted, as long as the one of seventeen digits is. -/
theorem reads_shortestFrom {leading : Int}
    (h : (i.scale (16 - leading)).Admits
      (roundHalfEven (i.scale (16 - leading)).value (i.scale (16 - leading)).denominator) 1)
    {fuel count : Nat} (hcount : fuel + count = 17) : i.Reads (shortestFrom i leading fuel count) := by
  induction fuel generalizing count with
  | zero =>
    obtain rfl : count = 17 := by omega
    have hshift : ((17 : Nat) : Int) - 1 - leading = 16 - leading := by omega
    have hexponent : leading + 1 - ((17 : Nat) : Int) = -(16 - leading) := by omega
    unfold shortestFrom
    dsimp only
    rw [hshift, hexponent]
    exact reads_of_scale h
  | succ fuel ih =>
    unfold shortestFrom
    split
    · next digits hfound =>
      have hreads := reads_of_scale (admits_of_holds (holds_of_neighbour? hfound))
      have hexponent : -((count : Int) - 1 - leading) = leading + 1 - count := by omega
      rw [hexponent] at hreads
      split
      · next hpower =>
        have hone : digits = 1 * 10 ^ count := by rw [hpower, Nat.one_mul]; rfl
        have hlast : leading + 1 - (count : Int) + count = leading + 1 := by omega
        rw [hone, reads_shift_iff, hlast] at hreads
        exact hreads
      · exact hreads
    · exact ih (by omega)

/-! ## Seventeen digits -/

theorem stepsToOne_spec (value den fuel k : Nat) : stepsToOne value den fuel k ≤ k + fuel ∧
    (den ≤ value * 10 ^ fuel → den * 10 ^ k ≤ value * 10 ^ stepsToOne value den fuel k) := by
  induction fuel generalizing value k with
  | zero =>
    refine ⟨Nat.le_refl k, fun h => ?_⟩
    rw [Nat.pow_zero, Nat.mul_one] at h
    exact Nat.mul_le_mul_right _ h
  | succ fuel ih =>
    unfold stepsToOne
    split
    · next hle => exact ⟨by omega, fun _ => Nat.mul_le_mul_right _ hle⟩
    · obtain ⟨hmost, hreaches⟩ := ih (value * 10) (k + 1)
      refine ⟨by omega, fun h => ?_⟩
      rw [Nat.pow_succ', ← Nat.mul_assoc] at h
      have hten := hreaches h
      rw [Nat.pow_succ, ← Nat.mul_assoc, Nat.mul_right_comm value] at hten
      exact Nat.le_of_mul_le_mul_right hten (by decide)

/-- The power of ten of the leading digit is at most the value. -/
theorem leading_spec (hden : 0 < i.denominator) (h : i.denominator ≤ i.value * 10 ^ 400) : -400 ≤ i.leading ∧
    i.denominator * 10 ^ i.leading.toNat ≤ i.value * 10 ^ (-i.leading).toNat := by
  unfold leading
  split
  · next hle =>
    have hquot : 0 < i.value / i.denominator := Nat.div_pos hle hden
    obtain ⟨k, hk⟩ : ∃ k, (Nat.toDigits 10 (i.value / i.denominator)).length = k + 1 :=
      Nat.exists_eq_succ_of_ne_zero (Nat.ne_of_gt Nat.length_toDigits_pos)
    have hpower : 10 ^ k ≤ i.value / i.denominator := by
      rcases Nat.eq_zero_or_pos k with rfl | hpos
      · exact hquot
      · have hlength := Nat.length_toDigits_le_iff (n := i.value / i.denominator) (by decide : 1 < 10) hpos
        omega
    have hexponent : ((k + 1 : Nat) : Int) - 1 = k := by omega
    rw [hk, hexponent, Int.toNat_natCast, Int.toNat_neg_natCast, Nat.pow_zero, Nat.mul_one, Nat.mul_comm]
    exact ⟨by omega, (Nat.le_div_iff_mul_le hden).1 hpower⟩
  · obtain ⟨hmost, hreaches⟩ := stepsToOne_spec i.value i.denominator 400 0
    rw [Int.neg_neg, Int.toNat_natCast, Int.toNat_neg_natCast]
    exact ⟨by omega, hreaches h⟩

/-- With seventeen digits the value is at least `10 ^ 16` units. -/
theorem value_scale {leading : Int}
    (h : i.denominator * 10 ^ leading.toNat ≤ i.value * 10 ^ (-leading).toNat) :
    10 ^ 16 * (i.scale (16 - leading)).denominator ≤ (i.scale (16 - leading)).value := by
  rcases Int.lt_or_le (16 - leading) 0 with hneg | hnonneg
  · have hexponents : leading.toNat = (16 - leading).natAbs + 16 ∧ (-leading).toNat = 0 := by omega
    rw [hexponents.1, hexponents.2, Nat.pow_add, Nat.pow_zero, Nat.mul_one, ← Nat.mul_assoc] at h
    rw [scale_of_neg hneg, Nat.mul_comm]
    exact h
  · have hexponents : leading.toNat + (16 - leading).natAbs = 16 + (-leading).toNat := by omega
    have hmul := Nat.mul_le_mul_right (10 ^ (16 - leading).natAbs) h
    rw [Nat.mul_assoc, ← Nat.pow_add, hexponents, Nat.pow_add, ← Nat.mul_assoc, Nat.mul_right_comm i.value] at hmul
    rw [scale_of_nonneg hnonneg, Nat.mul_comm]
    exact Nat.le_of_mul_le_mul_right hmul (Nat.pow_pos (by decide))

end Interval

/-! ## Intervals of places -/

theorem denominator_interval_pos (place : Nat) : 0 < (interval place).denominator := by
  obtain ⟨k, hk⟩ : ∃ k, k = 1075 := ⟨_, rfl⟩
  rw [denominator_interval place hk]
  exact Nat.two_pow_pos k

/-- The unit of seventeen digits is less than the way to both bounds. -/
theorem admits_seventeen (hplace : 0 < place) {shift : Int}
    (h : 10 ^ 16 * ((interval place).scale shift).denominator ≤ ((interval place).scale shift).value) :
    ((interval place).scale shift).Admits
      (roundHalfEven ((interval place).scale shift).value ((interval place).scale shift).denominator) 1 := by
  obtain ⟨hbelow, habove⟩ := units_gaps hplace
  obtain ⟨factor, hfactor, hlow, hvalue, hhigh⟩ := (interval place).exists_scale shift
  have hden := Interval.denominator_scale_pos (denominator_interval_pos place) shift
  have hpos : 0 < units place * factor := Nat.mul_pos (units_pos hplace) hfactor
  have hbelow := Nat.mul_le_mul_right factor hbelow
  have habove := Nat.mul_le_mul_right factor habove
  rw [low_interval, Nat.add_mul] at hlow
  rw [value_interval, Nat.mul_assoc] at hvalue
  rw [high_interval, Nat.add_mul] at hhigh
  rw [Nat.add_mul, Nat.mul_assoc, Nat.mul_assoc] at hbelow habove
  rw [hvalue] at h
  refine Interval.admits_roundHalfEven hden ?_ ?_
  · rw [hlow, hvalue]
    omega
  · rw [hhigh, hvalue]
    omega

theorem two_pow_le_ten_pow {k n : Nat} (h : k ≤ 3 * n) : 2 ^ k ≤ 10 ^ n := by
  refine Nat.le_trans (Nat.pow_le_pow_right (by decide) h) ?_
  rw [Nat.pow_mul]
  exact Nat.pow_le_pow_left (by decide) n

theorem ten_pow_le_two_pow (n : Nat) : 10 ^ n ≤ 2 ^ (4 * n) := by
  rw [Nat.pow_mul]
  exact Nat.pow_le_pow_left (by decide) n

/-- The leading digit of a positive number is found. -/
theorem leading_interval (hplace : 0 < place) : -400 ≤ (interval place).leading ∧
    (interval place).denominator * 10 ^ (interval place).leading.toNat ≤
      (interval place).value * 10 ^ (-(interval place).leading).toNat := by
  refine Interval.leading_spec (denominator_interval_pos place) ?_
  obtain ⟨k, hk⟩ : ∃ k, k = 1075 := ⟨_, rfl⟩
  have hpos : 0 < 2 * units place := Nat.mul_pos (by decide) (units_pos hplace)
  rw [denominator_interval place hk, value_interval]
  exact Nat.le_trans (two_pow_le_ten_pow (by omega)) (Nat.le_mul_of_pos_left _ hpos)

/-- The shortest decimal of a place is admitted. -/
theorem reads_shortest (hplace : 0 < place) : (interval place).Reads (shortest place) :=
  Interval.reads_shortestFrom (admits_seventeen hplace (Interval.value_scale (leading_interval hplace).2)) rfl

theorem le_exponent_shortestFrom (i : Interval) (leading : Int) (fuel count : Nat) (hcount : fuel + count = 17) :
    leading - 16 ≤ (shortestFrom i leading fuel count).exponent := by
  induction fuel generalizing count with
  | zero =>
    unfold shortestFrom
    dsimp only
    omega
  | succ fuel ih =>
    unfold shortestFrom
    split
    · split
      · dsimp only
        omega
      · dsimp only
        omega
    · exact ih (count + 1) (by omega)

theorem le_exponent_shortest (hplace : 0 < place) : -416 ≤ (shortest place).exponent := by
  have hleading := (leading_interval hplace).1
  have hexponent := le_exponent_shortestFrom (interval place) (interval place).leading 16 1 rfl
  unfold shortest
  dsimp only
  omega

/-! ## Reading -/

/-- A place other than zero admits no zero. -/
theorem digits_pos (hplace : 0 < place) (h : (interval place).Reads d) : 0 < d.digits := by
  refine Nat.pos_of_ne_zero fun hzero => ?_
  have hlow := h.low
  have hpos : 0 < (units (place - 1) + units place) * d.denominator :=
    Nat.mul_pos (Nat.lt_of_lt_of_le (units_pos hplace) (Nat.le_add_left _ _)) d.denominator_pos
  unfold Decimal.numerator at hlow
  rw [hzero, Nat.zero_mul, Nat.zero_mul, low_interval] at hlow
  omega

/-! The leading binary digit of a decimal's digits, where the decimal lies between two powers of two. A power of ten is
between the powers of eight and of sixteen with its exponent. -/

section

variable {k top : Nat} (hdigits : d.digits ≠ 0)
include hdigits

theorem le_log2_of_denominator_le (hexponent : d.exponent ≤ 0) (h : d.denominator ≤ d.numerator * 2 ^ k) :
    3 * -d.exponent ≤ d.digits.log2 + 1 + k := by
  obtain ⟨-, hmost⟩ := (Nat.log2_eq_iff hdigits).1 rfl
  unfold Decimal.numerator Decimal.denominator at h
  rw [Int.toNat_of_nonpos hexponent, Nat.pow_zero, Nat.mul_one] at h
  have hpower := calc
    2 ^ (3 * (-d.exponent).toNat) ≤ 10 ^ (-d.exponent).toNat := two_pow_le_ten_pow (Nat.le_refl _)
    _ ≤ d.digits * 2 ^ k := h
    _ ≤ 2 ^ (d.digits.log2 + 1) * 2 ^ k := Nat.mul_le_mul_right _ (Nat.le_of_lt hmost)
    _ = 2 ^ (d.digits.log2 + 1 + k) := (Nat.pow_add ..).symm
  have hexponents := (Nat.pow_le_pow_iff_right (by decide)).1 hpower
  omega

theorem log2_add_le_of_numerator_le (hexponent : 0 ≤ d.exponent)
    (h : d.numerator * 2 ^ k ≤ 2 ^ top * d.denominator) : d.digits.log2 + 3 * d.exponent + k ≤ top := by
  obtain ⟨hleast, -⟩ := (Nat.log2_eq_iff hdigits).1 rfl
  have hzero : (-d.exponent).toNat = 0 := by omega
  unfold Decimal.numerator Decimal.denominator at h
  rw [hzero, Nat.pow_zero, Nat.mul_one] at h
  have hpower := calc
    2 ^ (d.digits.log2 + 3 * d.exponent.toNat + k) = 2 ^ d.digits.log2 * 2 ^ (3 * d.exponent.toNat) * 2 ^ k := by
      rw [Nat.pow_add, Nat.pow_add]
    _ ≤ d.digits * 10 ^ d.exponent.toNat * 2 ^ k :=
      Nat.mul_le_mul_right _ (Nat.mul_le_mul hleast (two_pow_le_ten_pow (Nat.le_refl _)))
    _ ≤ 2 ^ top := h
  have hexponents := (Nat.pow_le_pow_iff_right (by decide)).1 hpower
  omega

theorem log2_le_of_numerator_le (hexponent : d.exponent ≤ 0)
    (h : d.numerator * 2 ^ k ≤ 2 ^ top * d.denominator) : d.digits.log2 + k ≤ top + 4 * -d.exponent := by
  obtain ⟨hleast, -⟩ := (Nat.log2_eq_iff hdigits).1 rfl
  unfold Decimal.numerator Decimal.denominator at h
  rw [Int.toNat_of_nonpos hexponent, Nat.pow_zero, Nat.mul_one] at h
  have hpower := calc
    2 ^ (d.digits.log2 + k) = 2 ^ d.digits.log2 * 2 ^ k := Nat.pow_add ..
    _ ≤ d.digits * 2 ^ k := Nat.mul_le_mul_right _ hleast
    _ ≤ 2 ^ top * 10 ^ (-d.exponent).toNat := h
    _ ≤ 2 ^ top * 2 ^ (4 * (-d.exponent).toNat) := Nat.mul_le_mul_left _ (ten_pow_le_two_pow _)
    _ = 2 ^ (top + 4 * (-d.exponent).toNat) := (Nat.pow_add ..).symm
  have hexponents := (Nat.pow_le_pow_iff_right (by decide)).1 hpower
  omega

end

/-- A decimal that a place admits is neither so small nor so large that it is not looked at. -/
theorem log2_digits (hplace : 0 < place) (hfinite : place < limit) (h : (interval place).Reads d) :
    3 * -d.exponent ≤ d.digits.log2 + 1076 ∧ (0 ≤ d.exponent → d.digits.log2 + 3 * d.exponent ≤ 1024) ∧
    (d.exponent ≤ 0 → d.digits.log2 ≤ 1024 + 4 * -d.exponent) := by
  obtain ⟨k, hk⟩ : ∃ k, k = 1075 := ⟨_, rfl⟩
  obtain ⟨top, htop, hunits, hnext⟩ := exists_units_le hfinite
  have hpos := units_pos hplace
  have hdigits : d.digits ≠ 0 := Nat.ne_of_gt (digits_pos hplace h)
  have hlow : d.denominator ≤ d.numerator * 2 ^ k := by
    have hlow := h.low
    rw [low_interval, denominator_interval place hk] at hlow
    exact Nat.le_trans (Nat.le_mul_of_pos_left _ (by omega)) hlow
  have hhigh : d.numerator * 2 ^ k ≤ 2 ^ (top + 1) * d.denominator := by
    have hhigh := h.high
    rw [high_interval, denominator_interval place hk] at hhigh
    refine Nat.le_trans hhigh (Nat.mul_le_mul_right _ ?_)
    rw [Nat.pow_succ]
    omega
  refine ⟨?_, fun hexponent => ?_, fun hexponent => ?_⟩
  · rcases Int.lt_or_le 0 d.exponent with hexponent | hexponent
    · omega
    · have hleast := le_log2_of_denominator_le hdigits hexponent hlow
      omega
  · have hmost := log2_add_le_of_numerator_le hdigits hexponent hhigh
    omega
  · have hmost := log2_le_of_numerator_le hdigits hexponent hhigh
    omega

/-- A decimal that a place admits reads as the number. -/
theorem ofDecimal?_of_reads (negative : Bool) (hplace : 0 < place) (hfinite : place < limit)
    (h : (interval place).Reads d) (hexponent : -418 ≤ d.exponent) :
    ofDecimal? negative d.digits d.exponent = some ⟨negative, place, hfinite⟩ := by
  have hdigits := digits_pos hplace h
  obtain ⟨hleast, hpositive, hnegative⟩ := log2_digits hplace hfinite h
  obtain ⟨k, hk⟩ : ∃ k, k = 1074 := ⟨_, rfl⟩
  have hnearest := nearestPlace_of_admits hplace d.denominator_pos h hk
  have hratio : ofRatio? negative d.numerator d.denominator = some ⟨negative, place, hfinite⟩ := by
    rw [ofRatio?, ← hk]
    exact (congrArg (ofPlace? negative) hnearest).trans (ofPlace?_of_lt hfinite)
  unfold ofDecimal?
  dsimp only
  rw [if_neg (by omega), if_neg (by omega), ← hratio]
  split
  · next hneg =>
    have hunit : d.exponent.toNat = 0 ∧ (-d.exponent).toNat = d.exponent.natAbs := by omega
    unfold Decimal.numerator Decimal.denominator
    rw [hunit.1, hunit.2, Nat.pow_zero, Nat.mul_one]
    rfl
  · next hnonneg =>
    have hunit : d.exponent.toNat = d.exponent.natAbs ∧ (-d.exponent).toNat = 0 := by omega
    unfold Decimal.numerator Decimal.denominator
    rw [hunit.1, hunit.2, Nat.pow_zero]
    rfl

/-- The shortest decimal of a number reads as the number. -/
theorem ofDecimal?_shortest (negative : Bool) (hplace : 0 < place) (hfinite : place < limit) :
    ofDecimal? negative (shortest place).digits (shortest place).exponent = some ⟨negative, place, hfinite⟩ := by
  have hexponent := le_exponent_shortest hplace
  exact ofDecimal?_of_reads negative hplace hfinite (reads_shortest hplace) (by omega)

end QueryLayer.Binary64
