import Mathlib.Tactic.ByContra
import QueryLayer.Number.Shortest
import QueryLayer.Proofs.Number.Integers

/-! # Rounding to a place

The magnitudes between two powers of two are the multiples of one unit, so that what lies between the middles on
both sides of a place is nearest to it: `Binary64.nearestPlace_of_admits`.
-/
namespace QueryLayer.Binary64

variable {num den q s m place : Nat}

/-- The integer whose half-way points enclose a quotient is the nearest one. -/
theorem roundHalfEven_eq (hden : 0 < den) (hlow : 2 * (q * den) ≤ 2 * num + den)
    (hhigh : 2 * num ≤ 2 * (q * den) + den)
    (htie : 2 * (q * den) = 2 * num + den ∨ 2 * num = 2 * (q * den) + den → q % 2 = 0) :
    roundHalfEven num den = q := by
  have hdiv := Nat.div_add_mod num den
  have hmod := Nat.mod_lt num hden
  unfold roundHalfEven
  dsimp only
  generalize num / den = k at hdiv ⊢
  generalize num % den = r at hdiv hmod ⊢
  have hfloor : q = k ∨ q = k + 1 := by
    have hle : q ≤ k + 1 := by
      by_contra hgt
      have hmul := Nat.mul_le_mul_right den (Nat.not_le.1 hgt)
      rw [Nat.succ_eq_add_one, Nat.add_mul, Nat.add_mul, Nat.mul_comm k] at hmul
      omega
    have hge : k ≤ q := by
      by_contra hlt
      have hmul := Nat.mul_le_mul_right den (Nat.not_le.1 hlt)
      rw [Nat.succ_eq_add_one, Nat.add_mul, Nat.mul_comm k] at hmul
      omega
    omega
  rcases hfloor with rfl | rfl
  · rw [Nat.mul_comm q] at hlow hhigh htie
    rw [if_pos (by omega)]
  · rw [Nat.add_mul, Nat.mul_comm k] at hlow hhigh htie
    rw [if_neg (by omega)]

theorem roundHalfEven_bounds (num : Nat) (hden : 0 < den) :
    2 * (roundHalfEven num den * den) ≤ 2 * num + den ∧ 2 * num ≤ 2 * (roundHalfEven num den * den) + den := by
  have hdiv := Nat.div_add_mod num den
  have hmod := Nat.mod_lt num hden
  unfold roundHalfEven
  dsimp only
  rw [Nat.mul_comm den] at hdiv
  split
  · omega
  · rw [Nat.add_mul]
    omega

/-! ## Places of one unit -/

/-- The place of `m` times `2 ^ s`. -/
def OnGrid (s m : Nat) : Prop := m ≤ 2 ^ 53 ∧ (s = 0 ∨ 2 ^ 52 ≤ m)

theorem units_grid (h : OnGrid s m) : units (s * 2 ^ 52 + m) = m * 2 ^ s := by
  obtain ⟨hmost, hleast⟩ := h
  have hpow : Nat.pow 2 52 = 2 ^ 52 := rfl
  unfold units
  rw [hpow]
  split
  · next hlt =>
    obtain rfl : s = 0 := by omega
    omega
  · next hge =>
    by_cases hfull : m = 2 ^ 53
    · -- the first place of the next unit
      subst hfull
      have hquot : (s * 2 ^ 52 + 2 ^ 53) / 2 ^ 52 - 1 = s + 1 := by omega
      have hrest : (s * 2 ^ 52 + 2 ^ 53) % 2 ^ 52 = 0 := by omega
      rw [hquot, hrest, Nat.pow_eq, Nat.pow_succ]
      omega
    · have hquot : (s * 2 ^ 52 + m) / 2 ^ 52 - 1 = s := by omega
      have hrest : 2 ^ 52 + (s * 2 ^ 52 + m) % 2 ^ 52 = m := by omega
      rw [hquot, hrest, Nat.pow_eq]

/-- Every place has a unit, below the first place of the next one. -/
theorem exists_grid (place : Nat) : ∃ s m, place = s * 2 ^ 52 + m ∧ m < 2 ^ 53 ∧ OnGrid s m := by
  refine ⟨place / 2 ^ 52 - 1, place - (place / 2 ^ 52 - 1) * 2 ^ 52, ?_, ?_, ?_, ?_⟩
  · omega
  · omega
  · omega
  · omega

theorem OnGrid.succ (h : OnGrid s m) (hm : m < 2 ^ 53) : OnGrid s (m + 1) :=
  ⟨hm, h.2.imp_right Nat.le_succ_of_le⟩

/-- The place after is one unit more. -/
theorem units_next (h : OnGrid s m) (hm : m < 2 ^ 53) : units (s * 2 ^ 52 + m + 1) = (m + 1) * 2 ^ s := by
  rw [Nat.add_assoc, units_grid (h.succ hm)]

/-- The place before is one unit less. -/
theorem units_previous (h : OnGrid s m) (hplace : 0 < s * 2 ^ 52 + m) (hfirst : ¬(m = 2 ^ 52 ∧ 0 < s)) :
    units (s * 2 ^ 52 + m - 1) + 2 ^ s = m * 2 ^ s := by
  unfold OnGrid at h
  obtain ⟨k, rfl⟩ : ∃ k, m = k + 1 := Nat.exists_eq_succ_of_ne_zero (by omega)
  rw [← Nat.add_assoc, Nat.add_sub_cancel, units_grid (by unfold OnGrid; omega), Nat.succ_mul]

/-- The place before the first one of a unit is half a unit less. -/
theorem units_previous_first (s : Nat) :
    units ((s + 1) * 2 ^ 52 + 2 ^ 52 - 1) = (2 ^ 53 - 1) * 2 ^ s := by
  have hgrid : OnGrid s (2 ^ 53 - 1) := by
    unfold OnGrid
    omega
  rw [← units_grid hgrid]
  exact congrArg units (by omega)

theorem units_pos (hplace : 0 < place) : 0 < units place := by
  obtain ⟨s, m, rfl, -, hgrid⟩ := exists_grid place
  have hleast := hgrid.2
  rw [units_grid hgrid]
  exact Nat.mul_pos (by omega) (Nat.two_pow_pos s)

/-- A power of two above the magnitudes of all finite numbers. -/
theorem exists_units_le (hplace : place < limit) :
    ∃ k, k ≤ 2098 ∧ units place ≤ 2 ^ k ∧ units (place + 1) ≤ 2 ^ k := by
  obtain ⟨s, m, rfl, hmost, hgrid⟩ := exists_grid place
  have hlimit : limit = 2047 * 2 ^ 52 := rfl
  have hleast := hgrid.2
  refine ⟨53 + s, by omega, ?_, ?_⟩
  · rw [units_grid hgrid, Nat.pow_add]
    exact Nat.mul_le_mul_right _ hgrid.1
  · rw [units_next hgrid hmost, Nat.pow_add]
    exact Nat.mul_le_mul_right _ hmost

/-- The way to the next place on either side is at least `2 ^ (-53)` of the number. -/
theorem units_gaps (hplace : 0 < place) : units place + 2 ^ 53 * units (place - 1) ≤ 2 ^ 53 * units place ∧
    units place + 2 ^ 53 * units place ≤ 2 ^ 53 * units (place + 1) := by
  obtain ⟨s, m, rfl, hmost, hgrid⟩ := exists_grid place
  have hleast := hgrid.2
  have hnext := units_next hgrid hmost
  rw [Nat.succ_mul] at hnext
  have hceiling : m * 2 ^ s ≤ 2 ^ 53 * 2 ^ s := Nat.mul_le_mul_right _ (by omega)
  rw [units_grid hgrid, hnext]
  refine ⟨?_, by omega⟩
  by_cases hfirst : m = 2 ^ 52 ∧ 0 < s
  · obtain ⟨rfl, hs⟩ := hfirst
    obtain ⟨t, rfl⟩ : ∃ t, s = t + 1 := Nat.exists_eq_succ_of_ne_zero (Nat.ne_of_gt hs)
    rw [units_previous_first, Nat.pow_succ]
    omega
  · have hprevious := units_previous hgrid hplace hfirst
    omega

/-! ## The nearest place -/

section

variable (hden : 0 < den) (hlow : s = 0 ∨ 2 ^ 52 * (den * 2 ^ s) ≤ num) (hhigh : num < 2 ^ 53 * (den * 2 ^ s))
include hden hlow hhigh

/-- Quotients between two powers of two are rounded to multiples of one unit. -/
theorem nearestPlace_eq : nearestPlace num den = s * 2 ^ 52 + roundHalfEven num (den * 2 ^ s) := by
  have hpow : ∀ k, 2 ^ (k + s) * den = 2 ^ k * (den * 2 ^ s) := fun k => by
    rw [Nat.pow_add, Nat.mul_assoc, Nat.mul_comm den]
  rw [← hpow] at hlow hhigh
  have hlt : num / den < 2 ^ (53 + s) := (Nat.div_lt_iff_lt_mul hden).2 hhigh
  have hshift : Nat.log2 (num / den) - 52 = s := by
    rcases hlow with rfl | hlow
    · by_cases hzero : num / den = 0
      · rw [hzero]
        rfl
      · have hlog := (Nat.log2_lt hzero).2 hlt
        omega
    · have hle : 2 ^ (52 + s) ≤ num / den := (Nat.le_div_iff_mul_le hden).2 hlow
      have hpos : num / den ≠ 0 := by
        have hpower := Nat.two_pow_pos (52 + s)
        omega
      have hlog : Nat.log2 (num / den) = 52 + s := by
        rw [Nat.log2_eq_iff hpos, show 52 + s + 1 = 53 + s by omega]
        exact ⟨hle, hlt⟩
      omega
  unfold nearestPlace
  rw [hshift]
  rfl

/-- A quotient less than half a unit from a multiple of it, or as much from an even one, is rounded to that. -/
theorem nearestPlace_of_middles (hbelow : 2 * (m * (den * 2 ^ s)) ≤ 2 * num + den * 2 ^ s)
    (habove : 2 * num ≤ 2 * (m * (den * 2 ^ s)) + den * 2 ^ s)
    (htie : 2 * (m * (den * 2 ^ s)) = 2 * num + den * 2 ^ s ∨ 2 * num = 2 * (m * (den * 2 ^ s)) + den * 2 ^ s →
      m % 2 = 0) : nearestPlace num den = s * 2 ^ 52 + m := by
  have hunit : 0 < den * 2 ^ s := Nat.mul_pos hden (Nat.two_pow_pos s)
  rw [nearestPlace_eq hden hlow hhigh, roundHalfEven_eq hunit hbelow habove htie]

end

/-- What lies between the middles on both sides of a place is rounded to it, the middles to an even place only. -/
theorem nearestPlace_of_between (hplace : 0 < place) (hden : 0 < den)
    (hlow : (units (place - 1) + units place) * den ≤ 2 * num)
    (hhigh : 2 * num ≤ (units place + units (place + 1)) * den)
    (htie : 2 * num = (units (place - 1) + units place) * den ∨ 2 * num = (units place + units (place + 1)) * den →
      place % 2 = 0) : nearestPlace num den = place := by
  have hlast : ∀ t, (t + 1) * 2 ^ 52 + 2 ^ 52 = t * 2 ^ 52 + 2 ^ 53 := fun t => by omega
  obtain ⟨s, m, rfl, hmost, hgrid⟩ := exists_grid place
  have hleast := hgrid.2
  have hnext := units_next hgrid hmost
  have hmul : ∀ k, k * 2 ^ s * den = k * (den * 2 ^ s) := fun k => by rw [Nat.mul_assoc, Nat.mul_comm den]
  rw [units_grid hgrid, Nat.add_mul, hmul] at hlow htie
  rw [units_grid hgrid, hnext, Nat.add_mul, hmul, hmul, Nat.add_mul m, Nat.one_mul] at hhigh
  rw [hnext, Nat.add_mul, hmul, hmul, Nat.add_mul m, Nat.one_mul] at htie
  have hceiling : m * (den * 2 ^ s) ≤ (2 ^ 53 - 1) * (den * 2 ^ s) := Nat.mul_le_mul_right _ (by omega)
  have hunit : 0 < den * 2 ^ s := Nat.mul_pos hden (Nat.two_pow_pos s)
  by_cases hfirst : m = 2 ^ 52 ∧ 0 < s
  · obtain ⟨rfl, hs⟩ := hfirst
    obtain ⟨t, rfl⟩ : ∃ t, s = t + 1 := Nat.exists_eq_succ_of_ne_zero (Nat.ne_of_gt hs)
    rw [units_previous_first, Nat.mul_assoc, Nat.mul_comm (2 ^ t)] at hlow htie
    have hhalf : den * 2 ^ (t + 1) = 2 * (den * 2 ^ t) := by
      rw [Nat.pow_succ, ← Nat.mul_assoc, Nat.mul_comm]
    by_cases hbelow : num < 2 ^ 52 * (den * 2 ^ (t + 1))
    · -- below the power of two the places are half a unit apart, and it is the last of these
      rw [hlast]
      exact nearestPlace_of_middles hden (by omega) (by omega) (by omega) (by omega) (by omega)
    · exact nearestPlace_of_middles hden (by omega) (by omega) (by omega) (by omega) (by omega)
  · have hprevious := congrArg (· * den) (units_previous hgrid hplace hfirst)
    simp only [Nat.add_mul, hmul, Nat.mul_comm (2 ^ s) den] at hprevious
    have hfloor : s = 0 ∨ (2 ^ 52 + 1) * (den * 2 ^ s) ≤ m * (den * 2 ^ s) := by
      rcases Nat.eq_zero_or_pos s with hs | hs
      · exact Or.inl hs
      · exact Or.inr (Nat.mul_le_mul_right _ (by omega))
    refine nearestPlace_of_middles hden (by omega) (by omega) (by omega) (by omega) fun hend => ?_
    have heven : (s * 2 ^ 52 + m) % 2 = 0 := htie (by omega)
    omega

/-! ## Intervals of places -/

theorem low_interval (place : Nat) : (interval place).low = units (place - 1) + units place := rfl

theorem value_interval (place : Nat) : (interval place).value = 2 * units place := rfl

theorem high_interval (place : Nat) : (interval place).high = units place + units (place + 1) := rfl

theorem denominator_interval (place : Nat) {k : Nat} (hk : k = 1075) : (interval place).denominator = 2 ^ k := by
  unfold interval
  rw [← hk]
  rfl

/-- A quotient lies between the middles on both sides of a place; on one of them only where the place is even. -/
structure Interval.Admits (i : Interval) (num den : Nat) : Prop where
  low : i.low * den ≤ num * i.denominator
  high : num * i.denominator ≤ i.high * den
  inner : num * i.denominator = i.low * den ∨ num * i.denominator = i.high * den → i.closed = true

/-- What a place admits is nearest to it. -/
theorem nearestPlace_of_admits (hplace : 0 < place) (hden : 0 < den) (h : (interval place).Admits num den) {k : Nat}
    (hk : k = 1074) : nearestPlace (num * 2 ^ k) den = place := by
  have hdenominator : num * (interval place).denominator = 2 * (num * 2 ^ k) := by
    rw [denominator_interval place (congrArg (· + 1) hk), Nat.pow_succ, ← Nat.mul_assoc, Nat.mul_comm]
  obtain ⟨hlow, hhigh, hinner⟩ := h
  rw [hdenominator] at hlow hhigh hinner
  exact nearestPlace_of_between hplace hden hlow hhigh fun hend => of_decide_eq_true (hinner hend)

end QueryLayer.Binary64
