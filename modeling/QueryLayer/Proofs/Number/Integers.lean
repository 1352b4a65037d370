import Mathlib.Algebra.Group.Int.Defs
import Mathlib.Algebra.Group.Nat.Defs
import QueryLayer.Proofs.Value.Same

/-! # Integers as binary64 numbers

The place of an integer below `2 ^ 53` is exact, so that these integers are told apart from all others that
fit 64 bits: `Binary64.orderKey_ofInt_inj`. Beyond it neighbours fall together.
-/
namespace QueryLayer

namespace Binary64

/-! ## Rounding -/

theorem le_roundHalfEven (num den : Nat) : num / den ≤ roundHalfEven num den := by
  unfold roundHalfEven
  dsimp only
  split <;> omega

theorem roundHalfEven_le (num den : Nat) : roundHalfEven num den ≤ num / den + 1 := by
  unfold roundHalfEven
  dsimp only
  split <;> omega

/-- A quotient without a remainder is not rounded. -/
theorem roundHalfEven_mul {den : Nat} (h : 0 < den) (q : Nat) : roundHalfEven (q * den) den = q := by
  unfold roundHalfEven
  dsimp only
  rw [Nat.mul_div_cancel _ h, Nat.mul_mod_left]
  exact if_pos (Or.inl (by omega))

/-! ## Places of integers -/

/-- The place of a natural number, counted in units of `2 ^ (-k)`. -/
def placeIn (k n : Nat) : Nat := nearestPlace (n * Nat.pow 2 k) 1

theorem placeIn_zero (k : Nat) : placeIn k 0 = 0 := by
  unfold placeIn
  rw [Nat.zero_mul]
  rfl

section

variable {k n m e : Nat} (hk : 52 ≤ k) (hlow : 2 ^ e ≤ n) (hhigh : n < 2 ^ (e + 1))
include hk hlow hhigh

/-- The place of a positive integer whose leading binary digit stands at `e`. -/
theorem placeIn_eq : placeIn k n =
    (e + (k - 52)) * 2 ^ 52 + roundHalfEven (n * 2 ^ k) (2 ^ (e + (k - 52))) := by
  have hlog : Nat.log2 (n * 2 ^ k) = e + k := by
    have hpos : n * 2 ^ k ≠ 0 := by
      have he := Nat.two_pow_pos e
      have hk := Nat.two_pow_pos k
      exact Nat.mul_ne_zero (by omega) (by omega)
    rw [Nat.log2_eq_iff hpos]
    constructor
    · rw [Nat.pow_add]
      exact Nat.mul_le_mul_right _ hlow
    · rw [show e + k + 1 = (e + 1) + k by omega, Nat.pow_add]
      exact Nat.mul_lt_mul_of_pos_right hhigh (Nat.two_pow_pos k)
  have hshift : e + k - 52 = e + (k - 52) := by omega
  unfold placeIn nearestPlace
  simp only [Nat.div_one, Nat.pow_eq, hlog, hshift, Nat.one_mul]

/-- Places of integers with one leading digit lie together. -/
theorem placeIn_bounds : (e + (k - 52) + 1) * 2 ^ 52 ≤ placeIn k n ∧
    placeIn k n ≤ (e + (k - 52) + 2) * 2 ^ 52 := by
  have hsplit : ∀ a b : Nat, a + k = b + (e + (k - 52)) → 2 ^ a * 2 ^ k = 2 ^ b * 2 ^ (e + (k - 52)) := by
    intro a b hab
    rw [← Nat.pow_add, ← Nat.pow_add, hab]
  have hleast : 2 ^ 52 ≤ n * 2 ^ k / 2 ^ (e + (k - 52)) := by
    rw [Nat.le_div_iff_mul_le (Nat.two_pow_pos _), ← hsplit e 52 (by omega)]
    exact Nat.mul_le_mul_right _ hlow
  have hmost : n * 2 ^ k / 2 ^ (e + (k - 52)) < 2 ^ 53 := by
    rw [Nat.div_lt_iff_lt_mul (Nat.two_pow_pos _), ← hsplit (e + 1) 53 (by omega)]
    exact Nat.mul_lt_mul_of_pos_right hhigh (Nat.two_pow_pos k)
  have hround := le_roundHalfEven (n * 2 ^ k) (2 ^ (e + (k - 52)))
  have hround' := roundHalfEven_le (n * 2 ^ k) (2 ^ (e + (k - 52)))
  rw [placeIn_eq hk hlow hhigh]
  constructor <;> omega

/-- Below `2 ^ 53` nothing is rounded. -/
theorem placeIn_exact (he : e ≤ 52) : placeIn k n = (e + (k - 52)) * 2 ^ 52 + n * 2 ^ (52 - e) := by
  have hunits : n * 2 ^ k = n * 2 ^ (52 - e) * 2 ^ (e + (k - 52)) := by
    rw [Nat.mul_assoc, ← Nat.pow_add, show 52 - e + (e + (k - 52)) = k by omega]
  rw [placeIn_eq hk hlow hhigh, hunits, roundHalfEven_mul (Nat.two_pow_pos _)]

end

variable {k n m : Nat}

/-- Integers below `2 ^ 53` keep their order among all others. -/
theorem placeIn_lt (hk : 52 ≤ k) (hn : n < 2 ^ 53) (h : n < m) : placeIn k n < placeIn k m := by
  have hm : m ≠ 0 := by omega
  obtain ⟨hlow', hhigh'⟩ := (Nat.log2_eq_iff hm).1 rfl
  have hplace := (placeIn_bounds hk hlow' hhigh').1
  rcases Nat.eq_zero_or_pos n with rfl | hpos
  · rw [placeIn_zero]
    omega
  · obtain ⟨hlow, hhigh⟩ := (Nat.log2_eq_iff (by omega)).1 (rfl : n.log2 = n.log2)
    have hdigits : n.log2 ≤ 52 := Nat.le_of_lt_succ ((Nat.log2_lt (by omega)).2 hn)
    have hexact := placeIn_exact hk hlow hhigh hdigits
    rcases Nat.lt_trichotomy n.log2 m.log2 with hlt | heq | hgt
    · -- the next leading digit begins where this one ends
      have hmost : n * 2 ^ (52 - n.log2) < 2 ^ 53 := by
        rw [show (53 : Nat) = n.log2 + 1 + (52 - n.log2) by omega, Nat.pow_add]
        exact Nat.mul_lt_mul_of_pos_right hhigh (Nat.two_pow_pos _)
      omega
    · rw [hexact, placeIn_exact hk (heq ▸ hlow') (heq ▸ hhigh') hdigits]
      exact Nat.add_lt_add_left (Nat.mul_lt_mul_of_pos_right h (Nat.two_pow_pos _)) _
    · have hpow : 2 ^ (m.log2 + 1) ≤ 2 ^ n.log2 := Nat.pow_le_pow_right (by omega) hgt
      omega

theorem placeIn_lt_limit (hn : n < 2 ^ 64) : placeIn 1074 n < limit := by
  have hlimit : limit = 2047 * 2 ^ 52 := rfl
  rcases Nat.eq_zero_or_pos n with rfl | hpos
  · rw [placeIn_zero]
    omega
  · obtain ⟨hlow, hhigh⟩ := (Nat.log2_eq_iff (by omega)).1 (rfl : n.log2 = n.log2)
    have hdigits : n.log2 < 64 := (Nat.log2_lt (by omega)).2 hn
    have hplace := (placeIn_bounds (k := 1074) (by omega) hlow hhigh).2
    omega

/-! ## Order keys -/

theorem ofPlace?_of_lt {negative : Bool} {place : Nat} (h : place < limit) :
    ofPlace? negative place = some ⟨negative, place, h⟩ := dif_pos h

theorem ofRatio?_one (negative : Bool) (n : Nat) :
    ofRatio? negative n 1 = ofPlace? negative (placeIn 1074 n) := by
  unfold ofRatio? placeIn
  rfl

theorem orderKey_ofInt {i : Int} (h : Number.Fits i) :
    (ofInt i).orderKey = if i < 0 then -(placeIn 1074 i.natAbs : Int) else placeIn 1074 i.natAbs := by
  have hfinite : placeIn 1074 i.natAbs < limit := by
    refine placeIn_lt_limit ?_
    unfold Number.Fits at h
    omega
  have hofInt : ofInt i = ⟨decide (i < 0), placeIn 1074 i.natAbs, hfinite⟩ := by
    unfold ofInt
    rw [ofRatio?_one, ofPlace?_of_lt hfinite, Option.getD_some]
  rw [hofInt]
  unfold orderKey
  simp only [decide_eq_true_eq]

/-- An integer below `2 ^ 53` is told apart from all others. -/
theorem orderKey_ofInt_inj {i j : Int} (hi : i.natAbs < 2 ^ 53) (hj : Number.Fits j)
    (h : (ofInt i).orderKey = (ofInt j).orderKey) : i = j := by
  have hfits : Number.Fits i := by
    unfold Number.Fits
    omega
  have hlt : ∀ n m : Nat, n < 2 ^ 53 → n < m → placeIn 1074 n < placeIn 1074 m :=
    fun n m => placeIn_lt (by omega)
  have hpos : i.natAbs = 0 ∨ 0 < placeIn 1074 i.natAbs := by
    rcases Nat.eq_zero_or_pos i.natAbs with hzero | hpos
    · exact Or.inl hzero
    · exact Or.inr (Nat.lt_of_le_of_lt (Nat.zero_le _) (hlt 0 _ (by omega) hpos))
  have hplace : placeIn 1074 i.natAbs = placeIn 1074 j.natAbs := by
    rw [orderKey_ofInt hfits, orderKey_ofInt hj] at h
    split at h <;> split at h <;> omega
  have habs : i.natAbs = j.natAbs := by
    rcases Nat.lt_trichotomy i.natAbs j.natAbs with habs | habs | habs
    · have hne := hlt _ _ hi habs
      omega
    · exact habs
    · have hne := hlt _ _ (Nat.lt_trans habs hi) habs
      omega
  rw [orderKey_ofInt hfits, orderKey_ofInt hj] at h
  split at h <;> split at h <;> omega

end Binary64

/-- Integers are the same value when they are one integer, as long as one of them is below `2 ^ 53`. -/
theorem Value.same_int_iff {i j : Int} (hi : i.natAbs < 2 ^ 53) (hj : Number.Fits j) :
    (Value.int j).same (.int i) = true ↔ j = i := by
  have hfits : Number.Fits i := by
    unfold Number.Fits
    omega
  unfold Value.int Value.same
  rw [Number.ofInt_of_fits hfits, Number.ofInt_of_fits hj, Binary64.compare_beq_eq, decide_eq_true_eq]
  constructor
  · intro h
    exact (Binary64.orderKey_ofInt_inj hi hj h.symm).symm
  · intro h
    subst h
    rfl

end QueryLayer
