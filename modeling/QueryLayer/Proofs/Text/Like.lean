import Mathlib.Data.List.Forall2
import QueryLayer.Text.Like

/-! # What patterns match

A value matches a pattern when it can be cut into pieces, one for each character of the pattern, that these
characters take. A scan goes back to the last `%` only. This loses nothing: between that `%` and the position
every character takes exactly one, so a later start of this stretch only leaves more of the value to the next
`%`. Main statement: `ends_result_iff_cut`.
-/
namespace QueryLayer.Text

/-! ## Cuts -/

/-- The pieces of a value that a character of a pattern takes. -/
def Takes (c : Char) (piece : List Char) : Prop :=
  if c = '%' then True else if c = '_' then piece.length = 1 else piece = [c]

/-- A value can be cut into consecutive pieces, one for each character of the pattern. -/
def Cut (pattern value : List Char) : Prop :=
  ∃ pieces, List.Forall₂ Takes pattern pieces ∧ pieces.flatten = value

section

variable {c : Char} {pattern value : List Char}

theorem takes_iff_of_ne (hc : c ≠ '%') {piece : List Char} :
    Takes c piece ↔ ∃ d, piece = [d] ∧ (c = '_' ∨ c = d) := by
  unfold Takes
  rw [if_neg hc]
  split
  · next hone => simp [hone, List.length_eq_one_iff]
  · next hone => simp [hone]

@[simp] theorem cut_nil_iff : Cut [] value ↔ value = [] := by
  simp [Cut, eq_comm]

theorem cut_cons_iff : Cut (c :: pattern) value ↔
    ∃ piece rest, Takes c piece ∧ Cut pattern rest ∧ piece ++ rest = value := by
  constructor
  · rintro ⟨_, ⟨⟩ | ⟨hpiece, hpieces⟩, rfl⟩
    exact ⟨_, _, hpiece, ⟨_, hpieces, rfl⟩, rfl⟩
  · rintro ⟨piece, _, hpiece, ⟨pieces, hpieces, rfl⟩, rfl⟩
    exact ⟨piece :: pieces, .cons hpiece hpieces, rfl⟩

theorem cut_star_iff : Cut ('%' :: pattern) value ↔ ∃ n, n ≤ value.length ∧ Cut pattern (value.drop n) := by
  rw [cut_cons_iff]
  constructor
  · rintro ⟨piece, rest, -, hrest, rfl⟩
    exact ⟨piece.length, by simp, by simpa using hrest⟩
  · rintro ⟨n, -, hrest⟩
    exact ⟨value.take n, value.drop n, by simp [Takes], hrest, List.take_append_drop n value⟩

theorem cut_one_iff (hc : c ≠ '%') : Cut (c :: pattern) value ↔
    ∃ d rest, value = d :: rest ∧ (c = '_' ∨ c = d) ∧ Cut pattern rest := by
  rw [cut_cons_iff]
  constructor
  · rintro ⟨piece, rest, hpiece, hrest, rfl⟩
    obtain ⟨d, rfl, hd⟩ := (takes_iff_of_ne hc).1 hpiece
    exact ⟨d, rest, rfl, hd, hrest⟩
  · rintro ⟨d, rest, rfl, hd, hrest⟩
    exact ⟨[d], rest, (takes_iff_of_ne hc).2 ⟨d, rfl, hd⟩, hrest, rfl⟩

theorem cut_to_nil_iff : Cut pattern [] ↔ ∀ c ∈ pattern, c = '%' := by
  induction pattern with
  | nil => simp
  | cons c pattern ih =>
    by_cases hc : c = '%'
    · subst hc
      simp [cut_star_iff, ih]
    · simp [cut_one_iff hc, hc]

instance decidableCut : (pattern value : List Char) → Decidable (Cut pattern value)
  | [], _ => decidable_of_iff' _ cut_nil_iff
  | c :: pattern, value =>
    have (rest : List Char) := decidableCut pattern rest
    if hstar : c = '%' then
      decidable_of_iff' (∃ n, n ≤ value.length ∧ Cut pattern (value.drop n)) (hstar ▸ cut_star_iff)
    else
      match value with
      | [] => isFalse fun hcut => by simp [cut_one_iff hstar] at hcut
      | d :: rest => decidable_of_iff ((c = '_' ∨ c = d) ∧ Cut pattern rest) (by simp [cut_one_iff hstar])

/-- Characters other than `%` take one character each. -/
theorem Cut.drop {stretch : List Char} (hstretch : ∀ c ∈ stretch, c ≠ '%')
    (h : Cut (stretch ++ pattern) value) :
    stretch.length ≤ value.length ∧ Cut pattern (value.drop stretch.length) := by
  induction stretch generalizing value with
  | nil => exact ⟨Nat.zero_le _, h⟩
  | cons c stretch ih =>
    obtain ⟨d, rest, rfl, -, hrest⟩ := (cut_one_iff (hstretch c List.mem_cons_self)).1 h
    obtain ⟨hlength, hcut⟩ := ih (fun e he => hstretch e (List.mem_cons_of_mem c he)) hrest
    exact ⟨Nat.succ_le_succ hlength, hcut⟩

end

/-! ## Scans -/

namespace Scan

/-- What a scan can still find: a cut from where it stands, or one in which the last `%` takes more. -/
def Finds (pattern value : Array Char) (s : Scan) : Prop :=
  Cut (pattern.toList.drop s.inPattern) (value.toList.drop s.inValue) ∨
    ∃ w, s.last = some w ∧ ∃ n, w.resume < n ∧ n ≤ value.size ∧
      Cut (pattern.toList.drop (w.star + 1)) (value.toList.drop n)

/-- Behind the last `%` each character has taken one, and none is a `%`. -/
structure Aligned (pattern : Array Char) (s : Scan) : Prop where
  length : ∀ w, s.last = some w → w.resume + s.inPattern = s.inValue + (w.star + 1)
  plain : ∀ w, s.last = some w → ∀ i, w.star < i → i < s.inPattern → pattern[i]? ≠ some '%'

section

variable {pattern value : Array Char} {s t : Scan} {w : PassedStar}

theorem aligned_start (pattern : Array Char) : start.Aligned pattern := ⟨nofun, nofun⟩

theorem Aligned.goOn (h : s.Aligned pattern) (hm : s.Moves pattern value (.goOn t)) : t.Aligned pattern := by
  cases hm with
  | star hvalue hstar =>
    refine ⟨?_, ?_⟩
    · rintro w ⟨⟩
      rfl
    · rintro w ⟨⟩ i hi hi'
      exact absurd hi' (Nat.not_lt_of_le hi)
  | fits hfits =>
    obtain ⟨c, d, hp, -, hc, -⟩ := hfits
    refine ⟨fun w hw => ?_, fun w hw i hi hi' => ?_⟩
    · have hlength := h.length w hw
      dsimp only
      omega
    · obtain hlt | rfl := Nat.lt_succ_iff_lt_or_eq.1 hi'
      · exact h.plain w hw i hi hlt
      · rw [hp]
        exact fun heq => hc (Option.some.inj heq)
  | back w _ _ _ hlast =>
    refine ⟨?_, ?_⟩
    · rintro w' ⟨⟩
      exact rfl
    · rintro w' ⟨⟩ i hi hi'
      exact absurd hi' (Nat.not_lt_of_le hi)

/-- The stretch between the last `%` and the position takes as many characters as it has. -/
theorem Aligned.exists_stretch (h : s.Aligned pattern) (hrange : s.InRange pattern value)
    (hw : s.last = some w) : ∃ stretch, pattern.toList.drop (w.star + 1) = stretch ++ pattern.toList.drop s.inPattern ∧
      (∀ c ∈ stretch, c ≠ '%') ∧ w.resume + stretch.length = s.inValue := by
  have hstar := (hrange.last_lt w hw).1
  have hpattern := hrange.pattern_le
  have hlength := h.length w hw
  refine ⟨(pattern.toList.drop (w.star + 1)).take (s.inPattern - (w.star + 1)), ?_, ?_, ?_⟩
  · have hdrop : pattern.toList.drop s.inPattern =
        (pattern.toList.drop (w.star + 1)).drop (s.inPattern - (w.star + 1)) := by
      rw [List.drop_drop]
      congr 1
      omega
    rw [hdrop, List.take_append_drop]
  · rintro c hc rfl
    obtain ⟨i, hi, hget⟩ := List.mem_iff_getElem.1 hc
    rw [List.length_take, List.length_drop] at hi
    rw [List.getElem_take, List.getElem_drop] at hget
    refine h.plain w hw (w.star + 1 + i) (by omega) (by omega) ?_
    rw [← Array.getElem?_toList, List.getElem?_eq_some_iff]
    exact ⟨_, hget⟩
  · rw [List.length_take, List.length_drop, Array.length_toList]
    omega

/-- If the last `%` can take more, then a later part of the value can be cut from the position on. -/
theorem Aligned.exists_later (h : s.Aligned pattern) (hrange : s.InRange pattern value) (hw : s.last = some w)
    {n : Nat} (hn : w.resume < n) (hsize : n ≤ value.size)
    (hcut : Cut (pattern.toList.drop (w.star + 1)) (value.toList.drop n)) :
    ∃ m, s.inValue < m ∧ m ≤ value.size ∧ Cut (pattern.toList.drop s.inPattern) (value.toList.drop m) := by
  obtain ⟨stretch, hdrop, hplain, hlength⟩ := h.exists_stretch hrange hw
  rw [hdrop] at hcut
  obtain ⟨hle, hcut⟩ := hcut.drop hplain
  have hvalue : value.toList.length = value.size := Array.length_toList
  rw [List.length_drop] at hle
  rw [List.drop_drop] at hcut
  exact ⟨n + stretch.length, by omega, by omega, hcut⟩

theorem drop_of_getElem? {xs : Array Char} {i : Nat} {c : Char} (h : xs[i]? = some c) :
    xs.toList.drop i = c :: xs.toList.drop (i + 1) := by
  rw [← Array.getElem?_toList] at h
  obtain ⟨hi, rfl⟩ := List.getElem?_eq_some_iff.1 h
  exact List.drop_eq_getElem_cons hi

/-- A `%` at the position finds what it finds with any number of characters. -/
theorem cut_at_star_iff (hstar : pattern[s.inPattern]? = some '%') {m : Nat} (hm : m ≤ value.size) :
    Cut (pattern.toList.drop s.inPattern) (value.toList.drop m) ↔
      ∃ n, m ≤ n ∧ n ≤ value.size ∧ Cut (pattern.toList.drop (s.inPattern + 1)) (value.toList.drop n) := by
  rw [drop_of_getElem? hstar, cut_star_iff, List.length_drop, Array.length_toList]
  constructor
  · rintro ⟨k, hk, hcut⟩
    rw [List.drop_drop] at hcut
    exact ⟨m + k, by omega, by omega, hcut⟩
  · rintro ⟨n, hmn, hn, hcut⟩
    refine ⟨n - m, by omega, ?_⟩
    rwa [List.drop_drop, Nat.add_sub_cancel' hmn]

theorem cut_of_fits_iff (hfits : s.Fits pattern value) :
    Cut (pattern.toList.drop s.inPattern) (value.toList.drop s.inValue) ↔
      Cut (pattern.toList.drop (s.inPattern + 1)) (value.toList.drop (s.inValue + 1)) := by
  obtain ⟨c, d, hp, hd, hc, hfits⟩ := hfits
  rw [drop_of_getElem? hp, drop_of_getElem? hd, cut_one_iff hc]
  constructor
  · rintro ⟨d', rest, heq, -, hrest⟩
    cases heq
    exact hrest
  · exact fun hcut => ⟨d, _, rfl, hfits, hcut⟩

theorem not_cut_of_misfit (hvalue : s.inValue < value.size) (hstar : pattern[s.inPattern]? ≠ some '%')
    (hfits : ¬s.Fits pattern value) :
    ¬Cut (pattern.toList.drop s.inPattern) (value.toList.drop s.inValue) := by
  have hd := Array.getElem?_eq_getElem hvalue
  rw [drop_of_getElem? hd]
  cases hp : pattern[s.inPattern]? with
  | none =>
    rw [Array.getElem?_eq_none_iff] at hp
    rw [List.drop_eq_nil_of_le (by simpa using hp), cut_nil_iff]
    exact nofun
  | some c =>
    have hc : c ≠ '%' := fun heq => hstar (heq ▸ hp)
    rw [drop_of_getElem? hp, cut_one_iff hc]
    rintro ⟨d, rest, heq, hfit, -⟩
    cases heq
    exact hfits ⟨c, _, hp, hd, hc, hfit⟩

/-- What is found after a turn is what was found before it. A `%` at the position makes the earlier ones
superfluous: whatever they could find with more characters, it finds too. -/
theorem Aligned.finds_iff_goOn (h : s.Aligned pattern) (hrange : s.InRange pattern value)
    (hm : s.Moves pattern value (.goOn t)) : s.Finds pattern value ↔ t.Finds pattern value := by
  cases hm with
  | star hvalue hstar =>
    have hnow : s.Finds pattern value ↔
        Cut (pattern.toList.drop s.inPattern) (value.toList.drop s.inValue) := by
      refine or_iff_left_of_imp ?_
      rintro ⟨w, hw, n, hn, hsize, hcut⟩
      obtain ⟨m, hm, hsize, hcut⟩ := h.exists_later hrange hw hn hsize hcut
      obtain ⟨k, hk, hsize, hcut⟩ := (cut_at_star_iff hstar hsize).1 hcut
      exact (cut_at_star_iff hstar hrange.value_le).2 ⟨k, by omega, hsize, hcut⟩
    rw [hnow, cut_at_star_iff hstar hrange.value_le]
    constructor
    · rintro ⟨n, hn, hsize, hcut⟩
      obtain hlt | rfl := Nat.lt_or_eq_of_le hn
      · exact .inr ⟨_, rfl, n, hlt, hsize, hcut⟩
      · exact .inl hcut
    · rintro (hcut | ⟨_, ⟨⟩, n, hn, hsize, hcut⟩)
      · exact ⟨s.inValue, Nat.le_refl _, hrange.value_le, hcut⟩
      · exact ⟨n, Nat.le_of_lt hn, hsize, hcut⟩
  | fits hfits => exact or_congr_left (cut_of_fits_iff hfits)
  | back w hvalue hstar hfits hlast =>
    refine (or_iff_right (not_cut_of_misfit hvalue hstar hfits)).trans ?_
    have hresume := (hrange.last_lt w hlast).2
    constructor
    · rintro ⟨w', hw', n, hn, hsize, hcut⟩
      cases hlast.symm.trans hw'
      obtain hlt | rfl := Nat.lt_or_eq_of_le (Nat.succ_le_of_lt hn)
      · exact .inr ⟨_, rfl, n, hlt, hsize, hcut⟩
      · exact .inl hcut
    · rintro (hcut | ⟨_, ⟨⟩, n, hn, hsize, hcut⟩)
      · exact ⟨w, hlast, w.resume + 1, Nat.lt_succ_self _, by omega, hcut⟩
      · exact ⟨w, hlast, n, Nat.lt_of_succ_lt hn, hsize, hcut⟩

/-- The answer of a turn says whether anything is found. -/
theorem Aligned.finds_iff_answer (h : s.Aligned pattern) (hrange : s.InRange pattern value) {matched : Bool}
    (hm : s.Moves pattern value (.answer matched)) : s.Finds pattern value ↔ matched = true := by
  cases hm with
  | fail hvalue hstar hfits hlast =>
    refine (or_iff_right (not_cut_of_misfit hvalue hstar hfits)).trans ?_
    simp [hlast]
  | ends hvalue hpattern =>
    have hnil : value.toList.drop s.inValue = [] := List.drop_eq_nil_of_le (by simpa using hvalue)
    have hnow : s.Finds pattern value ↔ Cut (pattern.toList.drop s.inPattern) [] := by
      rw [← hnil]
      refine or_iff_left_of_imp ?_
      rintro ⟨w, hw, n, hn, hsize, hcut⟩
      obtain ⟨m, hm, hsize, -⟩ := h.exists_later hrange hw hn hsize hcut
      omega
    rw [hnow, cut_to_nil_iff]
    simp

end

/-- A scan comes to its answer by turns that read in range. -/
inductive Ends (pattern value : Array Char) : Scan → Bool → Prop
  | answer {s : Scan} {matched : Bool} : s.turn pattern value = some (.answer matched) →
    Ends pattern value s matched
  | goOn {s t : Scan} {matched : Bool} : s.turn pattern value = some (.goOn t) →
    Ends pattern value t matched → Ends pattern value s matched

theorem ends_result {pattern value : Array Char} {s : Scan} (h : s.InRange pattern value)
    (ha : s.Aligned pattern) : Ends pattern value s (s.result pattern value h) ∧
      (s.result pattern value h = true ↔ s.Finds pattern value) := by
  fun_induction result pattern value s h with
  | case1 s h t hturn ih =>
    have hm := moves_of_turn hturn
    obtain ⟨hends, hfinds⟩ := ih (ha.goOn hm)
    exact ⟨.goOn hturn hends, hfinds.trans (ha.finds_iff_goOn h hm).symm⟩
  | case2 s h matched hturn => exact ⟨.answer hturn, (ha.finds_iff_answer h (moves_of_turn hturn)).symm⟩

end Scan

/-- A scan of any pattern and value comes to an answer by turns that read in range, and it is that the value
matches exactly when it can be cut along the pattern. -/
theorem ends_result_iff_cut (pattern value : List Char) :
    Scan.Ends pattern.toArray value.toArray .start (matchesPattern pattern value) ∧
      (matchesPattern pattern value = true ↔ Cut pattern value) := by
  obtain ⟨hends, hfinds⟩ :=
    Scan.ends_result (@Scan.InRange.start pattern.toArray value.toArray) (Scan.aligned_start _)
  refine ⟨hends, hfinds.trans ?_⟩
  simp [Scan.Finds, Scan.start]

end QueryLayer.Text
