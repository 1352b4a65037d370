import QueryLayer.Value.Parser

/-! # Texts of numbers

The text of a number starts with a minus or a digit and goes on in characters of numbers, so that a
reader takes it as one piece: `Number.spellsNumber_text`.
-/
namespace QueryLayer

open Value

/-- Characters of numbers, the first of which starts one. -/
structure SpellsNumber (cs : List Char) : Prop where
  all : ∀ c ∈ cs, isNumberChar c = true
  start : ∃ c rest, cs = c :: rest ∧ (c.isDigit || c = '-') = true

theorem isNumberChar_of_isDigit {c : Char} (h : c.isDigit = true) : isNumberChar c = true := by
  simp [isNumberChar, h]

theorem isNumberChar_toDigits {n : Nat} {c : Char} (h : c ∈ Nat.toDigits 10 n) :
    isNumberChar c = true :=
  isNumberChar_of_isDigit (Nat.isDigit_of_mem_toDigits (by decide) (by decide) h)

theorem spellsNumber_toDigits (n : Nat) : SpellsNumber (Nat.toDigits 10 n) := by
  refine ⟨fun c hc => isNumberChar_toDigits hc, ?_⟩
  cases hd : Nat.toDigits 10 n with
  | nil => exact absurd hd Nat.toDigits_ne_nil
  | cons c rest =>
    have hc : c.isDigit = true :=
      Nat.isDigit_of_mem_toDigits (by decide) (by decide) (hd ▸ List.mem_cons_self)
    exact ⟨c, rest, rfl, by simp [hc]⟩

theorem SpellsNumber.minus {cs : List Char} (h : SpellsNumber cs) : SpellsNumber ('-' :: cs) := by
  refine ⟨?_, '-', cs, rfl, by decide⟩
  intro c hc
  rcases List.mem_cons.1 hc with rfl | hc
  · decide
  · exact h.all c hc

theorem SpellsNumber.append {cs more : List Char} (h : SpellsNumber cs)
    (hmore : ∀ c ∈ more, isNumberChar c = true) : SpellsNumber (cs ++ more) := by
  obtain ⟨c, rest, rfl, hc⟩ := h.start
  refine ⟨?_, c, rest ++ more, rfl, hc⟩
  intro d hd
  rcases List.mem_append.1 hd with hd | hd
  · exact h.all d hd
  · exact hmore d hd

theorem spellsNumber_toString (i : Int) : SpellsNumber (toString i).toList := by
  have hrepr : toString i = i.repr := rfl
  rw [hrepr, Int.repr_eq_if]
  split
  · rw [Nat.toList_repr]
    exact spellsNumber_toDigits _
  · rw [String.toList_append, Nat.toList_repr]
    exact (spellsNumber_toDigits _).minus

namespace Binary64

theorem isNumberChar_zeros {n : Nat} {c : Char} (h : c ∈ (zeros n).toList) :
    isNumberChar c = true := by
  rw [zeros, String.toList_ofList] at h
  rw [List.eq_of_mem_replicate h]
  decide

theorem isNumberChar_exponentText {e : Int} {c : Char} (h : c ∈ (exponentText e).toList) :
    isNumberChar c = true := by
  unfold exponentText at h
  split at h
  · exact (spellsNumber_toString e).all c h
  · rw [String.toList_append] at h
    rcases List.mem_append.1 h with h | h
    · rw [List.mem_singleton.1 h]
      decide
    · exact (spellsNumber_toString e).all c h

/-- Digits from a place on, after a point. -/
theorem isNumberChar_point {digits : List Char} (h : ∀ c ∈ digits, isNumberChar c = true) {c : Char}
    (hc : c ∈ '.' :: digits) : isNumberChar c = true := by
  rcases List.mem_cons.1 hc with rfl | hc
  · decide
  · exact h c hc

theorem spellsNumber_layout (d : Decimal) (range : PositionalRange) :
    SpellsNumber (layout d range).toList := by
  have hall : ∀ c ∈ Nat.toDigits 10 d.digits, isNumberChar c = true :=
    (spellsNumber_toDigits d.digits).all
  obtain ⟨first, rest, hd, hfirst⟩ := (spellsNumber_toDigits d.digits).start
  have hlead : ∀ n, 0 < n → SpellsNumber ((Nat.toDigits 10 d.digits).take n) := by
    intro n hn
    refine ⟨fun c hc => hall c (List.mem_of_mem_take hc), first, rest.take (n - 1), ?_, hfirst⟩
    rw [hd, List.take_cons hn]
  have hdrop : ∀ n, ∀ c ∈ (Nat.toDigits 10 d.digits).drop n, isNumberChar c = true :=
    fun n c hc => hall c (List.mem_of_mem_drop hc)
  unfold layout
  simp only
  split
  · split
    · simp only [String.toList_append, String.toList_ofList]
      refine ((hlead 1 (by decide)).append (by simp)).append (fun c hc => ?_) |>.append
        fun c hc => isNumberChar_exponentText hc
      rw [List.mem_singleton.1 hc]
      decide
    · simp only [String.toList_append, String.toList_ofList]
      refine ((hlead 1 (by decide)).append fun c hc => isNumberChar_point (hdrop 1) hc).append
        (fun c hc => ?_) |>.append fun c hc => isNumberChar_exponentText hc
      rw [List.mem_singleton.1 hc]
      decide
  · split
    · simp only [String.toList_append, String.toList_ofList]
      exact ((spellsNumber_toDigits d.digits).append fun c hc => isNumberChar_zeros hc).append
        (List.all_eq_true.1 rfl)
    · split
      · next hleading =>
        simp only [String.toList_append, String.toList_ofList]
        rw [List.append_assoc]
        exact (hlead _ (by omega)).append fun c hc => isNumberChar_point (hdrop _) hc
      · simp only [String.toList_append, String.toList_ofList]
        have hzero : SpellsNumber "0.".toList := ⟨List.all_eq_true.1 rfl, '0', ['.'], rfl, rfl⟩
        exact (hzero.append fun c hc => isNumberChar_zeros hc).append hall

theorem spellsNumber_text (x : Binary64) : SpellsNumber x.text.toList := by
  have hzero : SpellsNumber "0.0".toList := ⟨List.all_eq_true.1 rfl, '0', ['.', '0'], rfl, rfl⟩
  have hmagnitude : SpellsNumber
      (if x.place = 0 then "0.0" else layout (shortest x.place) Number.positional).toList := by
    split
    · exact hzero
    · exact spellsNumber_layout _ _
  unfold text
  simp only
  split
  · rw [String.toList_append]
    exact hmagnitude.minus
  · exact hmagnitude

end Binary64

theorem Number.spellsNumber_text (n : Number) : SpellsNumber n.text.toList := by
  cases n with
  | integer i _ => exact spellsNumber_toString i
  | double x => exact Binary64.spellsNumber_text x

end QueryLayer
