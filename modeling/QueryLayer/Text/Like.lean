import QueryLayer.Text.Lowercase

/-! # Patterns with wildcards

In a pattern `%` stands for any run of characters, `_` for exactly one, and any other character for
itself. A scan walks through the pattern and the value side by side. Where they do not fit, it goes back to
the last `%` that it passed and lets this one take one character more; what earlier ones took stays as it
is. From positions in range each turn leads to positions in range and brings the scan closer to its end,
`Scan.InRange.goOn` and `Scan.InRange.rank_lt`, so that `Scan.result` is defined by recursion on turns.
-/
namespace QueryLayer.Text

/-- A `%` that was passed, and where the value goes on after the characters that it takes. -/
structure PassedStar where
  star : Nat
  resume : Nat

/-- How far the pattern and the value have been read, and the last `%` on the way. -/
structure Scan where
  inPattern : Nat
  inValue : Nat
  last : Option PassedStar

/-- What a turn of a scan comes to. -/
inductive Turn where
  | goOn (s : Scan)
  | answer (matched : Bool)

namespace Scan

def start : Scan := ⟨0, 0, none⟩

/-- Lets the last `%` take one character more; without one the value does not match. -/
def retry (s : Scan) : Turn :=
  match s.last with
  | some w => .goOn ⟨w.star + 1, w.resume + 1, some ⟨w.star, w.resume + 1⟩⟩
  | none => .answer false

/-- One turn; `none` stands for an access out of range. -/
def turn (pattern value : Array Char) (s : Scan) : Option Turn :=
  if s.inValue < value.size then
    match pattern[s.inPattern]? with
    | some '%' => some (.goOn ⟨s.inPattern + 1, s.inValue, some ⟨s.inPattern, s.inValue⟩⟩)
    | some '_' => some (.goOn ⟨s.inPattern + 1, s.inValue + 1, s.last⟩)
    | some c =>
      match value[s.inValue]? with
      | some d => some (if c = d then .goOn ⟨s.inPattern + 1, s.inValue + 1, s.last⟩ else s.retry)
      | none => none
    | none => some s.retry
  else if s.inPattern ≤ pattern.size then
    some (.answer ((pattern.toList.drop s.inPattern).all fun c => c = '%'))
  else none

section

variable {pattern value : Array Char} {s t : Scan}

/-- The next character of the pattern takes the next one of the value. -/
def Fits (pattern value : Array Char) (s : Scan) : Prop :=
  ∃ c d, pattern[s.inPattern]? = some c ∧ value[s.inValue]? = some d ∧ c ≠ '%' ∧ (c = '_' ∨ c = d)

/-- The ways in which a turn can go: past a `%`, past a character that fits, back to the last `%` where
nothing fits, a failure there if no `%` was passed, and the answer at the end of the value. -/
inductive Moves (pattern value : Array Char) (s : Scan) : Turn → Prop
  | star (hvalue : s.inValue < value.size) (hstar : pattern[s.inPattern]? = some '%') :
    Moves pattern value s (.goOn ⟨s.inPattern + 1, s.inValue, some ⟨s.inPattern, s.inValue⟩⟩)
  | fits (h : s.Fits pattern value) : Moves pattern value s (.goOn ⟨s.inPattern + 1, s.inValue + 1, s.last⟩)
  | back (w : PassedStar) (hvalue : s.inValue < value.size) (hstar : pattern[s.inPattern]? ≠ some '%')
    (hfits : ¬s.Fits pattern value) (hlast : s.last = some w) :
    Moves pattern value s (.goOn ⟨w.star + 1, w.resume + 1, some ⟨w.star, w.resume + 1⟩⟩)
  | fail (hvalue : s.inValue < value.size) (hstar : pattern[s.inPattern]? ≠ some '%')
    (hfits : ¬s.Fits pattern value) (hlast : s.last = none) : Moves pattern value s (.answer false)
  | ends (hvalue : value.size ≤ s.inValue) (hpattern : s.inPattern ≤ pattern.size) :
    Moves pattern value s (.answer ((pattern.toList.drop s.inPattern).all fun c => c = '%'))

theorem moves_retry (hvalue : s.inValue < value.size) (hstar : pattern[s.inPattern]? ≠ some '%')
    (hfits : ¬s.Fits pattern value) : s.Moves pattern value s.retry := by
  unfold retry
  cases hlast : s.last with
  | none => exact .fail hvalue hstar hfits hlast
  | some w => exact .back w hvalue hstar hfits hlast

theorem moves_of_turn {m : Turn} (h : s.turn pattern value = some m) : s.Moves pattern value m := by
  unfold turn at h
  split at h
  · next hvalue =>
    split at h
    · next hp =>
      cases h
      exact .star hvalue hp
    · next hp =>
      cases h
      exact .fits ⟨_, _, hp, Array.getElem?_eq_getElem hvalue, by decide, .inl rfl⟩
    · next c hstar hone hp =>
      rw [Array.getElem?_eq_getElem hvalue] at h
      dsimp only at h
      split at h
      · next heq =>
        cases h
        exact .fits ⟨_, _, hp, Array.getElem?_eq_getElem hvalue, hstar, .inr heq⟩
      · next hne =>
        cases h
        refine moves_retry hvalue (by simpa [hp] using hstar) ?_
        rintro ⟨c', d, hc, hd, -, hfits⟩
        rw [hp, Option.some.injEq] at hc
        rw [Array.getElem?_eq_getElem hvalue, Option.some.injEq] at hd
        subst hc hd
        exact hfits.elim hone hne
    · next hp =>
      cases h
      exact moves_retry hvalue (by simp [hp]) (by simp [Fits, hp])
  · next hvalue =>
    split at h
    · next hpattern =>
      cases h
      exact .ends (Nat.le_of_not_lt hvalue) hpattern
    · cases h

theorem Fits.inPattern_lt (h : s.Fits pattern value) : s.inPattern < pattern.size := by
  obtain ⟨c, d, hp, -⟩ := h
  exact (Array.getElem?_eq_some_iff.1 hp).1

theorem Fits.inValue_lt (h : s.Fits pattern value) : s.inValue < value.size := by
  obtain ⟨c, d, -, hd, -⟩ := h
  exact (Array.getElem?_eq_some_iff.1 hd).1

/-- Both positions are in range, and the last `%` lies behind them. -/
structure InRange (pattern value : Array Char) (s : Scan) : Prop where
  pattern_le : s.inPattern ≤ pattern.size
  value_le : s.inValue ≤ value.size
  last_lt : ∀ w, s.last = some w → w.star < s.inPattern ∧ w.resume ≤ s.inValue

namespace InRange

theorem start : Scan.start.InRange pattern value := ⟨Nat.zero_le _, Nat.zero_le _, nofun⟩

theorem turn_ne_none (h : s.InRange pattern value) : s.turn pattern value ≠ none := by
  unfold turn
  split
  · next hvalue =>
    split
    · exact nofun
    · exact nofun
    · rw [Array.getElem?_eq_getElem hvalue]
      exact nofun
    · exact nofun
  · rw [if_pos h.pattern_le]
    exact nofun

theorem goOn (h : s.InRange pattern value) (ht : s.turn pattern value = some (.goOn t)) :
    t.InRange pattern value := by
  cases moves_of_turn ht with
  | star hvalue hstar =>
    refine ⟨(Array.getElem?_eq_some_iff.1 hstar).1, h.value_le, ?_⟩
    rintro w ⟨⟩
    exact ⟨Nat.lt_succ_self _, Nat.le_refl _⟩
  | fits hfits =>
    refine ⟨hfits.inPattern_lt, hfits.inValue_lt, fun w hw => ?_⟩
    obtain ⟨hstar, hresume⟩ := h.last_lt w hw
    exact ⟨Nat.lt_succ_of_lt hstar, Nat.le_succ_of_le hresume⟩
  | back w hvalue _ _ hlast =>
    obtain ⟨hstar, hresume⟩ := h.last_lt w hlast
    refine ⟨Nat.lt_of_lt_of_le hstar h.pattern_le, Nat.lt_of_le_of_lt hresume hvalue, ?_⟩
    rintro w ⟨⟩
    exact ⟨Nat.lt_succ_self _, Nat.le_refl _⟩

end InRange

/-- What is left to scan: the pattern behind the last `%`, then the value that this one has not taken, then
the pattern from the position on. -/
def rank (pattern value : Array Char) (s : Scan) : Nat × Nat × Nat :=
  match s.last with
  | some w => (pattern.size - w.star, value.size - w.resume, pattern.size - s.inPattern)
  | none => (pattern.size + 1, 0, pattern.size - s.inPattern)

/-- The last `%` moves on, or the value goes on later after the same one, or the pattern is read further. -/
theorem InRange.rank_lt (h : s.InRange pattern value) (ht : s.turn pattern value = some (.goOn t)) :
    Prod.Lex (· < ·) (Prod.Lex (· < ·) (· < ·)) (t.rank pattern value) (s.rank pattern value) := by
  unfold rank
  cases moves_of_turn ht with
  | star hvalue hstar =>
    have hpattern := (Array.getElem?_eq_some_iff.1 hstar).1
    dsimp only
    cases hlast : s.last with
    | none => exact .left _ _ (by omega)
    | some w =>
      have hpassed := (h.last_lt w hlast).1
      exact .left _ _ (by omega)
  | fits hfits =>
    have hpattern := hfits.inPattern_lt
    dsimp only
    cases s.last with
    | none => exact .right _ (.right _ (by omega))
    | some w => exact .right _ (.right _ (by omega))
  | back w hvalue _ _ hlast =>
    have hresume := (h.last_lt w hlast).2
    rw [hlast]
    dsimp only
    exact .right _ (.left _ _ (by omega))

end

/-- The answer of the scan. -/
def result (pattern value : Array Char) (s : Scan) (h : s.InRange pattern value) : Bool :=
  match hturn : s.turn pattern value with
  | some (.goOn t) => result pattern value t (h.goOn hturn)
  | some (.answer matched) => matched
  | none => absurd hturn h.turn_ne_none
termination_by s.rank pattern value
decreasing_by exact h.rank_lt hturn

end Scan

/-- Whether a value matches a pattern. -/
def matchesPattern (pattern value : List Char) : Bool :=
  Scan.start.result pattern.toArray value.toArray .start

/-- Whether a value matches a pattern; ignoring case compares both in lower case. -/
def like (pattern value : String) (caseSensitive : Bool) : Bool :=
  if caseSensitive then matchesPattern pattern.toList value.toList
  else matchesPattern (lower pattern).toList (lower value).toList

end QueryLayer.Text
