import Mathlib.Data.Nat.Digits.Defs
import QueryLayer.Proofs.Time.Calendar
import QueryLayer.Proofs.Value.Legible
import QueryLayer.Time.Reading

/-! # Texts of dates that are read back

The text of a date in range reads as that date, whatever the sign and the length of its year:
`Time.dateOfText?_text`.
-/
namespace QueryLayer

namespace Time

variable {digits rest : List Char} {most width n : Nat}

/-! ## Numbers in front of a text -/

/-- No digit goes on a number that ends here. -/
def NoDigit (rest : List Char) : Prop := ∀ c ∈ rest.head?, c.isDigit = false

theorem noDigit_nil : NoDigit [] := fun _ h => nomatch h

theorem noDigit_cons {c : Char} (h : c.isDigit = false) : NoDigit (c :: rest) := fun d hd => by
  obtain rfl : c = d := Option.some.inj hd
  exact h

theorem takeWhile_take_of_noDigit (h : NoDigit rest) (n : Nat) : (rest.take n).takeWhile Char.isDigit = [] := by
  cases rest with
  | nil => simp
  | cons c rest =>
    cases n with
    | zero => rfl
    | succ n => simp [h c rfl]

/-- Digits are read as far as they go. -/
theorem number?_append (hall : ∀ c ∈ digits, c.isDigit = true) (hne : digits ≠ []) (hmost : digits.length ≤ most)
    (hrest : NoDigit rest) : number? most (digits ++ rest) = some (digitsValue digits, rest) := by
  have htaken : ((digits ++ rest).take most).takeWhile Char.isDigit = digits := by
    rw [List.take_append, List.take_of_length_le hmost, List.takeWhile_append_of_pos hall,
      takeWhile_take_of_noDigit hrest, List.append_nil]
  unfold number?
  dsimp only
  rw [htaken, List.drop_left, if_neg (by simpa using hne)]

theorem fixed?_append (hall : ∀ c ∈ digits, c.isDigit = true) (rest : List Char) :
    fixed? digits.length (digits ++ rest) = some (digitsValue digits, rest) := by
  have hdigits : digits.all Char.isDigit = true := List.all_eq_true.2 hall
  unfold fixed?
  dsimp only
  rw [List.take_left, List.drop_left, hdigits]
  simp

theorem fixed?_of_not_isDigit {c : Char} (h : c.isDigit = false) (width : Nat) :
    fixed? (width + 1) (c :: rest) = none := by
  simp [fixed?, h]

theorem char?_cons {accepts : Char → Bool} {c : Char} (h : accepts c = true) :
    char? accepts (c :: rest) = some rest := if_pos h

theorem isBlank_of_isDigit {c : Char} (h : c.isDigit = true) : isBlank c = false := by
  have hbounds : 48 ≤ c.toNat ∧ c.toNat ≤ 57 := by
    simpa [Char.isDigit, Char.le_def, UInt32.le_iff_toNat_le] using h
  simp only [isBlank, Bool.or_eq_false_iff, Bool.and_eq_false_iff, decide_eq_false_iff_not]
  omega

theorem skipBlanks_cons {c : Char} (h : isBlank c = false) : skipBlanks (c :: rest) = c :: rest := by
  simp [skipBlanks, h]

theorem skipBlanks_append (hall : ∀ c ∈ digits, c.isDigit = true) (hne : digits ≠ []) (rest : List Char) :
    skipBlanks (digits ++ rest) = digits ++ rest := by
  cases digits with
  | nil => exact absurd rfl hne
  | cons c digits => exact skipBlanks_cons (isBlank_of_isDigit (hall c List.mem_cons_self))

/-! ## Padded numbers -/

theorem toList_padded (width n : Nat) : (Date.padded width n).toList =
    List.replicate (width - (Nat.toDigits 10 n).length) '0' ++ Nat.toDigits 10 n := by
  have hdigits : (toString n).toList = Nat.toDigits 10 n := Nat.toList_repr
  have hlength : (toString n).length = (Nat.toDigits 10 n).length := by rw [← String.length_toList, hdigits]
  unfold Date.padded
  dsimp only
  rw [String.toList_append, String.toList_ofList, hdigits, hlength]

theorem isDigit_padded (width n : Nat) : ∀ c ∈ (Date.padded width n).toList, c.isDigit = true := by
  intro c hc
  rw [toList_padded] at hc
  rcases List.mem_append.1 hc with hzero | hdigit
  · rw [List.eq_of_mem_replicate hzero]
    rfl
  · exact Nat.isDigit_of_mem_toDigits (by decide) (by decide) hdigit

theorem padded_ne_nil (width n : Nat) : (Date.padded width n).toList ≠ [] := by
  rw [toList_padded]
  exact List.append_ne_nil_of_right_ne_nil _ Nat.toDigits_ne_nil

theorem length_padded (hwidth : 0 < width) (hn : n < 10 ^ width) : (Date.padded width n).toList.length = width := by
  have hdigits := Nat.toDigits_length 10 n width hwidth hn
  rw [toList_padded, List.length_append, List.length_replicate]
  omega

/-- Zeros in front do not change a number. -/
theorem digitsValue_padded (width n : Nat) : digitsValue (Date.padded width n).toList = n := by
  have hzeros : ∀ count, (List.replicate count '0').foldl (fun acc c => acc * 10 + (c.toNat - '0'.toNat)) 0 = 0 := by
    intro count
    induction count with
    | zero => rfl
    | succ count ih => simpa [List.replicate_succ] using ih
  rw [toList_padded, digitsValue, List.foldl_append, hzeros]
  exact Value.digitsValue_toDigits n

theorem number?_padded (hwidth : 0 < width) (hn : n < 10 ^ width) (hrest : NoDigit rest) :
    number? width ((Date.padded width n).toList ++ rest) = some (n, rest) := by
  have hmost := Nat.le_of_eq (length_padded hwidth hn)
  rw [number?_append (isDigit_padded width n) (padded_ne_nil width n) hmost hrest, digitsValue_padded]

theorem fixed?_padded (hwidth : 0 < width) (hn : n < 10 ^ width) (rest : List Char) :
    fixed? width ((Date.padded width n).toList ++ rest) = some (n, rest) := by
  have hfixed := fixed?_append (isDigit_padded width n) rest
  rwa [length_padded hwidth hn, digitsValue_padded] at hfixed

theorem skipBlanks_padded (width n : Nat) (rest : List Char) :
    skipBlanks ((Date.padded width n).toList ++ rest) = (Date.padded width n).toList ++ rest :=
  skipBlanks_append (isDigit_padded width n) (padded_ne_nil width n) rest

/-! ## Texts of dates -/

variable {d : Date} {year : Int}

/-- After a sign the year has all the digits that follow. -/
theorem number?_signed (n : Nat) (hrest : NoDigit rest) :
    number? ((Date.padded 4 n).toList ++ rest).length ((Date.padded 4 n).toList ++ rest) = some (n, rest) := by
  have hmost : (Date.padded 4 n).toList.length ≤ ((Date.padded 4 n).toList ++ rest).length := by
    rw [List.length_append]
    exact Nat.le_add_right _ _
  rw [number?_append (isDigit_padded 4 n) (padded_ne_nil 4 n) hmost hrest, digitsValue_padded]

theorem year?_of_isDigit (hall : ∀ c ∈ digits, c.isDigit = true) (hne : digits ≠ []) (rest : List Char) :
    year? (digits ++ rest) = (number? 4 (digits ++ rest)).map fun r => ((r.1 : Int), r.2) := by
  cases digits with
  | nil => exact absurd rfl hne
  | cons c digits =>
    have hc := hall c List.mem_cons_self
    rw [List.cons_append, year?.eq_def]
    split
    · next heq => exact absurd hc (by rw [(List.cons.inj heq).1]; decide)
    · next heq => exact absurd hc (by rw [(List.cons.inj heq).1]; decide)
    · rfl

theorem year?_minus (rest : List Char) :
    year? ('-' :: rest) = (number? rest.length rest).map fun r => (-(r.1 : Int), r.2) := rfl

theorem year?_plus (rest : List Char) :
    year? ('+' :: rest) = (number? rest.length rest).map fun r => ((r.1 : Int), r.2) := rfl

theorem toList_yearText (year : Int) : (Date.yearText year).toList =
    if year < 0 then '-' :: (Date.padded 4 year.natAbs).toList
    else if 9999 < year then '+' :: (Date.padded 4 year.natAbs).toList
    else (Date.padded 4 year.natAbs).toList := by
  unfold Date.yearText
  split
  · simp
  · split <;> simp

theorem year?_yearText (hrest : NoDigit rest) :
    year? ((Date.yearText year).toList ++ rest) = some (year, rest) := by
  rw [toList_yearText]
  split
  · next hnegative =>
    have hyear : -(year.natAbs : Int) = year := by omega
    rw [List.cons_append, year?_minus, number?_signed year.natAbs hrest, Option.map_some, hyear]
  · next hnegative =>
    have hyear : (year.natAbs : Int) = year := by omega
    split
    · rw [List.cons_append, year?_plus, number?_signed year.natAbs hrest, Option.map_some, hyear]
    · have hlength : year.natAbs < 10 ^ 4 := by omega
      rw [year?_of_isDigit (isDigit_padded 4 _) (padded_ne_nil 4 _), number?_padded (by decide) hlength hrest,
        Option.map_some, hyear]

/-- A year starts with a digit or with a sign. -/
theorem skipBlanks_yearText (year : Int) (rest : List Char) :
    skipBlanks ((Date.yearText year).toList ++ rest) = (Date.yearText year).toList ++ rest := by
  rw [toList_yearText]
  split
  · exact skipBlanks_cons (by decide)
  · split
    · exact skipBlanks_cons (by decide)
    · exact skipBlanks_padded 4 _ rest

theorem toList_text (d : Date) : d.text.toList = (Date.yearText d.year).toList ++
    '-' :: ((Date.padded 2 d.month).toList ++ '-' :: (Date.padded 2 d.day).toList) := by
  simp [Date.text]

theorem month_lt (h : d.Proper) : d.month < 10 ^ 2 := Nat.lt_of_le_of_lt h.month_le (by decide)

theorem day_lt (h : d.Proper) : d.day < 10 ^ 2 :=
  Nat.lt_of_le_of_lt (Nat.le_trans h.day_le (Date.daysInMonth_le _ _)) (by decide)

theorem date?_text (h : d.Valid) : date? d.text = some d := by
  have hhyphen : ∀ rest, NoDigit ('-' :: rest) := fun rest => noDigit_cons (by decide)
  have hlast : number? 2 (Date.padded 2 d.day).toList = some (d.day, []) := by
    rw [← number?_padded (by decide) (day_lt h.proper) noDigit_nil, List.append_nil]
  have hskip := skipBlanks_padded 2 d.day []
  rw [List.append_nil] at hskip
  simp only [date?, toList_text, skipBlanks_yearText, year?_yearText (hhyphen _), Option.bind_eq_bind,
    Option.bind_some, char?_cons, decide_true, skipBlanks_padded,
    number?_padded (by decide) (month_lt h.proper) (hhyphen _), hskip, hlast, List.isEmpty_nil, if_true]
  exact if_pos h

/-- A date alone is no date with a time. -/
theorem dateTime?_text (h : d.Proper) : dateTime? d.text = none := by
  by_cases hplain : 0 ≤ d.year ∧ d.year ≤ 9999
  · have hyear : (Date.yearText d.year).toList = (Date.padded 4 d.year.natAbs).toList := by
      rw [toList_yearText, if_neg (by omega), if_neg (by omega)]
    have hlength : d.year.natAbs < 10 ^ 4 := by omega
    have hlast : fixed? 2 (Date.padded 2 d.day).toList = some (d.day, []) := by
      rw [← fixed?_padded (by decide) (day_lt h) [], List.append_nil]
    simp only [dateTime?, toList_text, hyear, fixed?_padded (by decide) hlength, Option.bind_eq_bind,
      Option.bind_some, char?_cons, decide_true, fixed?_padded (by decide) (month_lt h), hlast]
    rfl
  · have hsign : ∃ c rest, d.text.toList = c :: rest ∧ c.isDigit = false := by
      rw [toList_text, toList_yearText]
      split
      · exact ⟨_, _, rfl, by decide⟩
      · rw [if_pos (by omega)]
        exact ⟨_, _, rfl, by decide⟩
    obtain ⟨c, rest, htext, hc⟩ := hsign
    rw [dateTime?, htext, fixed?_of_not_isDigit hc]
    rfl

/-- The text of a date reads as it. -/
theorem dateOfText?_text (h : d.Valid) : dateOfText? d.text = some d := by
  rw [dateOfText?, dateTime?_text h.proper, date?_text h]
  rfl

theorem valid_of_ofYmd? {month day : Nat} (h : Date.ofYmd? year month day = some d) : d.Valid := by
  obtain ⟨hvalid, heq⟩ := Option.ite_none_right_eq_some.1 h
  obtain rfl := Option.some.inj heq
  exact hvalid

theorem valid_of_date? {s : String} (h : date? s = some d) : d.Valid := by
  simp only [date?, Option.bind_eq_bind, Option.bind_eq_some_iff] at h
  obtain ⟨_, -, _, -, _, -, _, -, _, -, h⟩ := h
  exact valid_of_ofYmd? (Option.ite_none_right_eq_some.1 h).2

theorem valid_of_dateTime? {s : String} (h : dateTime? s = some d) : d.Valid := by
  simp only [dateTime?, Option.bind_eq_bind, Option.bind_eq_some_iff] at h
  obtain ⟨_, -, _, -, _, -, _, -, _, -, _, -, _, -, _, -, _, -, _, -, _, -, h⟩ := h
  exact valid_of_ofYmd? (Option.ite_none_right_eq_some.1 h).2

/-- What is read from a text is in range. -/
theorem valid_of_dateOfText? {s : String} (h : dateOfText? s = some d) : d.Valid := by
  unfold dateOfText? at h
  cases hdateTime : dateTime? s with
  | some e =>
    rw [hdateTime] at h
    exact valid_of_dateTime? (hdateTime.trans h)
  | none =>
    rw [hdateTime] at h
    exact valid_of_date? h

end Time

end QueryLayer
