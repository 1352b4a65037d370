import QueryLayer.Proofs.Number.Shortest
import QueryLayer.Proofs.Value.Legible

/-! # Doubles are read back

Whatever way the digits of a decimal are laid out, with a point among them, behind them or before them, or with an
exponent, they are read as digits of the same decimal with zeros behind at most. So every number comes back from
its text, and values with one text are one value: `Value.compact_injective`.
-/
namespace QueryLayer

namespace Value

variable {whole fraction digits tail : List Char} {negative : Bool} {exponent : Int}

/-! ## Digits -/

theorem digitsValue_append (digits more : List Char) : digitsValue (digits ++ more) =
    more.foldl (fun acc c => acc * 10 + (c.toNat - '0'.toNat)) (digitsValue digits) := List.foldl_append

theorem digitsValue_zeros_append (k : Nat) (digits : List Char) :
    digitsValue (List.replicate k '0' ++ digits) = digitsValue digits := by
  induction k with
  | zero => rfl
  | succ k ih => exact ih

theorem digitsValue_append_zeros (digits : List Char) (k : Nat) :
    digitsValue (digits ++ List.replicate k '0') = digitsValue digits * 10 ^ k := by
  induction k with
  | zero => rw [List.replicate_zero, List.append_nil, Nat.pow_zero, Nat.mul_one]
  | succ k ih =>
    rw [List.replicate_succ', ← List.append_assoc, digitsValue_append, ih, Nat.pow_succ, ← Nat.mul_assoc]
    rfl

/-- The digits of a whole number: without a zero in front, unless it is all of it. -/
structure IsWhole (cs : List Char) : Prop where
  digits : ∀ c ∈ cs, c.isDigit = true
  ne_nil : cs ≠ []
  lead : cs.length ≤ 1 ∨ cs.head? ≠ some '0'

theorem isDigit_zero : ∀ c ∈ ['0'], c.isDigit = true := fun _ hc => List.mem_singleton.1 hc ▸ rfl

theorem isWhole_zero : IsWhole ['0'] := ⟨isDigit_zero, List.cons_ne_nil _ _, Or.inl (Nat.le_refl 1)⟩

theorem IsWhole.accepted (h : IsWhole whole) :
    (whole.isEmpty || (whole.length > 1 && whole.head? = some '0')) = false := by
  have hnonempty : whole.isEmpty = false := List.isEmpty_eq_false_iff.2 h.ne_nil
  rw [hnonempty, Bool.false_or, Bool.and_eq_false_iff, decide_eq_false_iff_not, decide_eq_false_iff_not]
  exact h.lead.imp Nat.not_lt.2 id

theorem IsWhole.head_ne_minus (h : IsWhole whole) (rest more : List Char) : whole ++ rest ≠ '-' :: more := by
  obtain ⟨c, cs, rfl⟩ := List.exists_cons_of_ne_nil h.ne_nil
  intro heq
  obtain ⟨rfl, -⟩ := List.cons.inj heq
  exact absurd (h.digits '-' List.mem_cons_self) (by decide)

/-- Digits are taken as far as they go. -/
theorem span_digits (hdigits : ∀ c ∈ digits, c.isDigit = true) (htail : ∀ c ∈ tail.head?, c.isDigit = false) :
    (digits ++ tail).takeWhile Char.isDigit = digits ∧ (digits ++ tail).dropWhile Char.isDigit = tail := by
  rw [List.takeWhile_append_of_pos hdigits, List.dropWhile_append_of_pos hdigits]
  cases tail with
  | nil => exact ⟨List.append_nil digits, rfl⟩
  | cons c tail =>
    have hc := htail c rfl
    rw [List.takeWhile_cons_of_neg (by simp [hc]), List.dropWhile_cons_of_neg (by simp [hc]), List.append_nil]
    exact ⟨rfl, rfl⟩

theorem noDigit_nil : ∀ c ∈ ([] : List Char).head?, c.isDigit = false := fun _ h => nomatch h

/-! ## Texts of numbers -/

/-- Characters behind a minus or not. -/
def signed (negative : Bool) (cs : List Char) : List Char := if negative then '-' :: cs else cs

/-- What is read when the digits of a whole number are taken. -/
def goOn? (negative : Bool) (whole : List Char) : List Char → Option (Option Number)
  | [] => some (Number.ofIntegerText negative (digitsValue whole))
  | '.' :: more =>
    let fraction := more.takeWhile Char.isDigit
    if fraction.isEmpty then none
    else do
      let e ← exponentPart? (more.dropWhile Char.isDigit)
      pure (Number.ofDecimalText negative (digitsValue (whole ++ fraction)) (e - fraction.length))
  | more => do
    let e ← exponentPart? more
    pure (Number.ofDecimalText negative (digitsValue whole) e)

theorem numberOfText?_signed (hwhole : IsWhole whole) (htail : ∀ c ∈ tail.head?, c.isDigit = false)
    (negative : Bool) : numberOfText? (signed negative (whole ++ tail)) = goOn? negative whole tail := by
  obtain ⟨htake, hdrop⟩ := span_digits hwhole.digits htail
  cases negative with
  | false =>
    unfold signed numberOfText?
    rw [if_neg Bool.false_ne_true]
    split
    next negative body hbody =>
    split at hbody
    · next rest h => exact absurd h (hwhole.head_ne_minus _ rest)
    · cases hbody
      simp only [htake, hdrop, hwhole.accepted, Bool.false_eq_true, if_false]
      rfl
  | true =>
    simp only [signed, if_true, numberOfText?, htake, hdrop, hwhole.accepted, Bool.false_eq_true, if_false]
    rfl

/-- A number with digits on both sides of a point, and an exponent or none. -/
theorem numberOfText?_point (hwhole : IsWhole whole) (hfraction : ∀ c ∈ fraction, c.isDigit = true)
    (hne : fraction ≠ []) (htail : ∀ c ∈ tail.head?, c.isDigit = false) (he : exponentPart? tail = some exponent)
    (negative : Bool) : numberOfText? (signed negative (whole ++ '.' :: (fraction ++ tail))) =
      some (Number.ofDecimalText negative (digitsValue (whole ++ fraction)) (exponent - fraction.length)) := by
  obtain ⟨htake, hdrop⟩ := span_digits hfraction htail
  have hnonempty : fraction.isEmpty = false := List.isEmpty_eq_false_iff.2 hne
  have hpoint : ∀ c ∈ ('.' :: (fraction ++ tail)).head?, c.isDigit = false := fun c hc => Option.some.inj hc ▸ rfl
  rw [numberOfText?_signed hwhole hpoint, goOn?, htake, hdrop, hnonempty, he]
  rfl

/-- A whole number with an exponent. -/
theorem numberOfText?_exponent (hwhole : IsWhole whole) (he : exponentPart? ('e' :: tail) = some exponent)
    (negative : Bool) : numberOfText? (signed negative (whole ++ 'e' :: tail)) =
      some (Number.ofDecimalText negative (digitsValue whole) exponent) := by
  have hletter : ∀ c ∈ ('e' :: tail).head?, c.isDigit = false := fun c hc => Option.some.inj hc ▸ rfl
  rw [numberOfText?_signed hwhole hletter, goOn?]
  · rw [he]
    rfl
  · exact fun h => List.cons_ne_nil _ _ h
  · exact fun more h => absurd (List.cons.inj h).1 (by decide)

/-! ## Exponents -/

theorem isDigit_toDigits (n : Nat) : ∀ c ∈ Nat.toDigits 10 n, c.isDigit = true :=
  fun _ hc => Nat.isDigit_of_mem_toDigits (by decide) (by decide) hc

theorem exponentPart?_signed (n : Nat) : exponentPart? ('e' :: '+' :: Nat.toDigits 10 n) = some (n : Int) ∧
    exponentPart? ('e' :: '-' :: Nat.toDigits 10 n) = some (-(n : Int)) := by
  have hdigits : ((Nat.toDigits 10 n).isEmpty || !(Nat.toDigits 10 n).all Char.isDigit) = false := by
    rw [List.all_eq_true.2 (isDigit_toDigits n), List.isEmpty_eq_false_iff.2 Nat.toDigits_ne_nil]
    rfl
  constructor
  · simp [exponentPart?, hdigits, digitsValue_toDigits]
  · simp [exponentPart?, hdigits, digitsValue_toDigits]

theorem exponentPart?_exponentText (e : Int) :
    exponentPart? ('e' :: (Binary64.exponentText e).toList) = some e := by
  have htext : toString e = e.repr := rfl
  unfold Binary64.exponentText
  rw [htext, Int.repr_eq_if]
  by_cases hsign : 0 ≤ e
  · obtain ⟨n, rfl⟩ := Int.eq_ofNat_of_zero_le hsign
    rw [if_neg (Int.not_lt.2 hsign), if_pos hsign, Int.toNat_natCast, String.toList_append, Nat.toList_repr]
    exact (exponentPart?_signed n).1
  · obtain ⟨n, rfl⟩ := Int.exists_eq_neg_ofNat (Int.le_of_not_le hsign)
    rw [if_pos (Int.not_le.1 hsign), if_neg hsign, Int.neg_neg, Int.toNat_natCast, String.toList_append,
      Nat.toList_repr]
    exact (exponentPart?_signed n).2

/-! ## Layouts -/

section

variable {n : Nat}

/-- The first digits of a positive number. -/
theorem isWhole_take (hn : 0 < n) {count : Nat} (hcount : 0 < count) : IsWhole ((Nat.toDigits 10 n).take count) := by
  obtain ⟨first, rest, hdigits⟩ := List.exists_cons_of_ne_nil (Nat.toDigits_ne_nil (b := 10) (n := n))
  have hhead := head?_toDigits_of_pos hn
  refine ⟨fun c hc => isDigit_toDigits n c (List.mem_of_mem_take hc), ?_, Or.inr ?_⟩
  · rw [hdigits, List.take_cons hcount]
    exact List.cons_ne_nil _ _
  · rw [hdigits] at hhead ⊢
    rw [List.take_cons hcount]
    exact hhead

theorem isWhole_append_zeros (hn : 0 < n) (k : Nat) : IsWhole (Nat.toDigits 10 n ++ List.replicate k '0') := by
  obtain ⟨first, rest, hdigits⟩ := List.exists_cons_of_ne_nil (Nat.toDigits_ne_nil (b := 10) (n := n))
  have hhead := head?_toDigits_of_pos hn
  refine ⟨fun c hc => ?_, List.append_ne_nil_of_left_ne_nil Nat.toDigits_ne_nil _, Or.inr ?_⟩
  · rcases List.mem_append.1 hc with hc | hc
    · exact isDigit_toDigits n c hc
    · rw [List.eq_of_mem_replicate hc]
      rfl
  · rw [hdigits] at hhead ⊢
    exact hhead

/-- Digits around a point. -/
theorem numberOfText?_split (hn : 0 < n) {count : Nat} (hcount : 0 < count)
    (hlength : count < (Nat.toDigits 10 n).length) (htail : ∀ c ∈ tail.head?, c.isDigit = false)
    (he : exponentPart? tail = some exponent) (negative : Bool) :
    numberOfText? (signed negative
      ((Nat.toDigits 10 n).take count ++ '.' :: ((Nat.toDigits 10 n).drop count ++ tail))) =
      some (Number.ofDecimalText negative n (exponent - ((Nat.toDigits 10 n).length - count : Nat))) := by
  have hne : (Nat.toDigits 10 n).drop count ≠ [] := by
    rw [Ne, List.drop_eq_nil_iff]
    omega
  have hread := numberOfText?_point (isWhole_take hn hcount)
    (fun c hc => isDigit_toDigits n c (List.mem_of_mem_drop hc)) hne htail he negative
  rwa [List.take_append_drop, digitsValue_toDigits, List.length_drop] at hread

/-- A digit, the others behind a point, and the exponent. -/
theorem numberOfText?_scientific (hn : 0 < n) (e : Int) (negative : Bool) :
    numberOfText? (signed negative ((Nat.toDigits 10 n).take 1 ++
      ((if ((Nat.toDigits 10 n).drop 1).isEmpty then [] else '.' :: (Nat.toDigits 10 n).drop 1) ++
        'e' :: (Binary64.exponentText (e + (Nat.toDigits 10 n).length - 1)).toList))) =
      some (Number.ofDecimalText negative n e) := by
  have hexponent := exponentPart?_exponentText (e + (Nat.toDigits 10 n).length - 1)
  have hpos : 0 < (Nat.toDigits 10 n).length := Nat.length_toDigits_pos
  by_cases hrest : (Nat.toDigits 10 n).drop 1 = []
  · have hlength : (Nat.toDigits 10 n).length = 1 := by
      rw [List.drop_eq_nil_iff] at hrest
      omega
    have htake : (Nat.toDigits 10 n).take 1 = Nat.toDigits 10 n := List.take_of_length_le (by omega)
    have hread := numberOfText?_exponent (isWhole_take hn Nat.one_pos) hexponent negative
    have hsame : e + ((1 : Nat) : Int) - 1 = e := by omega
    rw [htake, digitsValue_toDigits, hlength, hsame] at hread
    rw [hrest, htake, hlength, hsame]
    exact hread
  · have hlength : 1 < (Nat.toDigits 10 n).length := by
      rw [List.drop_eq_nil_iff] at hrest
      omega
    have hletter : ∀ c ∈ ('e' :: (Binary64.exponentText (e + (Nat.toDigits 10 n).length - 1)).toList).head?,
        c.isDigit = false := fun c hc => Option.some.inj hc ▸ rfl
    have hread := numberOfText?_split hn Nat.one_pos hlength hletter hexponent negative
    have hsame : e + (Nat.toDigits 10 n).length - 1 - ((Nat.toDigits 10 n).length - 1 : Nat) = e := by omega
    rw [hsame] at hread
    rw [List.isEmpty_eq_false_iff.2 hrest, if_neg Bool.false_ne_true]
    exact hread

/-- Zeros behind a point before the digits. -/
theorem numberOfText?_small (k : Nat) (negative : Bool) :
    numberOfText? (signed negative ('0' :: '.' :: (List.replicate k '0' ++ Nat.toDigits 10 n))) =
      some (Number.ofDecimalText negative n (0 - (k + (Nat.toDigits 10 n).length : Nat))) := by
  have hdigits : ∀ c ∈ List.replicate k '0' ++ Nat.toDigits 10 n, c.isDigit = true := by
    intro c hc
    rcases List.mem_append.1 hc with hc | hc
    · rw [List.eq_of_mem_replicate hc]
      rfl
    · exact isDigit_toDigits n c hc
  have hread := numberOfText?_point isWhole_zero hdigits (List.append_ne_nil_of_right_ne_nil _ Nat.toDigits_ne_nil)
    noDigit_nil rfl negative
  have hvalue : digitsValue (['0'] ++ (List.replicate k '0' ++ Nat.toDigits 10 n)) = n :=
    (digitsValue_zeros_append (k + 1) (Nat.toDigits 10 n)).trans (digitsValue_toDigits n)
  rw [hvalue, List.length_append, List.length_replicate, List.append_nil] at hread
  exact hread

/-- Zeros behind the digits, and one behind the point. -/
theorem numberOfText?_large (hn : 0 < n) (k : Nat) (negative : Bool) :
    numberOfText? (signed negative (Nat.toDigits 10 n ++ List.replicate k '0' ++ ['.', '0'])) =
      some (Number.ofDecimalText negative (n * 10 ^ (k + 1)) (-1)) := by
  have hread := numberOfText?_point (isWhole_append_zeros hn k) isDigit_zero (List.cons_ne_nil _ _) noDigit_nil rfl
    negative
  have hvalue : digitsValue (Nat.toDigits 10 n ++ List.replicate k '0' ++ ['0']) = n * 10 ^ (k + 1) := by
    rw [List.append_assoc, ← List.replicate_succ', digitsValue_append_zeros, digitsValue_toDigits]
  rw [hvalue] at hread
  exact hread

end

/-- The digits of a decimal are read back, with zeros behind them where it is laid out as a whole number. -/
theorem numberOfText?_layout (d : Binary64.Decimal) (hd : 0 < d.digits) (range : PositionalRange) (negative : Bool) :
    ∃ k : Nat, (k = 0 ∨ d.exponent - k = -1) ∧ numberOfText? (signed negative (Binary64.layout d range).toList) =
      some (Number.ofDecimalText negative (d.digits * 10 ^ k) (d.exponent - k)) := by
  obtain ⟨digits, exponent⟩ := d
  dsimp only at hd ⊢
  have hpos : 0 < (Nat.toDigits 10 digits).length := Nat.length_toDigits_pos
  have hsame : digits * 10 ^ 0 = digits := Nat.mul_one digits
  unfold Binary64.layout
  dsimp only
  split
  · refine ⟨0, Or.inl rfl, ?_⟩
    have hread := numberOfText?_scientific hd exponent negative
    rw [hsame, Int.natCast_zero, Int.sub_zero, ← hread]
    refine congrArg (fun cs => numberOfText? (signed negative cs)) ?_
    simp only [String.toList_append, String.toList_ofList, apply_ite String.toList, List.append_assoc]
    rfl
  · split
    · next hwhole =>
      refine ⟨exponent.toNat + 1, Or.inr (by omega), ?_⟩
      have hexponent : exponent - (exponent.toNat + 1 : Nat) = -1 := by omega
      rw [hexponent, ← numberOfText?_large hd exponent.toNat negative]
      refine congrArg (fun cs => numberOfText? (signed negative cs)) ?_
      simp only [String.toList_append, String.toList_ofList, Binary64.zeros]
      rfl
    · split
      · next hleading =>
        refine ⟨0, Or.inl rfl, ?_⟩
        have hcount : 0 < (exponent + (Nat.toDigits 10 digits).length - 1 + 1).toNat := by omega
        have hread := numberOfText?_split hd hcount (by omega) noDigit_nil rfl negative
        have hexponent : (0 : Int) - ((Nat.toDigits 10 digits).length -
            (exponent + (Nat.toDigits 10 digits).length - 1 + 1).toNat : Nat) = exponent := by omega
        rw [hexponent] at hread
        rw [hsame, Int.natCast_zero, Int.sub_zero, ← hread]
        refine congrArg (fun cs => numberOfText? (signed negative cs)) ?_
        simp only [String.toList_append, String.toList_ofList, List.append_assoc, List.append_nil]
        rfl
      · next hleading =>
        refine ⟨0, Or.inl rfl, ?_⟩
        have hread := numberOfText?_small (n := digits)
          (-(exponent + (Nat.toDigits 10 digits).length - 1) - 1).toNat negative
        have hexponent : (0 : Int) - ((-(exponent + (Nat.toDigits 10 digits).length - 1) - 1).toNat +
            (Nat.toDigits 10 digits).length : Nat) = exponent := by omega
        rw [hexponent] at hread
        rw [hsame, Int.natCast_zero, Int.sub_zero, ← hread]
        refine congrArg (fun cs => numberOfText? (signed negative cs)) ?_
        simp only [String.toList_append, String.toList_ofList, Binary64.zeros, List.append_assoc]
        rfl

theorem toList_text_double {place : Nat} (hplace : 0 < place) (negative : Bool) (hfinite : place < Binary64.limit) :
    (Number.double ⟨negative, place, hfinite⟩).text.toList =
      signed negative (Binary64.layout (Binary64.shortest place) Number.positional).toList := by
  have hne : place ≠ 0 := Nat.ne_of_gt hplace
  unfold Number.text Binary64.text signed
  dsimp only
  rw [if_neg hne]
  cases negative with
  | false => rw [if_neg Bool.false_ne_true, if_neg Bool.false_ne_true]
  | true => rw [if_pos rfl, if_pos rfl, String.toList_append]; rfl

/-- A double is what its text reads as. -/
theorem reread?_double (x : Binary64) : reread? (.double x) = some (.double x) := by
  obtain ⟨negative, place, hfinite⟩ := x
  rcases Nat.eq_zero_or_pos place with rfl | hplace
  · have hzeros : ∀ zero ∈ [Binary64.zero, Binary64.negativeZero],
        reread? (.double zero) = some (.double zero) := by decide +kernel
    cases negative with
    | false => exact hzeros Binary64.zero List.mem_cons_self
    | true => exact hzeros Binary64.negativeZero (List.mem_cons_of_mem _ List.mem_cons_self)
  · rw [reread?, toList_text_double hplace]
    have hreads := Binary64.reads_shortest hplace
    have hleast := Binary64.le_exponent_shortest hplace
    generalize Binary64.shortest place = d at hreads hleast ⊢
    obtain ⟨digits, exponent⟩ := d
    dsimp only at hleast
    obtain ⟨k, hk, hread⟩ := numberOfText?_layout ⟨digits, exponent⟩ (Binary64.digits_pos hplace hreads)
      Number.positional negative
    dsimp only at hk hread
    have hshifted : (Binary64.interval place).Reads ⟨digits * 10 ^ k, exponent - k⟩ := by
      rw [Binary64.Interval.reads_shift_iff, Int.sub_add_cancel]
      exact hreads
    have hdouble := Binary64.ofDecimal?_of_reads negative hplace hfinite hshifted (by dsimp only; omega)
    dsimp only at hdouble
    rw [hread, Option.join_some, Number.ofDecimalText, hdouble]
    rfl

/-- A number is what its text reads as. -/
theorem reread?_eq (n : Number) : reread? n = some n := by
  cases n with
  | integer i h => exact reread?_integer i h
  | double x => exact reread?_double x

/-! ## Values -/

mutual

theorem spelled_eq_true (v : Value) : v.spelled = true := by
  match v with
  | null | bool _ | text _ => rfl
  | number n =>
    have hread : numberOfText? n.text.toList = some (some n) := Option.join_eq_some_iff.1 (reread?_eq n)
    rw [spelled, hread]
    rfl
  | array items => exact itemsSpelled_eq_true items
  | object members => exact membersSpelled_eq_true members

theorem itemsSpelled_eq_true (items : List Value) : itemsSpelled items = true := by
  match items with
  | [] => rfl
  | v :: items =>
    rw [itemsSpelled, spelled_eq_true v, itemsSpelled_eq_true items]
    rfl

theorem membersSpelled_eq_true (members : List (String × Value)) : membersSpelled members = true := by
  match members with
  | [] => rfl
  | (_, v) :: members =>
    rw [membersSpelled, spelled_eq_true v, membersSpelled_eq_true members]
    rfl

end

/-- What a compact text writes down is its value, part by part. -/
theorem readWritten?_compact_eq (v : Value) : readWritten? v.compact = some v.written := by
  have hread : reread? = some := funext reread?_eq
  rw [readWritten?_compact, spelled_eq_true, if_pos rfl, hread]
  rfl

mutual

theorem eq_of_written_eq (v w : Value) (h : v.written = w.written) : v = w := by
  match v with
  | null | bool _ | text _ | number _ =>
    cases w with
    | null | bool _ | text _ | number _ => exact Option.some.inj (Written.scalar.inj h)
    | array _ | object _ => cases h
  | array items =>
    cases w with
    | array others => exact congrArg array (items_eq_of_written_eq items others (Written.array.inj h))
    | _ => cases h
  | object members =>
    cases w with
    | object others => exact congrArg object (members_eq_of_written_eq members others (Written.object.inj h))
    | _ => cases h

theorem items_eq_of_written_eq (items others : List Value)
    (h : itemsWrittenBy some items = itemsWrittenBy some others) : items = others := by
  match items, others with
  | [], [] => rfl
  | [], _ :: _ | _ :: _, [] => cases h
  | v :: items, w :: others =>
    obtain ⟨hfirst, hrest⟩ := List.cons.inj h
    rw [eq_of_written_eq v w hfirst, items_eq_of_written_eq items others hrest]

theorem members_eq_of_written_eq (members others : List (String × Value))
    (h : membersWrittenBy some members = membersWrittenBy some others) : members = others := by
  match members, others with
  | [], [] => rfl
  | [], _ :: _ | _ :: _, [] => cases h
  | (k, v) :: members, (l, w) :: others =>
    obtain ⟨hfirst, hrest⟩ := List.cons.inj h
    obtain ⟨hname, hvalue⟩ := Prod.mk.inj hfirst
    rw [Option.some.inj hname, eq_of_written_eq v w hvalue, members_eq_of_written_eq members others hrest]

end

/-- Values with one text are one value. -/
theorem compact_injective : Function.Injective compact := by
  intro v w h
  have hwritten := readWritten?_compact_eq v
  rw [h, readWritten?_compact_eq w] at hwritten
  exact eq_of_written_eq v w (Option.some.inj hwritten).symm

end Value

end QueryLayer
