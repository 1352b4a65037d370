import QueryLayer.Proofs.Value.Reading

/-! # Values that are read back

The text of a value gives the value back unless its containers nest too deep, the members of one of
its objects are out of order, or the text of one of its doubles reads as another one. Integers always
come back. Main statement: `Value.read?_compact_iff`.
-/
namespace QueryLayer

namespace Value

/-! ## Integers -/

theorem digitsValue_toDigits (n : Nat) : digitsValue (Nat.toDigits 10 n) = n := by
  have hfold : digitsValue (Nat.toDigits 10 n) = Nat.ofDigitChars 10 (Nat.toDigits 10 n) 0 := by
    rw [digitsValue, Nat.ofDigitChars_eq_foldl]
    refine congrArg (fun step => (Nat.toDigits 10 n).foldl step 0) ?_
    funext acc c
    rw [Nat.mul_comm]
  rw [hfold, Nat.ofDigitChars_ten_toDigits]

/-- Only zero starts with a zero. -/
theorem head?_toDigits_of_pos {n : Nat} (h : 0 < n) : (Nat.toDigits 10 n).head? ≠ some '0' := by
  induction n using Nat.strongRecOn with
  | _ n ih =>
    by_cases hlt : n < 10
    · rw [Nat.toDigits_of_lt_base hlt, List.head?_cons]
      intro hzero
      exact Nat.ne_of_gt h (Nat.digitChar_eq_zero.1 (Option.some.inj hzero))
    · have hten : 10 ≤ n := Nat.le_of_not_lt hlt
      have hhead := ih (n / 10) (by omega) (by omega)
      rw [Nat.toDigits_of_base_le (by decide) hten]
      cases hd : Nat.toDigits 10 (n / 10) with
      | nil => exact absurd hd Nat.toDigits_ne_nil
      | cons c rest =>
        rw [hd] at hhead
        exact hhead

/-- Digits alone are a whole number. -/
theorem numberOfText?_toDigits (n : Nat) :
    numberOfText? (Nat.toDigits 10 n) = some (Number.ofIntegerText false n) ∧
      numberOfText? ('-' :: Nat.toDigits 10 n) = some (Number.ofIntegerText true n) := by
  have hall : ∀ c ∈ Nat.toDigits 10 n, c.isDigit = true :=
    fun c hc => Nat.isDigit_of_mem_toDigits (by decide) (by decide) hc
  have htake : (Nat.toDigits 10 n).takeWhile Char.isDigit = Nat.toDigits 10 n := by
    have happend : (Nat.toDigits 10 n ++ []).takeWhile Char.isDigit = Nat.toDigits 10 n ++ [] :=
      List.takeWhile_append_of_pos hall
    rwa [List.append_nil] at happend
  have hdrop : (Nat.toDigits 10 n).dropWhile Char.isDigit = [] := by
    have happend : (Nat.toDigits 10 n ++ []).dropWhile Char.isDigit = [] :=
      List.dropWhile_append_of_pos hall
    rwa [List.append_nil] at happend
  have hplain : ((Nat.toDigits 10 n).isEmpty ||
      ((Nat.toDigits 10 n).length > 1 && (Nat.toDigits 10 n).head? = some '0')) = false := by
    rcases Nat.eq_zero_or_pos n with rfl | hpos
    · rfl
    · simp [head?_toDigits_of_pos hpos]
  have hunsigned : ∀ rest, Nat.toDigits 10 n ≠ '-' :: rest := fun rest h =>
    absurd (hall '-' (h ▸ List.mem_cons_self)) (by decide)
  constructor
  · unfold numberOfText?
    split
    next negative body hbody =>
    split at hbody
    · next rest h => exact absurd h (hunsigned rest)
    · cases hbody
      simp only [htake, hdrop, hplain, digitsValue_toDigits, Bool.false_eq_true, if_false]
  · simp only [numberOfText?, htake, hdrop, hplain, digitsValue_toDigits, Bool.false_eq_true, if_false]

theorem ofIntegerText_natCast {n : Nat} (h : Number.Fits n) :
    Number.ofIntegerText false n = some (.integer n h) := by
  rw [Number.ofIntegerText, if_neg Bool.false_ne_true, dif_pos h]

theorem ofIntegerText_neg {n : Nat} (hn : n ≠ 0) (h : Number.Fits (-n)) :
    Number.ofIntegerText true n = some (.integer (-n) h) := by
  rw [Number.ofIntegerText, if_pos rfl, if_neg hn, dif_pos h]

/-- An integer is what its text reads as. -/
theorem reread?_integer (i : Int) (h : Number.Fits i) : reread? (.integer i h) = some (.integer i h) := by
  have htext : (Number.integer i h).text = i.repr := rfl
  rw [reread?, htext, Int.repr_eq_if]
  by_cases hsign : 0 ≤ i
  · obtain ⟨n, rfl⟩ := Int.eq_ofNat_of_zero_le hsign
    rw [if_pos hsign, Int.toNat_natCast, Nat.toList_repr, (numberOfText?_toDigits n).1,
      ofIntegerText_natCast h]
    rfl
  · obtain ⟨n, rfl⟩ := Int.exists_eq_neg_ofNat (Int.le_of_not_le hsign)
    have hpos : n ≠ 0 := by omega
    rw [if_neg hsign, Int.neg_neg, Int.toNat_natCast, String.toList_append, Nat.toList_repr]
    rw [← ofIntegerText_neg hpos h]
    exact congrArg Option.join (numberOfText?_toDigits n).2

/-! ## Values -/

mutual

/-- The containers nest at most `room` deep, the members are in name order, and the texts of the
doubles read as them. -/
def legible (room : Nat) : Value → Bool
  | null | bool _ | text _ | number (.integer _ _) => true
  | number (.double x) => reread? (.double x) = some (.double x)
  | array items =>
    match room with
    | 0 => false
    | room + 1 => itemsLegible room items
  | object members =>
    match room with
    | 0 => false
    | room + 1 => decide (Entries.Sorted members) && membersLegible room members

def itemsLegible (room : Nat) : List Value → Bool
  | [] => true
  | v :: rest => v.legible room && itemsLegible room rest

def membersLegible (room : Nat) : List (String × Value) → Bool
  | [] => true
  | (_, v) :: rest => v.legible room && membersLegible room rest

end

theorem legible_number_iff (n : Number) (room : Nat) :
    (number n).legible room = true ↔ reread? n = some n := by
  cases n with
  | integer i h => exact ⟨fun _ => reread?_integer i h, fun _ => rfl⟩
  | double x => exact decide_eq_true_iff

mutual

/-- What a value is written down as has this value where it is legible. -/
theorem value?_writtenBy_iff (v : Value) (room : Nat) :
    (v.writtenBy reread?).value? room = some v ↔ v.legible room = true := by
  match v with
  | null | bool _ | text _ => exact ⟨fun _ => rfl, fun _ => rfl⟩
  | number n =>
    rw [legible_number_iff]
    change (reread? n).map number = some (number n) ↔ _
    simp
  | array items =>
    cases room with
    | zero => exact ⟨nofun, nofun⟩
    | succ room =>
      rw [legible, ← itemValues?_writtenBy_iff items room]
      change (Written.itemValues? room (itemsWrittenBy reread? items)).map array = _ ↔ _
      simp
  | object members =>
    cases room with
    | zero => exact ⟨nofun, nofun⟩
    | succ room =>
      rw [legible, Bool.and_eq_true, decide_eq_true_iff, ← memberValues?_writtenBy_iff members room]
      change (Written.memberValues? room (membersWrittenBy reread? members)).map
        (fun members => object (Entries.ofList members)) = _ ↔ _
      constructor
      · intro h
        obtain ⟨found, hfound, heq⟩ := Option.map_eq_some_iff.1 h
        have hlist : Entries.ofList found = members := Value.object.inj heq
        have hsorted : Entries.Sorted members := hlist ▸ Entries.sorted_ofList found
        have hnames := Entries.sorted_of_map_fst_eq (names_of_memberValues? hfound) hsorted
        rw [Entries.ofList_of_sorted hnames] at hlist
        exact ⟨hsorted, hlist ▸ hfound⟩
      · rintro ⟨hsorted, hfound⟩
        rw [hfound, Option.map_some, Entries.ofList_of_sorted hsorted]

theorem itemValues?_writtenBy_iff (items : List Value) (room : Nat) :
    Written.itemValues? room (itemsWrittenBy reread? items) = some items ↔
      itemsLegible room items = true := by
  match items with
  | [] => exact ⟨fun _ => rfl, fun _ => rfl⟩
  | v :: items =>
    rw [itemsLegible, Bool.and_eq_true, ← value?_writtenBy_iff v room,
      ← itemValues?_writtenBy_iff items room, itemsWrittenBy, Written.itemValues?]
    simp [Option.bind_eq_some_iff]

theorem memberValues?_writtenBy_iff (members : List (String × Value)) (room : Nat) :
    Written.memberValues? room (membersWrittenBy reread? members) = some members ↔
      membersLegible room members = true := by
  match members with
  | [] => exact ⟨fun _ => rfl, fun _ => rfl⟩
  | (k, v) :: members =>
    rw [membersLegible, Bool.and_eq_true, ← value?_writtenBy_iff v room,
      ← memberValues?_writtenBy_iff members room, membersWrittenBy, Written.memberValues?]
    simp [Option.bind_eq_some_iff]

end

mutual

theorem spelled_of_legible (v : Value) {room : Nat} (h : v.legible room = true) : v.spelled = true := by
  match v with
  | null | bool _ | text _ => rfl
  | number n =>
    have hback : reread? n = some n := (legible_number_iff n room).1 h
    have hread : numberOfText? n.text.toList = some (some n) := Option.join_eq_some_iff.1 hback
    rw [spelled, hread]
    rfl
  | array items =>
    cases room with
    | zero => exact nomatch h
    | succ room => exact itemsSpelled_of_legible items h
  | object members =>
    cases room with
    | zero => exact nomatch h
    | succ room =>
      rw [legible, Bool.and_eq_true] at h
      exact membersSpelled_of_legible members h.2

theorem itemsSpelled_of_legible (items : List Value) {room : Nat} (h : itemsLegible room items = true) :
    itemsSpelled items = true := by
  match items with
  | [] => rfl
  | v :: items =>
    rw [itemsLegible, Bool.and_eq_true] at h
    rw [itemsSpelled, spelled_of_legible v h.1, itemsSpelled_of_legible items h.2]
    rfl

theorem membersSpelled_of_legible (members : List (String × Value)) {room : Nat}
    (h : membersLegible room members = true) : membersSpelled members = true := by
  match members with
  | [] => rfl
  | (_, v) :: members =>
    rw [membersLegible, Bool.and_eq_true] at h
    rw [membersSpelled, spelled_of_legible v h.1, membersSpelled_of_legible members h.2]
    rfl

end

/-- The values that their compact texts give back. -/
theorem read?_compact_iff (v : Value) :
    read? v.compact = some v ↔ v.legible Written.maxDepth = true := by
  rw [← value?_writtenBy_iff, read?, readWritten?_compact]
  constructor
  · intro h
    cases hspelled : v.spelled with
    | false =>
      rw [hspelled] at h
      exact nomatch h
    | true =>
      rw [hspelled] at h
      exact h
  · intro h
    rw [spelled_of_legible v ((value?_writtenBy_iff v _).1 h)]
    exact h

end Value

end QueryLayer
