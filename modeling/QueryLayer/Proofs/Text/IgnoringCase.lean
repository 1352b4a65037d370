import QueryLayer.Proofs.Text.Like

/-! # Patterns in lower case

Ignoring case compares the lower case of the whole pattern with that of the whole value. A character that takes
itself still does so there, unless it is a capital sigma that ends a word in one of the two only; and `_` still
takes one character, unless that is `İ`, which becomes two. A match of which both can be said is kept, and where a
pattern has no `%` no other one is. Main statement: `like_ignoringCase`.
-/
namespace QueryLayer.Text

/-! ## Lower case in its place -/

/-- Whether a character between these, the first ones in reverse, is the last one of a word. -/
def endsWord (before after : List Char) : Bool := meetsCased before && !meetsCased after

/-- The lower case of a character between what comes before it, in reverse, and what comes after it. -/
def lowerAt (before : List Char) (c : Char) (after : List Char) : List Char :=
  if c = 'Σ' then (if endsWord before after then ['ς'] else ['σ']) else lowerChar c

section

variable {before before' after after' cs ds : List Char} {c d x : Char}

theorem lowerChars_cons : lowerChars before (c :: cs) = lowerAt before c cs ++ lowerChars (c :: before) cs := rfl

theorem exists_lowerChars_append (before cs ds : List Char) :
    ∃ front, lowerChars before (cs ++ ds) = front ++ lowerChars (cs.reverse ++ before) ds := by
  induction cs generalizing before with
  | nil => exact ⟨[], rfl⟩
  | cons c cs ih =>
    obtain ⟨front, hfront⟩ := ih (c :: before)
    refine ⟨lowerAt before c (cs ++ ds) ++ front, ?_⟩
    rw [List.cons_append, lowerChars_cons, hfront, List.reverse_cons, List.append_assoc, List.append_assoc]
    rfl

theorem toLower_eq_or_lt (c : Char) : c.toLower = c ∨ 0x60 < c.toLower.toNat := by
  unfold Char.toLower
  split
  · next h =>
    right
    have hlow : 65 ≤ c.val.toNat := UInt32.le_iff_toNat_le.1 h.1
    have hhigh : c.val.toNat ≤ 90 := UInt32.le_iff_toNat_le.1 h.2
    change 0x60 < (c.val + ('a'.val - 'A'.val)).toNat
    rw [UInt32.toNat_add]
    change 0x60 < (c.val.toNat + 32) % 2 ^ 32
    omega
  · exact .inl rfl

theorem toNat_ofNat_eq_or (n : Nat) : (Char.ofNat n).toNat = n ∨ (Char.ofNat n).toNat = 0 := by
  by_cases hvalid : n.isValidChar
  · left
    rw [Char.ofNat, dif_pos hvalid]
    rfl
  · right
    rw [Char.ofNat, dif_neg hvalid]
    rfl

theorem lt_lower_of_mem_caseRuns {r : CaseRun} (h : r ∈ caseRuns) : (0x60 : Int) < r.first + r.offset := by
  have hall : (caseRuns.all fun r => decide ((0x60 : Int) < r.first + r.offset)) = true := by decide +kernel
  exact of_decide_eq_true (List.all_eq_true.1 hall r h)

/-- No character becomes a sign that comes before the small letters. -/
theorem eq_of_mem_lowerChar (hpos : 0 < x.toNat) (hx : x.toNat ≤ 0x60) (h : x ∈ lowerChar c) : x = c := by
  unfold lowerChar at h
  split at h
  · obtain rfl := List.mem_singleton.1 h
    exact (toLower_eq_or_lt c).resolve_right (Nat.not_lt.2 hx)
  · split at h
    · rcases List.mem_cons.1 h with rfl | h
      · exact absurd hx (by decide)
      · obtain rfl := List.mem_singleton.1 h
        exact absurd hx (by decide)
    · split at h
      · next r hr =>
        obtain rfl := List.mem_singleton.1 h
        have hlower := lt_lower_of_mem_caseRuns (List.mem_of_find?_eq_some hr)
        have hcovers := List.find?_some hr
        simp only [CaseRun.covers, Bool.and_eq_true, decide_eq_true_eq] at hcovers
        rcases toNat_ofNat_eq_or ((c.toNat : Int) + r.offset).toNat with heq | heq <;> omega
      · exact List.mem_singleton.1 h

theorem eq_of_mem_lowerAt (hpos : 0 < x.toNat) (hx : x.toNat ≤ 0x60) (h : x ∈ lowerAt before c after) : x = c := by
  unfold lowerAt at h
  split at h
  · split at h <;> obtain rfl := List.mem_singleton.1 h <;> exact absurd hx (by decide)
  · exact eq_of_mem_lowerChar hpos hx h

theorem length_lowerChar (c : Char) : (lowerChar c).length = if c = 'İ' then 2 else 1 := by
  have hdotted : c.toNat = 0x130 ↔ c = 'İ' := Char.toNat_inj (d := 'İ')
  unfold lowerChar
  simp only [hdotted]
  split
  · next hlow =>
    rw [if_neg]
    · rfl
    · rintro rfl
      exact absurd hlow (by decide)
  · split
    · rfl
    · split <;> rfl

theorem length_lowerAt (before : List Char) (c : Char) (after : List Char) :
    (lowerAt before c after).length = if c = 'İ' then 2 else 1 := by
  unfold lowerAt
  split
  · next hc =>
    subst hc
    split <;> rfl
  · exact length_lowerChar c

theorem lowerAt_eq_iff : lowerAt before c after = lowerAt before' c after' ↔
    (c = 'Σ' → endsWord before after = endsWord before' after') := by
  unfold lowerAt
  by_cases hc : c = 'Σ'
  · rw [if_pos hc, if_pos hc]
    cases endsWord before after <;> cases endsWord before' after' <;> simp [hc]
  · rw [if_neg hc, if_neg hc]
    simp [hc]

/-! ## Matches that are kept -/

/-- A value is cut along a pattern, each behind some characters in reverse, in such a way that no `_` takes `İ`
and a capital sigma that takes itself ends a word in both or in neither. -/
inductive Kept : (before before' pattern value : List Char) → Prop
  | nil {before before' : List Char} : Kept before before' [] []
  | star {before before' pattern value : List Char} (piece : List Char) :
    Kept ('%' :: before) (piece.reverse ++ before') pattern value →
    Kept before before' ('%' :: pattern) (piece ++ value)
  | one {before before' pattern value : List Char} {d : Char} : d ≠ 'İ' →
    Kept ('_' :: before) (d :: before') pattern value → Kept before before' ('_' :: pattern) (d :: value)
  | self {before before' pattern value : List Char} {c : Char} : c ≠ '%' → c ≠ '_' →
    (c = 'Σ' → endsWord before pattern = endsWord before' value) →
    Kept (c :: before) (c :: before') pattern value → Kept before before' (c :: pattern) (c :: value)

variable {pattern value : List Char}

theorem Cut.cons_self (h : Cut pattern value) (c : Char) : Cut (c :: pattern) (c :: value) := by
  by_cases hc : c = '%'
  · subst hc
    exact cut_star_iff.2 ⟨1, by simp, h⟩
  · exact (cut_one_iff hc).2 ⟨c, value, rfl, .inr rfl, h⟩

theorem Cut.append_self (h : Cut pattern value) (cs : List Char) : Cut (cs ++ pattern) (cs ++ value) := by
  induction cs with
  | nil => exact h
  | cons c cs ih => exact ih.cons_self c

theorem Kept.cut_lowerChars (h : Kept before before' pattern value) :
    Cut (lowerChars before pattern) (lowerChars before' value) := by
  induction h with
  | nil => exact cut_nil_iff.2 rfl
  | @star before before' pattern value piece _ ih =>
    obtain ⟨front, hfront⟩ := exists_lowerChars_append before' piece value
    rw [hfront]
    exact cut_star_iff.2 ⟨front.length, by simp, by simpa using ih⟩
  | @one before before' pattern value d hd _ ih =>
    obtain ⟨x, hx⟩ := List.length_eq_one_iff.1 ((length_lowerAt before' d value).trans (if_neg hd))
    rw [lowerChars_cons, lowerChars_cons, hx]
    exact (cut_one_iff (by decide)).2 ⟨x, _, rfl, .inl rfl, ih⟩
  | @self before before' pattern value c _ _ hfinal _ ih =>
    rw [lowerChars_cons, lowerChars_cons, lowerAt_eq_iff.2 hfinal]
    exact ih.append_self _

/-! ## Patterns without `%` -/

theorem Cut.length_eq (hplain : ∀ c ∈ pattern, c ≠ '%') (h : Cut pattern value) :
    pattern.length = value.length := by
  rw [← List.append_nil pattern] at h
  obtain ⟨hle, hrest⟩ := h.drop hplain
  have hlength := congrArg List.length (cut_nil_iff.1 hrest)
  rw [List.length_drop, List.length_nil] at hlength
  omega

/-- Characters that are no wildcards take themselves. -/
theorem Cut.eq_of_plain (hplain : ∀ c ∈ cs, c ≠ '%' ∧ c ≠ '_') (hlength : cs.length = ds.length)
    (h : Cut (cs ++ pattern) (ds ++ value)) : cs = ds := by
  induction cs generalizing ds with
  | nil => exact (List.length_eq_zero_iff.1 hlength.symm).symm
  | cons c cs ih =>
    obtain ⟨d, ds, rfl⟩ := List.exists_cons_of_length_eq_add_one hlength.symm
    obtain ⟨hstar, hone⟩ := hplain c List.mem_cons_self
    obtain ⟨d', rest, heq, htakes, hrest⟩ := (cut_one_iff hstar).1 h
    obtain ⟨rfl, rfl⟩ := List.cons.inj heq
    rw [htakes.resolve_left hone,
      ih (fun x hx => hplain x (List.mem_cons_of_mem c hx)) (Nat.succ.inj hlength) hrest]

theorem ne_star_of_mem_lowerChars (hplain : ∀ c ∈ pattern, c ≠ '%') (hx : x ∈ lowerChars before pattern) :
    x ≠ '%' := by
  induction pattern generalizing before with
  | nil => cases hx
  | cons c pattern ih =>
    rw [lowerChars_cons, List.mem_append] at hx
    rcases hx with hx | hx
    · rintro rfl
      exact hplain c List.mem_cons_self (eq_of_mem_lowerAt (by decide) (by decide) hx).symm
    · exact ih (fun d hd => hplain d (List.mem_cons_of_mem c hd)) hx

/-- A value is at least as long in lower case as a pattern that takes it. -/
theorem length_lowerChars_le (hplain : ∀ c ∈ pattern, c ≠ '%') (h : Cut pattern value) :
    (lowerChars before pattern).length ≤ (lowerChars before' value).length := by
  induction pattern generalizing before before' value with
  | nil => exact Nat.zero_le _
  | cons c pattern ih =>
    obtain ⟨d, value, rfl, htakes, hrest⟩ := (cut_one_iff (hplain c List.mem_cons_self)).1 h
    have htail := @ih (c :: before) (d :: before') value (fun e he => hplain e (List.mem_cons_of_mem c he)) hrest
    have hhead : (lowerAt before c pattern).length ≤ (lowerAt before' d value).length := by
      rw [length_lowerAt, length_lowerAt]
      rcases htakes with rfl | rfl
      · rw [if_neg (by decide)]
        split <;> decide
      · exact Nat.le_refl _
    rw [lowerChars_cons, lowerChars_cons, List.length_append, List.length_append]
    exact Nat.add_le_add hhead htail

/-- Without `%` there is only one way to cut a value, in lower case too. -/
theorem kept_of_cut_lowerChars (hplain : ∀ c ∈ pattern, c ≠ '%') (h : Cut pattern value)
    (hlower : Cut (lowerChars before pattern) (lowerChars before' value)) :
    Kept before before' pattern value := by
  induction pattern generalizing before before' value with
  | nil =>
    obtain rfl := cut_nil_iff.1 h
    exact .nil
  | cons c pattern ih =>
    have hstar := hplain c List.mem_cons_self
    obtain ⟨d, value, rfl, htakes, hrest⟩ := (cut_one_iff hstar).1 h
    have hothers : ∀ e ∈ pattern, e ≠ '%' := fun e he => hplain e (List.mem_cons_of_mem c he)
    have hall := hlower.length_eq fun x hx => ne_star_of_mem_lowerChars hplain hx
    rw [lowerChars_cons, lowerChars_cons] at hlower hall
    -- the rest of the pattern is no longer than the rest of the value, so neither is longer here
    have hlength : (lowerAt before c pattern).length = (lowerAt before' d value).length := by
      have htail := @length_lowerChars_le (c :: before) (d :: before') pattern value hothers hrest
      rw [List.length_append, List.length_append] at hall
      rw [length_lowerAt, length_lowerAt] at hall ⊢
      rcases htakes with rfl | rfl
      · rw [if_neg (by decide)] at hall ⊢
        by_cases hd : d = 'İ'
        · rw [if_pos hd] at hall
          omega
        · rw [if_neg hd]
      · rfl
    have hkept : Kept (c :: before) (d :: before') pattern value := by
      refine ih hothers hrest ?_
      have hdrop := (hlower.drop fun x hx heq => hstar ?_).2
      · rwa [List.drop_left' hlength.symm] at hdrop
      · subst heq
        exact (eq_of_mem_lowerAt (by decide) (by decide) hx).symm
    by_cases hone : c = '_'
    · subst hone
      refine .one (fun heq => ?_) hkept
      rw [length_lowerAt, length_lowerAt, if_pos heq, if_neg (by decide)] at hlength
      cases hlength
    · obtain rfl := htakes.resolve_left hone
      refine .self hstar hone (lowerAt_eq_iff.1 (Cut.eq_of_plain (fun x hx => ⟨?_, ?_⟩) hlength hlower)) hkept
      · rintro rfl
        exact hstar (eq_of_mem_lowerAt (by decide) (by decide) hx).symm
      · rintro rfl
        exact hone (eq_of_mem_lowerAt (by decide) (by decide) hx).symm

end

/-! ## Sigmas that their word decides -/

/-- Whether the nearest character that is not skipped is cased, where no wildcard stands before it. -/
def decided? : List Char → Option Bool
  | [] => some false
  | c :: cs =>
    if c = '%' ∨ c = '_' then none
    else if inRanges ignorableRanges c then decided? cs
    else some (inRanges casedRanges c)

/-- Whatever the wildcards take, a sigma between these characters ends a word always or never. -/
def SettledAt (before after : List Char) : Prop :=
  decided? before = some false ∨ decided? after = some true ∨
    (decided? before = some true ∧ decided? after = some false)

instance (before after : List Char) : Decidable (SettledAt before after) :=
  inferInstanceAs (Decidable (_ ∨ _ ∨ _ ∧ _))

/-- Every capital sigma of a pattern, behind some characters in reverse, ends a word always or never. -/
def Settled (before : List Char) : List Char → Prop
  | [] => True
  | c :: cs => (c = 'Σ' → SettledAt before cs) ∧ Settled (c :: before) cs

instance decidableSettled (before : List Char) : (pattern : List Char) → Decidable (Settled before pattern)
  | [] => inferInstanceAs (Decidable True)
  | c :: cs =>
    have := decidableSettled (c :: before) cs
    inferInstanceAs (Decidable ((c = 'Σ' → SettledAt before cs) ∧ Settled (c :: before) cs))

section

variable {before before' after after' pattern value : List Char}

theorem meetsCased_of_decided? {b : Bool} (hb : decided? pattern = some b) (h : Cut pattern value) :
    meetsCased value = b := by
  induction pattern generalizing value with
  | nil =>
    obtain rfl := cut_nil_iff.1 h
    exact Option.some.inj hb
  | cons c pattern ih =>
    unfold decided? at hb
    split at hb
    · cases hb
    · next hplain =>
      rw [not_or] at hplain
      obtain ⟨d, value, rfl, htakes, hrest⟩ := (cut_one_iff hplain.1).1 h
      obtain rfl := htakes.resolve_left hplain.2
      unfold meetsCased
      split at hb
      · next hskipped =>
        rw [List.dropWhile_cons_of_pos hskipped]
        exact ih hb hrest
      · next hmet =>
        rw [List.dropWhile_cons_of_neg hmet]
        exact Option.some.inj hb

theorem cut_self (cs : List Char) : Cut cs cs := by
  have h := (cut_nil_iff.2 rfl : Cut [] []).append_self cs
  rwa [List.append_nil] at h

theorem SettledAt.endsWord_eq (h : SettledAt before after) (hbefore : Cut before before')
    (hafter : Cut after after') : endsWord before after = endsWord before' after' := by
  unfold endsWord
  rcases h with h | h | ⟨h, h'⟩
  · rw [meetsCased_of_decided? h (cut_self before), meetsCased_of_decided? h hbefore]
    rfl
  · rw [meetsCased_of_decided? h (cut_self after), meetsCased_of_decided? h hafter, Bool.not_true,
      Bool.and_false, Bool.and_false]
  · rw [meetsCased_of_decided? h (cut_self before), meetsCased_of_decided? h hbefore,
      meetsCased_of_decided? h' (cut_self after), meetsCased_of_decided? h' hafter]

/-- Every match is kept where the sigmas are settled and no `_` can take `İ`. -/
theorem Settled.kept (h : Settled before pattern) (hbefore : Cut before before') (hcut : Cut pattern value)
    (hone : '_' ∈ pattern → 'İ' ∉ value) : Kept before before' pattern value := by
  induction pattern generalizing before before' value with
  | nil =>
    obtain rfl := cut_nil_iff.1 hcut
    exact .nil
  | cons c pattern ih =>
    obtain ⟨hsigma, hsettled⟩ := h
    by_cases hstar : c = '%'
    · subst hstar
      obtain ⟨n, -, hrest⟩ := cut_star_iff.1 hcut
      rw [← List.take_append_drop n value]
      refine .star _ (ih hsettled (cut_cons_iff.2 ⟨_, before', by simp [Takes], hbefore, rfl⟩) hrest ?_)
      exact fun hmem hdotted => hone (List.mem_cons_of_mem _ hmem) (List.mem_of_mem_drop hdotted)
    · obtain ⟨d, value, rfl, htakes, hrest⟩ := (cut_one_iff hstar).1 hcut
      have hkept : Kept (c :: before) (d :: before') pattern value :=
        ih hsettled ((cut_one_iff hstar).2 ⟨d, before', rfl, htakes, hbefore⟩) hrest fun hmem hdotted =>
          hone (List.mem_cons_of_mem c hmem) (List.mem_cons_of_mem d hdotted)
      by_cases hwild : c = '_'
      · subst hwild
        refine .one (fun hd => hone List.mem_cons_self ?_) hkept
        exact hd ▸ List.mem_cons_self
      · obtain rfl := htakes.resolve_left hwild
        exact .self hstar hwild (fun hc => (hsigma hc).endsWord_eq hbefore hrest) hkept

end

/-! ## Matches -/

theorem matchesPattern_iff_cut (pattern value : List Char) : matchesPattern pattern value = true ↔ Cut pattern value := by
  have hfinds := (Scan.ends_result (@Scan.InRange.start pattern.toArray value.toArray) (Scan.aligned_start _)).2
  refine hfinds.trans ?_
  simp [Scan.Finds, Scan.start]

theorem like_true_iff {pattern value : String} : like pattern value true = true ↔ Cut pattern.toList value.toList :=
  matchesPattern_iff_cut _ _

theorem like_false_iff {pattern value : String} :
    like pattern value false = true ↔ Cut (lower pattern).toList (lower value).toList :=
  matchesPattern_iff_cut _ _

theorem toList_lower (s : String) : (lower s).toList = lowerChars [] s.toList := String.toList_ofList

/-- A match is found without regard to case, too, exactly if the lower case of the value can be cut along that of
the pattern. A match that is kept is found, for a pattern without `%` no other one is, and every match is kept
where no `_` can take `İ` and no capital sigma of the pattern needs a wildcard to tell whether it ends a word. -/
theorem like_ignoringCase {pattern value : String} (h : like pattern value true = true) :
    (like pattern value false = true ↔ Cut (lower pattern).toList (lower value).toList) ∧
    (Kept [] [] pattern.toList value.toList → like pattern value false = true) ∧
    ('%' ∉ pattern.toList → like pattern value false = true → Kept [] [] pattern.toList value.toList) ∧
    (Settled [] pattern.toList → ('_' ∈ pattern.toList → 'İ' ∉ value.toList) →
      Kept [] [] pattern.toList value.toList) := by
  have hcut := like_true_iff.1 h
  refine ⟨like_false_iff, fun hkept => ?_, fun hstar hlower => ?_, fun hsettled hone => ?_⟩
  · rw [like_false_iff, toList_lower, toList_lower]
    exact hkept.cut_lowerChars
  · rw [like_false_iff, toList_lower, toList_lower] at hlower
    exact kept_of_cut_lowerChars (fun c hc heq => hstar (heq ▸ hc)) hcut hlower
  · exact hsettled.kept (cut_self []) hcut hone

/-- A sigma at the start of a pattern takes one at the start of a value. Before `_` it may end a word in the
pattern only, and is not found. -/
theorem like_ignoringCase_sigma :
    (like "ΣΟΦ_%" "ΣΟΦΙΑ" true = true ∧ like "ΣΟΦ_%" "ΣΟΦΙΑ" false = true) ∧
    like "ΑΣ_" "ΑΣΑ" true = true ∧ ¬like "ΑΣ_" "ΑΣΑ" false = true := by
  have hname : like "ΣΟΦ_%" "ΣΟΦΙΑ" true = true := like_true_iff.2 (by decide +kernel)
  have hword : like "ΑΣ_" "ΑΣΑ" true = true := like_true_iff.2 (by decide +kernel)
  obtain ⟨-, hfound, -, hkept⟩ := like_ignoringCase hname
  obtain ⟨-, -, honly, -⟩ := like_ignoringCase hword
  refine ⟨⟨hname, hfound (hkept (by decide +kernel) fun _ => by decide +kernel)⟩, hword, fun hlower => ?_⟩
  have hlost : Kept [] [] ['Α', 'Σ', '_'] ['Α', 'Σ', 'Α'] := honly (by decide +kernel) hlower
  cases hlost with
  | self _ _ _ hrest =>
    cases hrest with
    | self _ _ hfinal _ => exact absurd (hfinal rfl) (by decide +kernel)

/-- A single `_` takes `İ`, and only one of the two characters that this becomes. -/
theorem not_like_ignoringCase :
    ¬∀ pattern value : String, like pattern value true = true → like pattern value false = true := by
  intro hkeeps
  have hlower : like "_" "İ" false = true := hkeeps "_" "İ" (like_true_iff.2 (by decide +kernel))
  exact absurd (like_false_iff.1 hlower) (by decide +kernel)

end QueryLayer.Text
