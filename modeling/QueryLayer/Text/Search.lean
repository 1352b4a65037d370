/-! # Searching in texts

Prefixes, suffixes and occurrences, by Unicode scalar values.
-/
namespace QueryLayer.Text

def startsWith (s start : String) : Bool := start.toList.isPrefixOf s.toList

def endsWith (s ending : String) : Bool := ending.toList.reverse.isPrefixOf s.toList.reverse

def occursIn (needle : List Char) : List Char → Bool
  | [] => needle.isEmpty
  | c :: cs => needle.isPrefixOf (c :: cs) || occursIn needle cs

def contains (s needle : String) : Bool := occursIn needle.toList s.toList

theorem occursIn_iff {needle cs : List Char} :
    occursIn needle cs = true ↔ ∃ a b, a ++ needle ++ b = cs := by
  induction cs with
  | nil => simp [occursIn]
  | cons c cs ih =>
    simp only [occursIn, Bool.or_eq_true, ih, List.isPrefixOf_iff_prefix]
    constructor
    · rintro (⟨b, h⟩ | ⟨a, b, h⟩)
      · exact ⟨[], b, h⟩
      · exact ⟨c :: a, b, by simp [← h]⟩
    · rintro ⟨a, b, h⟩
      cases a with
      | nil => exact Or.inl ⟨b, h⟩
      | cons d a =>
        simp only [List.cons_append, List.cons.injEq] at h
        exact Or.inr ⟨a, b, h.2⟩

end QueryLayer.Text
