import QueryLayer.Naming.Names
import QueryLayer.Proofs.Data.Entries
import QueryLayer.Value.Path

/-! # Names that tell things apart

A table is `Fair` to some things when it holds the renamed ones, in both directions alike, and no two of
the things are known by one name. Renaming one of them to a name that none has keeps it so, also when
the name is one that another thing has given up, or two things change names by way of a third one.
-/
namespace QueryLayer.Names

/-- `D` are the things that there are. -/
structure Fair (D : String → Prop) (t : Names) : Prop where
  inverse : ∀ own name, t.publicOf.get? own = some name ↔ t.ownOf.get? name = some own
  known : ∀ own name, t.publicOf.get? own = some name → D own
  /-- No renamed thing has taken the name of one that was not renamed. -/
  apart : ∀ own, D own → t.publicOf.get? own = none → t.ownOf.get? own = none

namespace Fair

variable {D : String → Prop} {t : Names}

theorem empty (D : String → Prop) : Fair D Names.empty where
  inverse _ _ := ⟨fun h => (by cases h), fun h => (by cases h)⟩
  known _ _ h := by cases h
  apart _ _ _ := rfl

/-- A thing is found by the name it is known by. -/
theorem ownName?_publicName (h : Fair D t) {own : String} (hown : D own) :
    t.ownName? (t.publicName own) = some own := by
  unfold ownName? publicName
  cases hname : t.publicOf.get? own with
  | none =>
    rw [Option.getD_none, h.apart own hown hname]
    simp [Dict.contains, hname]
  | some name =>
    rw [Option.getD_some, (h.inverse own name).1 hname]

/-- No two things are known by one name. -/
theorem publicName_inj (h : Fair D t) {own other : String} (hown : D own) (hother : D other)
    (heq : t.publicName own = t.publicName other) : own = other := by
  have hback := h.ownName?_publicName hown
  rw [heq, h.ownName?_publicName hother] at hback
  exact (Option.some.inj hback).symm

/-- What is found by a name is known by it. -/
theorem publicName_of_ownName? (h : Fair D t) {name own : String} (hown : t.ownName? name = some own) :
    t.publicName own = name := by
  unfold ownName? at hown
  unfold publicName
  split at hown
  · next found hfound =>
    cases hown
    rw [(h.inverse own name).2 hfound, Option.getD_some]
  · split at hown
    · cases hown
    · next hfree =>
      cases hown
      rw [Dict.contains, Bool.not_eq_true, Option.isSome_eq_false_iff, Option.isNone_iff_eq_none] at hfree
      rw [hfree, Option.getD_none]

theorem ownName_eq (h : Fair D t) {own : String} (hown : D own) : t.ownName (t.publicName own) = own := by
  have hfound := h.ownName?_publicName hown
  unfold ownName? at hfound
  unfold ownName
  split at hfound
  · next found hget =>
    cases hfound
    rw [hget, Option.getD_some]
  · next hget =>
    split at hfound
    · cases hfound
    · rw [hget, Option.getD_none]
      exact Option.some.inj hfound

/-- Only the renamed thing is known by another name than before. -/
theorem publicName_rename (h : Fair D t) {own : String} (hown : D own) (new other : String) :
    (t.rename (t.publicName own) new).publicName other = if own = other then new else t.publicName other := by
  have hown := h.ownName_eq hown
  split
  · next heq =>
    subst heq
    have hself := t.publicName_rename_self (t.publicName own) new
    rwa [hown] at hself
  · next hne =>
    refine t.publicName_rename_of_ne ?_
    rw [hown]
    exact hne

theorem plain_of_ownName? (h : Fair D t) (hD : ∀ own, D own → Path.Plain own) {name own : String}
    (hname : Path.Plain name) (hown : t.ownName? name = some own) : Path.Plain own := by
  unfold ownName? at hown
  split at hown
  · next found hfound =>
    cases hown
    exact hD own (h.known own name ((h.inverse own name).2 hfound))
  · split at hown
    · cases hown
    · cases hown
      exact hname

theorem publicName_eq {own name : String} (hname : t.publicOf.get? own = some name) :
    t.publicName own = name := by
  rw [publicName, hname, Option.getD_some]

theorem eq_of_publicOf (h : Fair D t) {own other : String} (hown : D own)
    (hother : t.publicOf.get? other = some (t.publicName own)) : own = other := by
  have hback := h.ownName?_publicName (h.known other _ hother)
  rw [publicName_eq hother, h.ownName?_publicName hown] at hback
  exact Option.some.inj hback

theorem publicOf_ne (h : Fair D t) {new : String} (hfree : ∀ other, D other → t.publicName other ≠ new)
    (other : String) : t.publicOf.get? other ≠ some new :=
  fun hother => hfree other (h.known other new hother) (publicName_eq hother)

theorem ownOf_eq_none (h : Fair D t) {name : String} (hfree : ∀ other, D other → t.publicName other ≠ name) :
    t.ownOf.get? name = none :=
  Option.eq_none_iff_forall_ne_some.2 fun own hown => h.publicOf_ne hfree own ((h.inverse own name).2 hown)

/-- Nothing is found by the own name of a thing, once it and all other things are known by other names. -/
theorem ownName?_eq_none_iff (h : Fair D t) {name : String} :
    t.ownName? name = none ↔ D name ∧ ∀ other, D other → t.publicName other ≠ name := by
  constructor
  · intro hnone
    refine ⟨?_, fun other hother heq => ?_⟩
    · unfold ownName? at hnone
      split at hnone
      · cases hnone
      · split at hnone
        · next hgiven =>
          obtain ⟨given, hgiven⟩ := Option.isSome_iff_exists.1 hgiven
          exact h.known name given hgiven
        · cases hnone
    · rw [← heq, h.ownName?_publicName hother] at hnone
      cases hnone
  · rintro ⟨hname, hfree⟩
    unfold ownName?
    rw [h.ownOf_eq_none hfree]
    dsimp only
    rw [if_pos]
    refine Option.isSome_iff_ne_none.2 fun hnone => hfree name hname ?_
    rw [publicName, hnone, Option.getD_none]

/-- What is the name of nothing is taken for itself. -/
theorem ownName?_of_stray (h : Fair D t) {name : String} (hname : ¬D name)
    (hfree : ∀ other, D other → t.publicName other ≠ name) : t.ownName? name = some name := by
  unfold ownName?
  rw [h.ownOf_eq_none hfree]
  dsimp only
  rw [if_neg]
  intro hgiven
  obtain ⟨given, hgiven⟩ := Option.isSome_iff_exists.1 hgiven
  exact hname (h.known name given hgiven)

/-- A thing gets its own name back. -/
theorem restore (h : Fair D t) {own : String} (hown : D own)
    (hfree : ∀ other, D other → t.publicName other ≠ own) :
    Fair D ⟨t.publicOf.erase own, t.ownOf.erase (t.publicName own)⟩ := by
  refine ⟨fun other name => ?_, fun other name hname => ?_, fun other hother hnone => ?_⟩
  · rw [Dict.get?_erase, Dict.get?_erase]
    by_cases hother : own = other
    · subst hother
      simp only [if_true, reduceCtorEq, false_iff]
      split
      · simp
      · next hname => exact fun heq => hname (publicName_eq ((h.inverse own name).2 heq))
    · rw [if_neg hother]
      split
      · next hname =>
        subst hname
        simp only [reduceCtorEq, iff_false]
        exact fun heq => hother (h.eq_of_publicOf hown heq)
      · exact h.inverse other name
  · rw [Dict.get?_erase] at hname
    split at hname
    · cases hname
    · exact h.known other name hname
  · rw [Dict.get?_erase] at hnone ⊢
    split
    · rfl
    · by_cases hother' : own = other
      · subst hother'
        cases hget : t.ownOf.get? own with
        | none => rfl
        | some third => exact absurd ((h.inverse third own).2 hget) (h.publicOf_ne hfree third)
      · rw [if_neg hother'] at hnone
        exact h.apart other hother hnone

/-- A thing gets a name that nothing has. -/
theorem give (h : Fair D t) {own new : String} (hown : D own)
    (hfree : ∀ other, D other → t.publicName other ≠ new) :
    Fair D ⟨t.publicOf.insert own new, (t.ownOf.erase (t.publicName own)).insert new own⟩ := by
  refine ⟨fun other name => ?_, fun other name hname => ?_, fun other hother hnone => ?_⟩
  · rw [Dict.get?_insert, Dict.get?_insert, Dict.get?_erase]
    by_cases hname : new = name
    · subst hname
      rw [if_pos rfl, Option.some.injEq]
      by_cases hother : own = other
      · simp [hother]
      · rw [if_neg hother]
        exact iff_of_false (h.publicOf_ne hfree other) hother
    · rw [if_neg hname]
      by_cases hother : own = other
      · subst hother
        rw [if_pos rfl, Option.some.injEq]
        refine iff_of_false hname fun heq => ?_
        split at heq
        · cases heq
        · next hcurrent => exact hcurrent (publicName_eq ((h.inverse own name).2 heq))
      · rw [if_neg hother]
        split
        · next hcurrent =>
          subst hcurrent
          simp only [reduceCtorEq, iff_false]
          exact fun heq => hother (h.eq_of_publicOf hown heq)
        · exact h.inverse other name
  · rw [Dict.get?_insert] at hname
    split at hname
    · next hother =>
      cases hname
      exact hother ▸ hown
    · exact h.known other name hname
  · rw [Dict.get?_insert] at hnone
    split at hnone
    · cases hnone
    · have hne : new ≠ other := by
        rintro rfl
        refine hfree new hother ?_
        rw [publicName, hnone, Option.getD_none]
      rw [Dict.get?_insert_of_ne _ hne, Dict.get?_erase]
      split
      · rfl
      · exact h.apart other hother hnone

theorem rename (h : Fair D t) {own new : String} (hown : D own)
    (hfree : ∀ other, D other → t.publicName other ≠ new) : Fair D (t.rename (t.publicName own) new) := by
  rw [Names.rename, h.ownName_eq hown]
  split
  · next hback =>
    subst hback
    exact h.restore hown hfree
  · exact h.give hown hfree

end Fair

end QueryLayer.Names
