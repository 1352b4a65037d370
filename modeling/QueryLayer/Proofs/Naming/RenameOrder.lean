import QueryLayer.Proofs.Naming.Collections
import QueryLayer.Proofs.Source.Additions

/-! # The order of renames

A table of new names is worked off entry by entry in the order of its keys, and each entry renames what is
known by its key at that time. A new name that is the key of a later entry is therefore renamed again, or
refused because a collection still has it. Main statement: `Composite.exposes_and_accepted_iff`.
-/
namespace QueryLayer

namespace CollectionNaming

/-- The name that renames lead to, one after the other. -/
def followed (renames : List (String × String)) (name : String) : String :=
  renames.foldl (fun name e => if name = e.1 then e.2 else name) name

/-- The name that a table gives, and the old one where it gives none. -/
def given (renames : Dict String) (name : String) : String := (renames.get? name).getD name

/-- No new name is renamed by a later entry. -/
def Unchained (renames : List (String × String)) : Prop :=
  renames.Pairwise fun e later => e.2 ≠ later.1

instance (renames : List (String × String)) : Decidable (Unchained renames) := by
  unfold Unchained
  infer_instance

section

variable {renames : List (String × String)} {own : List String} {t renamed : Names} {name : String}

theorem followed_cons (e : String × String) (rest : List (String × String)) (name : String) :
    followed (e :: rest) name = followed rest (if name = e.1 then e.2 else name) :=
  rfl

theorem followed_of_not_mem (h : name ∉ renames.map Prod.fst) : followed renames name = name := by
  induction renames with
  | nil => rfl
  | cons e rest ih =>
    rw [List.map_cons, List.mem_cons, not_or] at h
    obtain ⟨hne, hrest⟩ := h
    rw [followed_cons, if_neg hne, ih hrest]

theorem followed_eq (h : Unchained renames) (name : String) :
    followed renames name = (Entries.get? renames name).getD name := by
  induction renames with
  | nil => rfl
  | cons e rest ih =>
    obtain ⟨hlater, hrest⟩ := List.pairwise_cons.1 h
    rw [followed_cons, Entries.get?_cons]
    by_cases hname : name = e.1
    · rw [if_pos hname, if_pos hname.symm, Option.getD_some]
      refine followed_of_not_mem fun hmem => ?_
      obtain ⟨later, hmem, heq⟩ := List.mem_map.1 hmem
      exact hlater later hmem heq.symm
    · rw [if_neg hname, if_neg (Ne.symm hname), ih hrest]

theorem publicName_of_rename (h : t.Fair (· ∈ own)) {current new : String}
    (hok : rename t own current new = .ok renamed) {c : String} (hc : c ∈ own) :
    renamed.publicName c = if t.publicName c = current then new else t.publicName c := by
  obtain ⟨rfl, rfl⟩ | ⟨-, -, hcurrent, rfl⟩ := rename_eq_ok_iff.1 hok
  · split
    · next heq => exact heq
    · rfl
  · obtain ⟨d, hd, rfl⟩ := List.mem_map.1 hcurrent
    rw [h.publicName_rename hd]
    by_cases heq : d = c
    · rw [if_pos heq, if_pos (heq ▸ rfl)]
    · rw [if_neg heq, if_neg fun hname => heq (h.publicName_inj hc hd hname).symm]

theorem renameAll_cons_of_ok {e : String × String} {rest : List (String × String)}
    (h : rename t own e.1 e.2 = .ok renamed) : renameAll own (e :: rest) t = renameAll own rest renamed := by
  rw [renameAll, h]

theorem exists_of_renameAll_cons {e : String × String} {rest : List (String × String)}
    (h : (renameAll own (e :: rest) t).1 = .ok ()) : ∃ renamed, rename t own e.1 e.2 = .ok renamed := by
  rw [renameAll] at h
  cases hrename : rename t own e.1 e.2 with
  | error err =>
    rw [hrename] at h
    cases h
  | ok renamed => exact ⟨renamed, rfl⟩

/-- Renames that are accepted lead every name to the one that follows from them. -/
theorem fair_renameAll (h : t.Fair (· ∈ own)) (hok : (renameAll own renames t).1 = .ok ()) :
    (renameAll own renames t).2.Fair (· ∈ own) ∧
      ∀ c ∈ own, (renameAll own renames t).2.publicName c = followed renames (t.publicName c) := by
  induction renames generalizing t with
  | nil => exact ⟨h, fun _ _ => rfl⟩
  | cons e rest ih =>
    obtain ⟨renamed, hrename⟩ := exists_of_renameAll_cons hok
    rw [renameAll_cons_of_ok hrename] at hok ⊢
    obtain ⟨hfair, hnames⟩ := ih (fair_of_rename h hrename) hok
    refine ⟨hfair, fun c hc => ?_⟩
    rw [hnames c hc, publicName_of_rename h hrename hc, followed_cons]

/-- The keys of renames that are still to be made are collections with their own names. -/
def Pending (own : List String) (t : Names) (renames : List (String × String)) : Prop :=
  ∀ e ∈ renames, e.1 ∈ own ∧ t.publicName e.1 = e.1

theorem Pending.tail {e : String × String} {rest : List (String × String)} (h : Pending own t (e :: rest))
    (hfair : t.Fair (· ∈ own)) (hkeys : ((e :: rest).map Prod.fst).Nodup)
    (hok : rename t own e.1 e.2 = .ok renamed) : Pending own renamed rest := by
  intro later hlater
  obtain ⟨hmem, hname⟩ := h later (List.mem_cons_of_mem _ hlater)
  have hne : later.1 ≠ e.1 :=
    fun heq => (List.nodup_cons.1 (List.map_cons ▸ hkeys)).1 (heq ▸ List.mem_map_of_mem hlater)
  rw [publicName_of_rename hfair hok hmem, hname, if_neg hne]
  exact ⟨hmem, rfl⟩

/-- The later key still has its own name when the earlier entry is made, which is refused if it wants it. -/
theorem unchained_of_renameAll (hfair : t.Fair (· ∈ own)) (hkeys : (renames.map Prod.fst).Nodup)
    (hpending : Pending own t renames) (hok : (renameAll own renames t).1 = .ok ()) : Unchained renames := by
  induction renames generalizing t with
  | nil => exact List.Pairwise.nil
  | cons e rest ih =>
    obtain ⟨renamed, hrename⟩ := exists_of_renameAll_cons hok
    rw [renameAll_cons_of_ok hrename] at hok
    obtain ⟨hnew, hrest⟩ := List.nodup_cons.1 (List.map_cons ▸ hkeys)
    refine List.pairwise_cons.2 ⟨fun later hlater heq => ?_,
      ih (fair_of_rename hfair hrename) hrest (hpending.tail hfair hkeys hrename) hok⟩
    obtain ⟨hmem, hname⟩ := hpending later (List.mem_cons_of_mem _ hlater)
    obtain ⟨hsame, -⟩ | ⟨-, hfree, -⟩ := rename_eq_ok_iff.1 hrename
    · exact hnew (hsame.trans heq ▸ List.mem_map_of_mem hlater)
    · exact hfree (List.mem_map.2 ⟨later.1, hmem, hname.trans heq.symm⟩)

/-- The names in the end are different, so that a name which is taken on the way is given up later. -/
theorem renameAll_of_unchained (hfair : t.Fair (· ∈ own)) (hkeys : (renames.map Prod.fst).Nodup)
    (hpending : Pending own t renames) (hunchained : Unchained renames)
    (hinj : ∀ c ∈ own, ∀ d ∈ own, followed renames (t.publicName c) = followed renames (t.publicName d) → c = d) :
    (renameAll own renames t).1 = .ok () := by
  induction renames generalizing t with
  | nil => rfl
  | cons e rest ih =>
    obtain ⟨hlater, hrest⟩ := List.pairwise_cons.1 hunchained
    obtain ⟨hmem, hname⟩ := hpending e List.mem_cons_self
    have hnew : followed rest e.2 = e.2 := followed_of_not_mem fun hkey => by
      obtain ⟨later, hkey, heq⟩ := List.mem_map.1 hkey
      exact hlater later hkey heq.symm
    have hcan : ∃ renamed, rename t own e.1 e.2 = .ok renamed := by
      refine exists_rename_iff.2 (or_iff_not_imp_left.2 fun hne => ⟨?_, fun htaken => ?_⟩)
      · exact List.mem_map.2 ⟨e.1, hmem, hname⟩
      · obtain ⟨c, hc, hcname⟩ := List.mem_map.1 htaken
        have hce := hinj c hc e.1 hmem (by
          rw [followed_cons, followed_cons, hcname, hname, if_pos rfl, if_neg (Ne.symm hne)])
        exact hne (hname.symm.trans (hce ▸ hcname))
    obtain ⟨renamed, hrename⟩ := hcan
    rw [renameAll_cons_of_ok hrename]
    refine ih (fair_of_rename hfair hrename) (List.nodup_cons.1 (List.map_cons ▸ hkeys)).2
      (hpending.tail hfair hkeys hrename) hrest fun c hc d hd heq => hinj c hc d hd ?_
    rwa [publicName_of_rename hfair hrename hc, publicName_of_rename hfair hrename hd] at heq

end

/-! ## The source -/

section

variable {σ : Type} {names : Names} {child : Source σ} {own name : String}

theorem isSome_get?_members (h : own ∈ child.names) : (child.members.get? own).isSome := by
  refine Entries.isSome_get?_ofList_iff.2 ?_
  rw [List.map_map]
  exact h

theorem get?_members (h : names.Fair (· ∈ child.names)) (hown : own ∈ child.names) :
    (members names child).get? (names.publicName own) = child.members.get? own := by
  have hmap : Entries.get? (Entries.rename names.publicName (child.collections.map fun c => (c.name, c)))
      (names.publicName own) = Entries.get? (Entries.ofList (child.collections.map fun c => (c.name, c))) own :=
    Entries.get?_rename_ofList fun e he heq => by
      obtain ⟨c, hc, rfl⟩ := List.mem_map.1 he
      exact h.publicName_inj (List.mem_map_of_mem hc) hown heq
  rw [Entries.rename, List.map_map] at hmap
  exact hmap

theorem collection?_publicName (h : names.Fair (· ∈ child.names)) (hown : own ∈ child.names) :
    (source names child).collection? (names.publicName own) =
      (child.members.get? own).map (present names child (names.publicName own)) := by
  rw [← get?_members h hown]
  exact Source.find?_named (fun _ => rfl) _ _

end

end CollectionNaming

namespace Composite

open CollectionNaming

variable {σ : Type}

/-- The collections of an added source under the names that its renames lead to. -/
structure Exposes (a : Addition σ) (c added : Composite σ) : Prop where
  exposed : ∀ own ∈ a.source.names, ∃ x, a.source.members.get? own = some x ∧
    added.collection? (followed a.renames.entries own) =
      some (present a.names a.source (followed a.renames.entries own) x)
  apart : ∀ own ∈ a.source.names, ∀ other ∈ a.source.names,
    followed a.renames.entries own = followed a.renames.entries other → own = other
  others : ∀ name, (∀ own ∈ a.source.names, followed a.renames.entries own ≠ name) →
    added.collection? name = c.collection? name
  /-- They are the names of the table when no new name is renamed again, as when only collections are. -/
  given : Unchained a.renames.entries ∨ (∀ key ∈ a.renames.keys, key ∈ a.source.names) →
    ∀ own ∈ a.source.names, followed a.renames.entries own = given a.renames own

theorem pending_empty {a : Addition σ} (hkeys : ∀ key ∈ a.renames.keys, key ∈ a.source.names) :
    Pending a.source.names .empty a.renames.entries :=
  fun _ he => ⟨hkeys _ (List.mem_map_of_mem he), Names.publicName_empty _⟩

theorem exposes_of_add {a : Addition σ} {c added : Composite σ}
    (h : c.add a.source a.renames = .ok added) : Exposes a c added := by
  obtain ⟨hok, hfree, -, rfl⟩ := add_eq_ok_iff.1 h
  obtain ⟨hfair, hnames⟩ := fair_renameAll (.empty _) hok
  have hname : ∀ own ∈ a.source.names, a.names.publicName own = followed a.renames.entries own := hnames
  refine ⟨fun own hown => ?_, fun own hown other hother heq => ?_, fun name hname' => ?_,
    fun hcase own hown => ?_⟩
  · obtain ⟨x, hx⟩ := Option.isSome_iff_exists.1 (isSome_get?_members hown)
    refine ⟨x, hx, ?_⟩
    have hpart : a.names.publicName own ∈ a.part.names := mem_names_source_iff.2 ⟨own, hown, rfl⟩
    rw [← hname own hown, collection?_concat, hfree _ hpart, Option.none_or]
    refine (collection?_publicName hfair hown).trans ?_
    rw [hx]
    rfl
  · rw [← hname own hown, ← hname other hother] at heq
    exact hfair.publicName_inj hown hother heq
  · have hpart : a.part.collection? name = none := by
      rw [← Option.not_isSome_iff_eq_none, ← Source.mem_names_iff]
      intro hmem
      obtain ⟨own, hown, heq⟩ := mem_names_source_iff.1 hmem
      exact hname' own hown ((hname own hown).symm.trans heq)
    rw [collection?_concat, hpart, Option.or_none]
  · have hunchained : Unchained a.renames.entries :=
      hcase.elim id fun hkeys => unchained_of_renameAll (.empty _) a.renames.nodup_keys (pending_empty hkeys) hok
    exact followed_eq hunchained own

/-- Every accepted addition shows the collections under the names that its renames lead to. Renames of
collections to names that are different and free are accepted when none of them is renamed again and the
charts are free as well. -/
theorem exposes_and_accepted_iff (c : Composite σ) (a : Addition σ) :
    (∀ added, c.add a.source a.renames = .ok added → Exposes a c added) ∧
    ((∀ key ∈ a.renames.keys, key ∈ a.source.names) →
      (∀ own ∈ a.source.names, ∀ other ∈ a.source.names, given a.renames own = given a.renames other → own = other) →
      (∀ own ∈ a.source.names, c.collection? (given a.renames own) = none) →
      ((∃ added, c.add a.source a.renames = .ok added) ↔
        Unchained a.renames.entries ∧ ∀ chart ∈ a.source.charts.keys, c.owners.get? chart = none)) := by
  refine ⟨fun added => exposes_of_add, fun hkeys hapart hfree => ⟨fun ⟨added, h⟩ => ?_, fun ⟨hunchained, hcharts⟩ => ?_⟩⟩
  · obtain ⟨hok, -, hcharts, -⟩ := add_eq_ok_iff.1 h
    exact ⟨unchained_of_renameAll (.empty _) a.renames.nodup_keys (pending_empty hkeys) hok, hcharts⟩
  · have hgiven : ∀ own, followed a.renames.entries own = CollectionNaming.given a.renames own :=
      followed_eq hunchained
    have hok := renameAll_of_unchained (.empty _) a.renames.nodup_keys (pending_empty hkeys) hunchained
      fun own hown other hother heq => hapart own hown other hother ((hgiven own).symm.trans (heq.trans (hgiven other)))
    obtain ⟨-, hnames⟩ := fair_renameAll (.empty _) hok
    refine ⟨_, add_eq_ok_iff.2 ⟨hok, fun name hname => ?_, hcharts, rfl⟩⟩
    obtain ⟨own, hown, rfl⟩ := mem_names_source_iff.1 hname
    have hshown : a.names.publicName own = CollectionNaming.given a.renames own := (hnames own hown).trans (hgiven own)
    rw [hshown]
    exact hfree own hown

/-! ## A library -/

/-- Books and people are added once more under new names. -/
theorem exposes_and_accepted_iff_library :
    let c := run [⟨Memory.source library, .ofList [("tags", "labels")]⟩]
    let a : Addition Store := ⟨Memory.source library,
      .ofList [("books", "works"), ("people", "writers"), ("taggings", "links")]⟩
    (∀ key ∈ a.renames.keys, key ∈ a.source.names) ∧
    (∀ own ∈ a.source.names, ∀ other ∈ a.source.names, given a.renames own = given a.renames other → own = other) ∧
    (∀ own ∈ a.source.names, c.collection? (given a.renames own) = none) ∧
    ∃ added, c.add a.source a.renames = .ok added ∧ Exposes a c added := by
  intro c a
  have hkeys : ∀ key ∈ a.renames.keys, key ∈ a.source.names := by decide +kernel
  have hapart : ∀ own ∈ a.source.names, ∀ other ∈ a.source.names,
      given a.renames own = given a.renames other → own = other := by decide +kernel
  have hfree : ∀ own ∈ a.source.names, c.collection? (given a.renames own) = none := by decide +kernel
  obtain ⟨hexposes, haccepted⟩ := exposes_and_accepted_iff c a
  obtain ⟨added, hadded⟩ := (haccepted hkeys hapart hfree).2 ⟨by decide +kernel, by decide +kernel⟩
  exact ⟨hkeys, hapart, hfree, added, hadded, hexposes added hadded⟩

/-- What would hold if all entries of the table were applied at once. -/
structure AllAtOnce (c : Composite σ) (a : Addition σ) : Prop where
  exposed : ∀ added, c.add a.source a.renames = .ok added →
    ∀ own ∈ a.source.names, (added.collection? (given a.renames own)).isSome
  accepted : (∀ key ∈ a.renames.keys, key ∈ a.source.names) →
    (∀ own ∈ a.source.names, ∀ other ∈ a.source.names, given a.renames own = given a.renames other → own = other) →
    (∀ own ∈ a.source.names, c.collection? (given a.renames own) = none) →
    ∃ added, c.add a.source a.renames = .ok added

theorem AllAtOnce.isSome {c : Composite σ} {a : Addition σ} (h : AllAtOnce c a)
    (hkeys : ∀ key ∈ a.renames.keys, key ∈ a.source.names)
    (hapart : ∀ own ∈ a.source.names, ∀ other ∈ a.source.names,
      given a.renames own = given a.renames other → own = other)
    (hfree : ∀ own ∈ a.source.names, c.collection? (given a.renames own) = none) :
    (c.add a.source a.renames).toOption.isSome := by
  obtain ⟨added, hadded⟩ := h.accepted hkeys hapart hfree
  rw [hadded]
  rfl

/-- Books are renamed twice; people ask for the name that tags give up only later; a chart has an owner. -/
theorem not_allAtOnce :
    ¬AllAtOnce .empty ⟨Memory.source library, .ofList [("books", "novels"), ("novels", "tales")]⟩ ∧
    ¬AllAtOnce .empty ⟨Memory.source library, .ofList [("people", "tags"), ("tags", "topics")]⟩ ∧
    ¬AllAtOnce (run [⟨Memory.source ⟨∅, .ofList [("sales", .null)]⟩, ∅⟩])
      ⟨Memory.source ⟨∅, .ofList [("sales", .null)]⟩, ∅⟩ := by
  refine ⟨fun h => ?_, fun h => ?_, fun h => ?_⟩
  · have hunnamed : (Composite.add .empty (Memory.source library)
        (.ofList [("books", "novels"), ("novels", "tales")])).toOption.any
          (fun added => (added.collection? "novels").isNone) = true := by decide +kernel
    obtain ⟨added, hadded, hnone⟩ := (Option.any_eq_true _ _).1 hunnamed
    have hsome := h.exposed added (Outcome.eq_ok_of_toOption hadded) "books" (by decide +kernel)
    have hgiven : given (.ofList [("books", "novels"), ("novels", "tales")]) "books" = "novels" := by decide +kernel
    rw [hgiven, Option.isNone_iff_eq_none.1 hnone] at hsome
    cases hsome
  · exact absurd (h.isSome (by decide +kernel) (by decide +kernel) (by decide +kernel)) (by decide +kernel)
  · exact absurd (h.isSome (by decide +kernel) (by decide +kernel) (by decide +kernel)) (by decide +kernel)

end Composite

end QueryLayer
