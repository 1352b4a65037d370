import Mathlib.Algebra.GroupWithZero.Nat
import Mathlib.Data.List.Induction
import Mathlib.Data.List.Nodup
import QueryLayer.Proofs.Data.Entries
import QueryLayer.Proofs.Data.StableSort
import QueryLayer.Proofs.Value.Legible
import QueryLayer.Proofs.Value.Order
import QueryLayer.Query.Aggregation

/-! # Rows of an aggregation

The records are told into groups one after the other. After each of them the groups are distinct, have their
records in order and stand in the order in which they appeared; the rows are these groups, sorted. `Tabulates`
says what the rows of an aggregation are, and there is one list of which it is true: `Aggregation.tabulates_iff`.
-/
namespace QueryLayer

namespace Aggregation

variable {a : Aggregation} {records : List Record} {group other r : Record}

/-- The records of a group. -/
def membersOf (a : Aggregation) (records : List Record) (group : Record) : List Record :=
  records.filter fun r => a.groupOf r = group

/-- The place of the first record of a group. -/
def firstOf (a : Aggregation) (records : List Record) (group : Record) : Nat :=
  records.findIdx fun r => a.groupOf r = group

/-- Some record is of the group. -/
def Appears (a : Aggregation) (records : List Record) (group : Record) : Prop :=
  ∃ r ∈ records, a.groupOf r = group

theorem mem_membersOf_iff : r ∈ a.membersOf records group ↔ r ∈ records ∧ a.groupOf r = group := by
  simp [membersOf]

theorem membersOf_concat : a.membersOf (records ++ [r]) group =
    if a.groupOf r = group then a.membersOf records group ++ [r] else a.membersOf records group := by
  unfold membersOf
  rw [List.filter_append]
  split
  · next h => simp [h]
  · next h => simp [h]

theorem appears_concat_iff : a.Appears (records ++ [r]) group ↔ a.Appears records group ∨ group = a.groupOf r := by
  simp [Appears, or_and_right, exists_or, eq_comm]

theorem firstOf_lt_iff : a.firstOf records group < records.length ↔ a.Appears records group := by
  simp [firstOf, Appears]

theorem firstOf_concat_of_appears (h : a.Appears records group) :
    a.firstOf (records ++ [r]) group = a.firstOf records group := by
  have hlt := firstOf_lt_iff.2 h
  unfold firstOf at hlt ⊢
  rw [List.findIdx_append, if_pos hlt]

theorem firstOf_concat_self (h : ¬a.Appears records (a.groupOf r)) :
    a.firstOf (records ++ [r]) (a.groupOf r) = records.length := by
  have hle := mt firstOf_lt_iff.1 h
  unfold firstOf at hle ⊢
  rw [List.findIdx_append, if_neg hle]
  simp

/-- Distinct groups to which all records belong share the records out among them. -/
theorem perm_flatMap_membersOf {groups : List Record} (hgroups : groups.Nodup)
    (hall : ∀ r ∈ records, a.groupOf r ∈ groups) : (groups.flatMap (a.membersOf records)).Perm records := by
  induction groups generalizing records with
  | nil =>
    obtain rfl : records = [] := List.eq_nil_iff_forall_not_mem.2 fun r hr => List.not_mem_nil (hall r hr)
    exact .nil
  | cons g groups ih =>
    obtain ⟨hg, hgroups⟩ := List.nodup_cons.1 hgroups
    let others := records.filter fun r => !decide (a.groupOf r = g)
    have hothers : ∀ r ∈ others, a.groupOf r ∈ groups := by
      intro r hr
      obtain ⟨hr, hne⟩ := List.mem_filter.1 hr
      have hne : a.groupOf r ≠ g := by simpa using hne
      exact (List.mem_cons.1 (hall r hr)).resolve_left hne
    have hrest : groups.flatMap (a.membersOf records) = groups.flatMap (a.membersOf others) := by
      refine List.flatMap_congr fun h hh => ?_
      have hne : h ≠ g := fun heq => hg (heq ▸ hh)
      unfold membersOf
      rw [List.filter_filter]
      refine List.filter_congr fun r _ => ?_
      by_cases heq : a.groupOf r = h
      · simp [heq, hne]
      · simp [heq]
    rw [List.flatMap_cons, hrest]
    exact ((ih hgroups hothers).append_left _).trans (List.filter_append_perm _ records)

/-! ## The groups -/

variable {groups : List (Record × List Record)}

/-- What becomes of a group when a record comes to the group `group`. -/
def joined (group r : Record) (g : Record × List Record) : Record × List Record :=
  if g.1 = group then (g.1, g.2 ++ [r]) else g

@[simp] theorem fst_joined (group r : Record) (g : Record × List Record) : (joined group r g).1 = g.1 := by
  unfold joined
  split <;> rfl

theorem map_fst_joined (group r : Record) : (groups.map (joined group r)).map Prod.fst = groups.map Prod.fst := by
  simp [Function.comp_def]

theorem collect_of_mem (hgroups : (groups.map Prod.fst).Nodup) (h : group ∈ groups.map Prod.fst) :
    collect group r groups = groups.map (joined group r) := by
  induction groups with
  | nil => simp at h
  | cons g groups ih =>
    obtain ⟨hg, hgroups⟩ := List.nodup_cons.1 hgroups
    rw [collect, List.map_cons]
    by_cases heq : g.1 = group
    · subst heq
      have hrest : groups.map (joined g.1 r) = groups := by
        refine (List.map_congr_left fun h hh => ?_).trans (List.map_id groups)
        have hne : h.1 ≠ g.1 := fun heq => hg (heq ▸ List.mem_map_of_mem hh)
        exact if_neg hne
      rw [if_pos rfl, joined, if_pos rfl, hrest]
    · have hmem : group ∈ groups.map Prod.fst := (List.mem_cons.1 h).resolve_left (Ne.symm heq)
      rw [if_neg heq, joined, if_neg heq, ih hgroups hmem]

theorem collect_of_not_mem (h : group ∉ groups.map Prod.fst) :
    collect group r groups = groups ++ [(group, [r])] := by
  induction groups with
  | nil => rfl
  | cons g groups ih =>
    rw [List.map_cons, List.mem_cons, not_or] at h
    rw [collect, if_neg (Ne.symm h.1), ih h.2, List.cons_append]

/-- What the groups are after the records so far. -/
structure Grouped (a : Aggregation) (records : List Record) (groups : List (Record × List Record)) : Prop where
  distinct : (groups.map Prod.fst).Nodup
  appears : ∀ group, group ∈ groups.map Prod.fst ↔ a.Appears records group
  members : ∀ g ∈ groups, g.2 = a.membersOf records g.1
  firsts : groups.Pairwise fun g h => a.firstOf records g.1 < a.firstOf records h.1

theorem Grouped.appears_of_mem (h : a.Grouped records groups) {g : Record × List Record} (hg : g ∈ groups) :
    a.Appears records g.1 :=
  (h.appears g.1).1 (List.mem_map_of_mem hg)

theorem Grouped.firsts_concat (h : a.Grouped records groups) (r : Record) :
    groups.Pairwise fun g h => a.firstOf (records ++ [r]) g.1 < a.firstOf (records ++ [r]) h.1 := by
  refine h.firsts.imp_of_mem fun hg hh hlt => ?_
  rw [firstOf_concat_of_appears (h.appears_of_mem hg), firstOf_concat_of_appears (h.appears_of_mem hh)]
  exact hlt

/-- A record joins its group. -/
theorem Grouped.join (h : a.Grouped records groups) (hmem : a.groupOf r ∈ groups.map Prod.fst) :
    a.Grouped (records ++ [r]) (groups.map (joined (a.groupOf r) r)) := by
  refine ⟨?_, fun group => ?_, fun g hg => ?_, ?_⟩
  · rw [map_fst_joined]
    exact h.distinct
  · have hold : group = a.groupOf r → a.Appears records group := fun heq => heq ▸ (h.appears _).1 hmem
    rw [map_fst_joined, h.appears, appears_concat_iff]
    exact ⟨Or.inl, fun hor => hor.elim id hold⟩
  · obtain ⟨old, hold, rfl⟩ := List.mem_map.1 hg
    rw [fst_joined, membersOf_concat, ← h.members old hold, joined]
    by_cases heq : old.1 = a.groupOf r
    · rw [if_pos heq, if_pos heq.symm]
    · rw [if_neg heq, if_neg (Ne.symm heq)]
  · rw [List.pairwise_map]
    simp only [fst_joined]
    exact h.firsts_concat r

/-- A record of a new group starts it behind all others. -/
theorem Grouped.start (h : a.Grouped records groups) (hmem : a.groupOf r ∉ groups.map Prod.fst) :
    a.Grouped (records ++ [r]) (groups ++ [(a.groupOf r, [r])]) := by
  have hnew : ¬a.Appears records (a.groupOf r) := mt (h.appears _).2 hmem
  have hne : ∀ g ∈ groups, g.1 ≠ a.groupOf r := fun g hg heq => hmem (heq ▸ List.mem_map_of_mem hg)
  refine ⟨?_, fun group => ?_, fun g hg => ?_, ?_⟩
  · rw [List.map_append, List.map_singleton, ← List.concat_eq_append]
    exact List.Nodup.concat hmem h.distinct
  · rw [List.map_append, List.mem_append, h.appears, appears_concat_iff, List.map_singleton, List.mem_singleton]
  · rcases List.mem_append.1 hg with hg | hg
    · rw [membersOf_concat, if_neg (hne g hg).symm]
      exact h.members g hg
    · obtain rfl := List.mem_singleton.1 hg
      have hnone : a.membersOf records (a.groupOf r) = [] :=
        List.eq_nil_iff_forall_not_mem.2 fun s hs => hnew ⟨s, mem_membersOf_iff.1 hs⟩
      rw [membersOf_concat, if_pos rfl, hnone, List.nil_append]
  · refine List.pairwise_append.2 ⟨h.firsts_concat r, List.pairwise_singleton _ _, fun g hg last hlast => ?_⟩
    obtain rfl := List.mem_singleton.1 hlast
    rw [firstOf_concat_of_appears (h.appears_of_mem hg), firstOf_concat_self hnew]
    exact firstOf_lt_iff.2 (h.appears_of_mem hg)

theorem Grouped.collect (h : a.Grouped records groups) (r : Record) :
    a.Grouped (records ++ [r]) (collect (a.groupOf r) r groups) := by
  by_cases hmem : a.groupOf r ∈ groups.map Prod.fst
  · rw [collect_of_mem h.distinct hmem]
    exact h.join hmem
  · rw [collect_of_not_mem hmem]
    exact h.start hmem

theorem grouped_groupsOf (a : Aggregation) (records : List Record) : a.Grouped records (a.groupsOf records) := by
  induction records using List.reverseRecOn with
  | nil => exact ⟨.nil, fun _ => by simp [groupsOf, Appears], fun _ h => absurd h List.not_mem_nil, .nil⟩
  | append_singleton records r ih =>
    rw [groupsOf, List.foldl_append]
    exact ih.collect r

/-! ## The rows -/

/-- One row comes before another: its value is the greater one, or as great and its group appeared first. -/
def Ahead (a : Aggregation) (records : List Record) (x y : AggregateRow) : Prop :=
  x.value.sortOrder y.value = .gt ∨
    x.value.sortOrder y.value = .eq ∧ a.firstOf records x.group < a.firstOf records y.group

/-- The rows of an aggregation over records: one for each group, which share the records out among them, each
with the value of its own records. -/
structure Tabulates (a : Aggregation) (records : List Record) (rows : List AggregateRow) : Prop where
  distinct : (rows.map AggregateRow.group).Nodup
  shared : (rows.flatMap fun row => a.membersOf records row.group).Perm records
  occupied : ∀ row ∈ rows, a.Appears records row.group
  valued : ∀ row ∈ rows, row.value = a.compute (a.membersOf records row.group)
  ordered : rows.Pairwise (a.Ahead records)

namespace Tabulates

variable {rows others : List AggregateRow}

theorem mem_iff (h : a.Tabulates records rows) {row : AggregateRow} : row ∈ rows ↔
    a.Appears records row.group ∧ row.value = a.compute (a.membersOf records row.group) := by
  constructor
  · exact fun hrow => ⟨h.occupied row hrow, h.valued row hrow⟩
  · rintro ⟨⟨r, hr, hgroup⟩, hvalue⟩
    obtain ⟨found, hfound, hmem⟩ := List.mem_flatMap.1 (h.shared.mem_iff.2 hr)
    have hsame : found.group = row.group := (mem_membersOf_iff.1 hmem).2.symm.trans hgroup
    have heq : found = row := by
      cases found
      cases row
      simp only at hsame hvalue
      subst hsame
      rw [hvalue]
      exact congrArg (AggregateRow.mk · _) (h.valued _ hfound)
    exact heq ▸ hfound

theorem asymm {x y : AggregateRow} (hxy : a.Ahead records x y) (hyx : a.Ahead records y x) : False := by
  have hswap : y.value.sortOrder x.value = (x.value.sortOrder y.value).swap := Std.OrientedCmp.eq_swap
  rcases hxy with hgt | ⟨heq, hlt⟩
  · rw [Ahead, hswap, hgt] at hyx
    simp at hyx
  · rw [Ahead, hswap, heq] at hyx
    simp only [Ordering.swap_eq, reduceCtorEq, true_and, false_or] at hyx
    omega

/-- There is only one list of rows. -/
theorem unique (h : a.Tabulates records rows) (h' : a.Tabulates records others) : rows = others := by
  have hperm : rows.Perm others := by
    refine (List.perm_ext_iff_of_nodup (.of_map _ h.distinct) (.of_map _ h'.distinct)).2 fun row => ?_
    rw [h.mem_iff, h'.mem_iff]
  exact hperm.eq_of_pairwise (fun x y _ _ hxy hyx => (asymm hxy hyx).elim) h.ordered h'.ordered

end Tabulates

/-- The order of rows, the greatest value first. -/
def rowCompare (x y : AggregateRow) : Ordering := y.value.sortOrder x.value

instance : Std.TransCmp rowCompare := by
  have horder : Std.TransCmp Value.sortOrder := inferInstance
  exact { eq_swap := horder.eq_swap, isLE_trans := fun hxy hyz => horder.isLE_trans hyz hxy }

theorem ahead_of_rowCompare {x y : AggregateRow} (h : rowCompare x y = .lt ∨
    rowCompare x y = .eq ∧ a.firstOf records x.group < a.firstOf records y.group) : a.Ahead records x y := by
  rcases h with hlt | ⟨heq, hfirst⟩
  · exact Or.inl (Std.OrientedCmp.gt_iff_lt.2 hlt)
  · exact Or.inr ⟨Std.OrientedCmp.eq_symm heq, hfirst⟩

theorem tabulates_apply (a : Aggregation) (records : List Record) :
    a.Tabulates records (a.apply records none) := by
  have hgrouped := a.grouped_groupsOf records
  let rows : List AggregateRow := (a.groupsOf records).map fun g => ⟨a.compute g.2, g.1⟩
  have hsorted : SortsBy rowCompare rows (a.apply records none) := SortsBy.mergeSort rowCompare rows
  have hfst : rows.map AggregateRow.group = (a.groupsOf records).map Prod.fst := List.map_map ..
  have hmem : ∀ row ∈ a.apply records none, ∃ g ∈ a.groupsOf records, ⟨a.compute g.2, g.1⟩ = row :=
    fun row hrow => List.mem_map.1 (hsorted.perm.mem_iff.1 hrow)
  have hfirsts : rows.Pairwise fun x y => a.firstOf records x.group < a.firstOf records y.group :=
    List.pairwise_map.2 hgrouped.firsts
  refine ⟨?_, ?_, fun row hrow => ?_, fun row hrow => ?_, (hsorted.pairwise hfirsts).imp ahead_of_rowCompare⟩
  · rw [(hsorted.perm.map _).nodup_iff, hfst]
    exact hgrouped.distinct
  · have hall : ∀ r ∈ records, a.groupOf r ∈ rows.map AggregateRow.group := by
      intro r hr
      rw [hfst, hgrouped.appears]
      exact ⟨r, hr, rfl⟩
    have hrows := perm_flatMap_membersOf (hfst ▸ hgrouped.distinct) hall
    rw [List.flatMap_map] at hrows
    exact (hsorted.perm.flatMap_right _).trans hrows
  · obtain ⟨g, hg, rfl⟩ := hmem row hrow
    exact hgrouped.appears_of_mem hg
  · obtain ⟨g, hg, rfl⟩ := hmem row hrow
    exact congrArg a.compute (hgrouped.members g hg)

theorem tabulates_iff {rows : List AggregateRow} : a.Tabulates records rows ↔ rows = a.apply records none := by
  constructor
  · exact fun h => h.unique (a.tabulates_apply records)
  · rintro rfl
    exact a.tabulates_apply records

/-- Counts without a field count every record once. -/
theorem sum_counts (hfunction : a.function = .count) (hfield : a.field = none) (records : List Record) :
    ∃ counts : List Nat, (a.apply records none).map AggregateRow.value = counts.map Value.nat ∧
      counts.sum = records.length := by
  have h := a.tabulates_apply records
  refine ⟨(a.apply records none).map fun row => (a.membersOf records row.group).length, ?_, ?_⟩
  · rw [List.map_map]
    refine List.map_congr_left fun row hrow => ?_
    rw [h.valued row hrow, compute, hfunction, hfield]
    rfl
  · rw [← List.length_flatMap]
    exact h.shared.length_eq

/-! ## Groups kept under their texts -/

/-- The text that stands for a group. -/
def groupText (group : Record) : String := (Value.object group).compact

/-- Groups with their members, each under its text, and the texts in the order in which they were met. -/
structure Buckets where
  order : List String
  table : Dict (Record × List Record)

namespace Buckets

def empty : Buckets := ⟨[], ∅⟩

/-- Adds a record to what stands under the text of its group, or starts there. -/
def add (b : Buckets) (group record : Record) : Buckets :=
  match b.table.get? (groupText group) with
  | some (first, members) => { b with table := b.table.insert (groupText group) (first, members ++ [record]) }
  | none => ⟨b.order ++ [groupText group], b.table.insert (groupText group) (group, [record])⟩

/-- Takes out of a table what stands under texts, one after the other. -/
def drain : List String → Dict (Record × List Record) → List (Record × List Record)
  | [], _ => []
  | text :: rest, table =>
    match table.get? text with
    | some g => g :: drain rest (table.erase text)
    | none => drain rest table

/-- The buckets are the groups, each under its text. -/
structure Holds (b : Buckets) (groups : List (Record × List Record)) : Prop where
  order : b.order = groups.map fun g => groupText g.1
  stored : ∀ g ∈ groups, b.table.get? (groupText g.1) = some g
  only : ∀ text, text ∉ b.order → b.table.get? text = none

variable {b : Buckets}

theorem Holds.join (h : b.Holds groups) (hgroups : (groups.map Prod.fst).Nodup) {g : Record × List Record}
    (hg : g ∈ groups) (hapart : ∀ old ∈ groups, groupText old.1 = groupText g.1 → old.1 = g.1) :
    (b.add g.1 r).Holds (groups.map (joined g.1 r)) := by
  unfold add
  rw [h.stored g hg]
  refine ⟨?_, fun new hnew => ?_, fun text htext => ?_⟩
  · rw [List.map_map, h.order]
    exact List.map_congr_left fun old _ => congrArg groupText (fst_joined g.1 r old).symm
  · obtain ⟨old, hold, rfl⟩ := List.mem_map.1 hnew
    by_cases heq : old.1 = g.1
    · obtain rfl : old = g := List.inj_on_of_nodup_map hgroups hold hg heq
      rw [joined, if_pos rfl]
      exact Dict.get?_insert_self ..
    · have hne : groupText g.1 ≠ groupText old.1 := fun htexts => heq (hapart old hold htexts.symm)
      rw [joined, if_neg heq]
      exact (Dict.get?_insert_of_ne _ hne _).trans (h.stored old hold)
  · have hne : groupText g.1 ≠ text := by
      rintro rfl
      rw [h.order] at htext
      exact htext (List.mem_map.2 ⟨g, hg, rfl⟩)
    exact (Dict.get?_insert_of_ne _ hne _).trans (h.only text htext)

theorem Holds.start (h : b.Holds groups) (hnew : ∀ g ∈ groups, groupText group ≠ groupText g.1) :
    (b.add group r).Holds (groups ++ [(group, [r])]) := by
  have hfree : groupText group ∉ b.order := by
    rw [h.order]
    simpa using fun text members hg => (hnew (text, members) hg).symm
  unfold add
  rw [h.only _ hfree]
  refine ⟨?_, fun g hg => ?_, fun text htext => ?_⟩
  · rw [List.map_append, h.order]
    rfl
  · rcases List.mem_append.1 hg with hg | hg
    · exact (Dict.get?_insert_of_ne _ (hnew g hg) _).trans (h.stored g hg)
    · obtain rfl := List.mem_singleton.1 hg
      exact Dict.get?_insert_self ..
  · rw [List.mem_append, List.mem_singleton, not_or] at htext
    exact (Dict.get?_insert_of_ne _ (Ne.symm htext.2) _).trans (h.only text htext.1)

/-- A record is added under the text of its group as it is collected with the group. -/
theorem Holds.collect (h : b.Holds groups) (hgroups : (groups.map Prod.fst).Nodup)
    (hapart : ∀ g ∈ groups, groupText g.1 = groupText group → g.1 = group) :
    (b.add group r).Holds (collect group r groups) := by
  by_cases hmem : group ∈ groups.map Prod.fst
  · rw [collect_of_mem hgroups hmem]
    obtain ⟨g, hg, rfl⟩ := List.mem_map.1 hmem
    exact h.join hgroups hg hapart
  · rw [collect_of_not_mem hmem]
    exact h.start fun g hg htexts => hmem (List.mem_map.2 ⟨g, hg, hapart g hg htexts.symm⟩)

/-- The table gives back what it holds. -/
theorem drain_of_stored {table : Dict (Record × List Record)}
    (htexts : (groups.map fun g => groupText g.1).Nodup)
    (hstored : ∀ g ∈ groups, table.get? (groupText g.1) = some g) :
    drain (groups.map fun g => groupText g.1) table = groups := by
  induction groups generalizing table with
  | nil => rfl
  | cons g groups ih =>
    obtain ⟨hg, htexts⟩ := List.nodup_cons.1 htexts
    have hrest : ∀ h ∈ groups, (table.erase (groupText g.1)).get? (groupText h.1) = some h := by
      intro h hh
      have hne : groupText g.1 ≠ groupText h.1 := fun heq => hg (List.mem_map.2 ⟨h, hh, heq.symm⟩)
      rw [Dict.get?_erase_of_ne _ hne]
      exact hstored h (List.mem_cons_of_mem g hh)
    rw [List.map_cons, drain, hstored g List.mem_cons_self]
    dsimp only
    rw [ih htexts hrest]

end Buckets

def bucketsOf (a : Aggregation) (records : List Record) : Buckets :=
  records.foldl (fun b r => b.add (a.groupOf r) r) .empty

/-- The rows by way of the texts of the groups. -/
def applyByText (a : Aggregation) (records : List Record) (limit : Option Nat) : List AggregateRow :=
  let buckets := a.bucketsOf records
  let rows : List AggregateRow :=
    (Buckets.drain buckets.order buckets.table).map fun g => ⟨a.compute g.2, g.1⟩
  let sorted := rows.mergeSort fun x y => (y.value.sortOrder x.value).isLE
  match limit with
  | some n => sorted.take n
  | none => sorted

/-- Records of different groups are of groups with different texts. -/
def TextsApart (a : Aggregation) (records : List Record) : Prop :=
  ∀ r ∈ records, ∀ s ∈ records, groupText (a.groupOf r) = groupText (a.groupOf s) → a.groupOf r = a.groupOf s

theorem textsApart_of_legible
    (h : ∀ r ∈ records, (Value.object (a.groupOf r)).legible Written.maxDepth = true) : a.TextsApart records := by
  intro r hr s hs htexts
  have hread := (Value.read?_compact_iff _).2 (h r hr)
  have hother := (Value.read?_compact_iff _).2 (h s hs)
  unfold groupText at htexts
  rw [htexts, hother] at hread
  exact (Value.object.inj (Option.some.inj hread)).symm

theorem holds_bucketsOf (h : a.TextsApart records) : (a.bucketsOf records).Holds (a.groupsOf records) := by
  induction records using List.reverseRecOn with
  | nil => exact ⟨rfl, fun _ hg => absurd hg List.not_mem_nil, fun _ _ => rfl⟩
  | append_singleton records r ih =>
    have hgrouped := a.grouped_groupsOf records
    have hearlier : a.TextsApart records :=
      fun s hs t ht => h s (List.mem_append_left _ hs) t (List.mem_append_left _ ht)
    have hapart : ∀ g ∈ a.groupsOf records, groupText g.1 = groupText (a.groupOf r) → g.1 = a.groupOf r := by
      intro g hg htexts
      obtain ⟨s, hs, hgroup⟩ := hgrouped.appears_of_mem hg
      rw [← hgroup] at htexts ⊢
      exact h s (List.mem_append_left _ hs) r List.mem_concat_self htexts
    rw [bucketsOf, groupsOf, List.foldl_append, List.foldl_append]
    exact (ih hearlier).collect hgrouped.distinct hapart

/-- Texts that tell the groups apart serve as well as the groups. -/
theorem applyByText_eq (h : a.TextsApart records) (limit : Option Nat) :
    a.applyByText records limit = a.apply records limit := by
  have hgrouped := a.grouped_groupsOf records
  have hholds := holds_bucketsOf h
  have htexts : ((a.groupsOf records).map fun g => groupText g.1).Nodup := by
    refine List.Nodup.map_on (fun g hg other hother heq => ?_) (.of_map _ hgrouped.distinct)
    obtain ⟨r, hr, hgroup⟩ := hgrouped.appears_of_mem hg
    obtain ⟨s, hs, hgroups⟩ := hgrouped.appears_of_mem hother
    refine List.inj_on_of_nodup_map hgrouped.distinct hg hother ?_
    rw [← hgroup, ← hgroups] at heq ⊢
    exact h r hr s hs heq
  have hdrain : Buckets.drain (a.bucketsOf records).order (a.bucketsOf records).table = a.groupsOf records := by
    rw [hholds.order]
    exact Buckets.drain_of_stored htexts hholds.stored
  cases limit with
  | none =>
    unfold applyByText apply
    dsimp only
    rw [hdrain]
  | some n =>
    unfold applyByText apply
    dsimp only
    rw [hdrain]

/-- An aggregation makes the one list of rows of its groups, the greatest value first and equal ones in the order
in which their groups appeared; the rows of a count without a field count every record once; a limit cuts the
list; and it is the same list when the groups are kept under texts that tell them apart. -/
theorem rows_eq (a : Aggregation) (records : List Record) :
    (∀ rows, a.Tabulates records rows ↔ rows = a.apply records none) ∧
    (a.function = .count → a.field = none → ∃ counts : List Nat,
      (a.apply records none).map AggregateRow.value = counts.map Value.nat ∧ counts.sum = records.length) ∧
    (∀ n, a.apply records (some n) = (a.apply records none).take n) ∧
    (a.TextsApart records → ∀ limit, a.applyByText records limit = a.apply records limit) := by
  refine ⟨fun rows => tabulates_iff, ?_, fun n => rfl, applyByText_eq⟩
  exact fun hfunction hfield => sum_counts hfunction hfield records

end Aggregation

namespace Shelves

def byGenre : Aggregation := Aggregation.count.groupBy "genre" none

def books : List Record :=
  [[("genre", .text "essay")], [("genre", .text "novel")], [], [("genre", .text "novel")]]

theorem rows_eq_books : byGenre.function = .count ∧ byGenre.field = none ∧ byGenre.TextsApart books ∧
    byGenre.apply books none = [⟨.nat 2, [("genre", .text "novel")]⟩, ⟨.nat 1, [("genre", .text "essay")]⟩,
      ⟨.nat 1, [("genre", .null)]⟩] ∧
    (∃ counts : List Nat, (byGenre.apply books none).map AggregateRow.value = counts.map Value.nat ∧
      counts.sum = 4) ∧
    byGenre.applyByText books (some 2) = (byGenre.apply books none).take 2 := by
  have hapart : byGenre.TextsApart books := by
    refine Aggregation.textsApart_of_legible ?_
    decide +kernel
  obtain ⟨hrows, hcounts, hlimit, htexts⟩ := byGenre.rows_eq books
  refine ⟨rfl, rfl, hapart, ((hrows _).1 ⟨?_, ?_, ?_, ?_, ?_⟩).symm, hcounts rfl rfl, ?_⟩
  · decide +kernel
  · decide +kernel
  · unfold Aggregation.Appears
    decide +kernel
  · decide +kernel
  · unfold Aggregation.Ahead
    decide +kernel
  · rw [htexts hapart, hlimit]

end Shelves

end QueryLayer
