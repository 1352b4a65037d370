import QueryLayer.Proofs.Data.Entries
import QueryLayer.Query.Projection

/-! # The relations that projections go through

`p.Through hops` says that some path of `p` goes on after these hops. Projections that go through the
same hops attach the same relations. A projection without relations keeps the columns it lists.
-/
namespace QueryLayer

namespace Path

theorem split?_eq_some_iff {path first rest : String} :
    split? path = some (first, rest) ↔ hops path = first :: hops rest := by
  constructor
  · exact hops_of_split?
  · intro h
    obtain ⟨second, others, hrest⟩ := List.exists_cons_of_ne_nil (hops_ne_nil rest)
    rw [split?, h, hrest]
    dsimp only
    rw [← hrest, join_hops]

theorem split?_eq_none_iff {path : String} : split? path = none ↔ hops path = [path] := by
  constructor
  · intro h
    obtain ⟨first, others, hhops⟩ := List.exists_cons_of_ne_nil (hops_ne_nil path)
    cases others with
    | nil =>
      have hjoin := join_hops path
      rw [hhops] at hjoin
      rw [hhops, ← hjoin]
      rfl
    | cons second others =>
      rw [split?, hhops] at h
      cases h
  · intro h
    rw [split?, h]

theorem plain_of_split?_eq_none {path : String} (h : split? path = none) : Plain path := by
  apply plain_of_mem_hops
  rw [split?_eq_none_iff.1 h]
  exact List.mem_singleton_self path

/-- Hops after the first are the hops of a path. -/
theorem exists_split?_of_hops {path first : String} {rest : List String} (h : hops path = first :: rest)
    (hrest : rest ≠ []) : ∃ f, split? path = some (first, f) ∧ hops f = rest := by
  obtain ⟨second, others, rfl⟩ := List.exists_cons_of_ne_nil hrest
  have hsplit : split? path = some (first, join (second :: others)) := by
    rw [split?, h]
  refine ⟨_, hsplit, ?_⟩
  have hhops := hops_of_split? hsplit
  rw [h] at hhops
  exact (List.cons.inj hhops).2.symm

theorem dropLast_hops_under {name : String} (h : Plain name) (path : String) :
    (hops (under name path)).dropLast = name :: (hops path).dropLast := by
  rw [hops_under h, List.dropLast_cons_of_ne_nil (hops_ne_nil path)]

theorem dropLast_hops_of_plain {name : String} (h : Plain name) : (hops name).dropLast = [] := by
  rw [hops_of_plain h]
  rfl

/-- Hops that a path goes on after lead no further than to its end. -/
theorem prefix_ne_iff {hops path : List String} :
    hops <+: path ∧ hops ≠ path ↔ path ≠ [] ∧ hops <+: path.dropLast := by
  constructor
  · rintro ⟨hbegins, hne⟩
    have hnil : path ≠ [] := by
      rintro rfl
      exact hne (List.prefix_nil.1 hbegins)
    refine ⟨hnil, ?_⟩
    rw [← List.dropLast_concat_getLast hnil, List.prefix_concat_iff,
      List.dropLast_concat_getLast hnil] at hbegins
    exact hbegins.resolve_left hne
  · rintro ⟨hnil, hbegins⟩
    refine ⟨hbegins.trans (List.dropLast_prefix path), ?_⟩
    rintro rfl
    have hlength := hbegins.length_le
    have hpos := List.length_pos_iff.2 hnil
    rw [List.length_dropLast] at hlength
    omega

end Path

namespace Projection

variable {p q : Projection}

/-- Some path goes on after these hops. -/
def Through (p : Projection) (hops : List String) : Prop :=
  ∃ f ∈ p.fields, hops <+: Path.hops f ∧ hops ≠ Path.hops f

theorem Through.of_prefix {hops before : List String} (h : p.Through hops) (hbegins : before <+: hops) :
    p.Through before := by
  obtain ⟨f, hf, hpath, hne⟩ := h
  refine ⟨f, hf, hbegins.trans hpath, fun heq => hne ?_⟩
  exact hpath.eq_of_length_le (heq ▸ hbegins.length_le)

/-- Both go through the same relations, at every depth. -/
def SameHops (p q : Projection) : Prop := ∀ hops, hops ≠ [] → (p.Through hops ↔ q.Through hops)

/-- The relations of one are among those of the other. -/
def Within (p q : Projection) : Prop := ∀ hops, hops ≠ [] → p.Through hops → q.Through hops

theorem within_of_subset (h : ∀ f ∈ p.fields, f ∈ q.fields) : p.Within q := by
  rintro hops - ⟨f, hf, hbegins⟩
  exact ⟨f, h f hf, hbegins⟩

theorem unnest_subset (h : ∀ f ∈ p.fields, f ∈ q.fields) (name : String) :
    ∀ f ∈ (p.unnest name).fields, f ∈ (q.unnest name).fields := by
  intro f hf
  obtain ⟨g, hg, hsplit⟩ := mem_unnest.1 hf
  exact mem_unnest.2 ⟨g, h g hg, hsplit⟩

theorem through_singleton_iff {name : String} :
    p.Through [name] ↔ ∃ f ∈ p.fields, ∃ rest, Path.split? f = some (name, rest) := by
  refine exists_congr fun f => and_congr_right fun _ => ?_
  constructor
  · rintro ⟨⟨t, ht⟩, hne⟩
    have hnil : t ≠ [] := by
      rintro rfl
      exact hne ht
    obtain ⟨rest, hrest, _⟩ := Path.exists_split?_of_hops ht.symm hnil
    exact ⟨rest, hrest⟩
  · rintro ⟨rest, hrest⟩
    have hhops := Path.split?_eq_some_iff.1 hrest
    refine ⟨⟨_, hhops.symm⟩, fun heq => ?_⟩
    rw [hhops, List.cons_inj_right] at heq
    exact Path.hops_ne_nil rest heq.symm

theorem isSome_get?_heads_iff {name : String} : (p.heads.get? name).isSome ↔ p.Through [name] := by
  rw [through_singleton_iff]
  refine (Entries.isSome_get?_foldl_insert _ [] name).trans ?_
  simp only [Entries.get?_nil, Option.isSome_none, Bool.false_eq_true, false_or, List.map_filterMap,
    List.mem_filterMap]
  refine exists_congr fun f => and_congr_right fun _ => ?_
  cases Path.split? f with
  | none => simp
  | some s =>
    constructor
    · intro h
      cases h
      exact ⟨s.2, rfl⟩
    · rintro ⟨rest, h⟩
      cases h
      rfl

theorem through_unnest_iff {name : String} {hops : List String} :
    (p.unnest name).Through hops ↔ p.Through (name :: hops) := by
  constructor
  · rintro ⟨f, hf, hbegins, hne⟩
    obtain ⟨g, hg, hsplit⟩ := mem_unnest.1 hf
    have hhops := Path.split?_eq_some_iff.1 hsplit
    refine ⟨g, hg, ?_, ?_⟩
    · rw [hhops]
      exact List.cons_prefix_cons.2 ⟨rfl, hbegins⟩
    · rw [hhops]
      exact fun heq => hne (List.cons.inj heq).2
  · rintro ⟨g, hg, ⟨t, ht⟩, hne⟩
    have hnil : hops ++ t ≠ [] := by
      intro hnil
      obtain ⟨rfl, rfl⟩ := List.append_eq_nil_iff.1 hnil
      exact hne ht
    obtain ⟨f, hsplit, hf⟩ := Path.exists_split?_of_hops ht.symm hnil
    refine ⟨f, mem_unnest.2 ⟨g, hg, hsplit⟩, ⟨t, hf.symm⟩, ?_⟩
    rw [hf]
    intro heq
    refine hne ?_
    rw [← ht, List.cons_append]
    exact congrArg (name :: ·) heq

theorem through_of_mem_heads {e : String × Unit} (h : e ∈ p.heads.entries) : p.Through [e.1] :=
  isSome_get?_heads_iff.1 (Option.isSome_of_eq_some (Dict.get?_eq_some_iff.2 h))

/-- Behind a relation there are shorter paths. -/
theorem depth_unnest_lt {name : String} (h : p.Through [name]) : (p.unnest name).depth < p.depth := by
  obtain ⟨u, hu⟩ := Option.isSome_iff_exists.1 (isSome_get?_heads_iff.2 h)
  exact depth_lt_of_mem_relations (List.mem_map.2 ⟨(name, u), Dict.get?_eq_some_iff.1 hu, rfl⟩)

theorem SameHops.heads_eq (h : SameHops p q) : p.heads = q.heads := by
  refine Dict.ext fun name => ?_
  have hname := h [name] (by simp)
  rw [← isSome_get?_heads_iff, ← isSome_get?_heads_iff] at hname
  cases hp : p.heads.get? name with
  | none => cases hq : q.heads.get? name <;> simp [hp, hq] at hname ⊢
  | some _ => cases hq : q.heads.get? name <;> simp [hp, hq] at hname ⊢

theorem SameHops.unnest (h : SameHops p q) (name : String) : SameHops (p.unnest name) (q.unnest name) := by
  intro hops _
  rw [through_unnest_iff, through_unnest_iff]
  exact h (name :: hops) (by simp)

theorem Within.unnest (h : Within p q) (name : String) : Within (p.unnest name) (q.unnest name) := by
  intro hops _ hthrough
  rw [through_unnest_iff] at hthrough ⊢
  exact h (name :: hops) (by simp) hthrough

theorem through_union_iff {hops : List String} : (p.union q).Through hops ↔ p.Through hops ∨ q.Through hops := by
  unfold Through
  simp only [mem_union, or_and_right, exists_or]

theorem SameHops.union_left (h : SameHops p q) (r : Projection) : SameHops (r.union p) (r.union q) := by
  intro hops hnil
  rw [through_union_iff, through_union_iff, h hops hnil]

theorem through_iff_dropLast {p : Projection} {hops : List String} :
    p.Through hops ↔ ∃ f ∈ p.fields, hops <+: (Path.hops f).dropLast := by
  refine exists_congr fun f => and_congr_right fun _ => ?_
  rw [Path.prefix_ne_iff]
  exact and_iff_right (Path.hops_ne_nil f)

theorem sameHops_of_dropLast {p q : Projection}
    (hp : ∀ f ∈ p.fields, ∃ g ∈ q.fields, (Path.hops f).dropLast = (Path.hops g).dropLast)
    (hq : ∀ g ∈ q.fields, ∃ f ∈ p.fields, (Path.hops f).dropLast = (Path.hops g).dropLast) :
    p.SameHops q := by
  intro hops _
  rw [through_iff_dropLast, through_iff_dropLast]
  constructor
  · rintro ⟨f, hf, hbegins⟩
    obtain ⟨g, hg, heq⟩ := hp f hf
    exact ⟨g, hg, heq ▸ hbegins⟩
  · rintro ⟨g, hg, hbegins⟩
    obtain ⟨f, hf, heq⟩ := hq g hg
    exact ⟨f, hf, heq ▸ hbegins⟩

theorem sameHops_of_plain (hp : ∀ f ∈ p.fields, Path.Plain f) (hq : ∀ f ∈ q.fields, Path.Plain f) :
    SameHops p q := by
  have hnone : ∀ {p : Projection} {hops : List String}, (∀ f ∈ p.fields, Path.Plain f) → hops ≠ [] →
      ¬p.Through hops := by
    intro p hops hplain hnil hthrough
    obtain ⟨f, hf, hbegins⟩ := through_iff_dropLast.1 hthrough
    rw [Path.dropLast_hops_of_plain (hplain f hf)] at hbegins
    exact hnil (List.prefix_nil.1 hbegins)
  intro hops hnil
  exact iff_of_false (hnone hp hnil) (hnone hq hnil)

theorem entries_relations (p : Projection) :
    p.relations.entries = p.heads.entries.map fun e => (e.1, p.unnest e.1) := rfl

/-! ## Without relations -/

theorem entries_relations_of_plain (h : ∀ f ∈ p.fields, Path.Plain f) : p.relations.entries = [] := by
  cases hentries : p.heads.entries with
  | nil => rw [entries_relations, hentries, List.map_nil]
  | cons e rest =>
    have hmem : p.heads.get? e.1 = some e.2 := by
      rw [Dict.get?_eq_some_iff, hentries]
      exact List.mem_cons_self
    obtain ⟨f, hf, rest, hsplit⟩ := through_singleton_iff.1 (isSome_get?_heads_iff.1 (by rw [hmem]; rfl))
    rw [Path.split?_of_plain (h f hf)] at hsplit
    cases hsplit

theorem get?_foldl_columns (record : Record) (names : List String) (out : Record) (name : String) :
    (names.foldl (fun (out : Record) name =>
      match record.get? name with
      | some v => out.insert name v
      | none => out) out).get? name =
      if name ∈ names ∧ (record.get? name).isSome then record.get? name else out.get? name := by
  induction names generalizing out with
  | nil => simp
  | cons n names ih =>
    rw [List.foldl_cons, ih]
    by_cases hn : n = name
    · subst hn
      cases hget : record.get? n with
      | none => simp
      | some v =>
        simp only [Option.isSome_some, and_true, List.mem_cons, true_or, if_true]
        split
        · rfl
        · exact Entries.get?_insert_self ..
    · have hmem : name ∈ n :: names ↔ name ∈ names := by simp [Ne.symm hn]
      simp only [hmem]
      split
      · rfl
      · cases hget : record.get? n with
        | none => rfl
        | some v => exact Entries.get?_insert_of_ne hn ..

/-! ## What is kept -/

/-- What a relation comes to under the projection of its foreign records. -/
def nestedValue (p : Projection) : Option Value → Value
  | some (.object nested) => .object (p.apply nested)
  | _ => .null

/-- The listed columns of a record. -/
def columnsOnly (p : Projection) (record : Record) : Record :=
  p.columns.foldl (fun (out : Record) name =>
    match record.get? name with
    | some v => out.insert name v
    | none => out) []

theorem apply_eq (p : Projection) (record : Record) :
    p.apply record = (p.heads.mapEntries fun e => (p.unnest e.1).nestedValue (record.get? e.1)).entries.foldl
      (fun out e => Entries.insert e.1 e.2 out) (p.columnsOnly record) := by
  let put (out : Record) (e : String × Projection) : Record :=
    Entries.insert e.1 (e.2.nestedValue (record.get? e.1)) out
  have hrelations : p.apply record = p.relations.entries.foldl put (p.columnsOnly record) := by
    rw [apply]
    refine (List.foldl_subtype (g := put) fun out e he => ?_).trans (by rw [List.unattach_attach]; rfl)
    refine congrArg (Entries.insert e.1 · out) ?_
    cases record.get? e.1 with
    | none => rfl
    | some v => cases v <;> rfl
  rw [hrelations, entries_relations, Dict.mapEntries, List.foldl_map, List.foldl_map]

/-- The members of a record that a projection reduced. -/
theorem get?_apply (p : Projection) (record : Record) (name : String) :
    (p.apply record).get? name =
      if (p.heads.get? name).isSome then some ((p.unnest name).nestedValue (record.get? name))
      else if name ∈ p.columns then record.get? name else none := by
  rw [apply_eq]
  let heads := p.heads.mapEntries fun e => (p.unnest e.1).nestedValue (record.get? e.1)
  refine (Entries.get?_foldl_insert heads.sorted.nodup _ name).trans ?_
  have hheads : Entries.get? heads.entries name =
      (p.heads.get? name).map fun _ => (p.unnest name).nestedValue (record.get? name) :=
    Dict.get?_mapEntries p.heads _ name
  rw [hheads]
  cases p.heads.get? name with
  | some _ => rfl
  | none =>
    refine (get?_foldl_columns record p.columns [] name).trans ?_
    by_cases hname : name ∈ p.columns
    · cases hget : record.get? name with
      | none => simp [hname, Record.get?]
      | some v => simp [hname]
    · simp [hname, Record.get?]

theorem sorted_columnsOnly (p : Projection) (record : Record) : Entries.Sorted (p.columnsOnly record) := by
  refine List.foldlRecOn p.columns _ Entries.sorted_nil fun out h name _ => ?_
  split
  · exact Entries.sorted_insert h ..
  · exact h

theorem sorted_apply (p : Projection) (record : Record) : Entries.Sorted (p.apply record) := by
  rw [apply_eq]
  exact Entries.sorted_foldl_insert _ Prod.fst Prod.snd (p.sorted_columnsOnly record)

/-- A projection keeps a column it lists, unless it goes through a relation of that name. -/
theorem get?_apply_of_column {name : String} (hname : name ∈ p.columns) (hhead : p.heads.get? name = none)
    (record : Record) : (p.apply record).get? name = record.get? name := by
  rw [get?_apply, hhead, if_pos hname]
  rfl

/-- A projection without relations keeps the columns it lists. -/
theorem get?_apply_of_plain (h : ∀ f ∈ p.fields, Path.Plain f) (record : Record) {name : String}
    (hname : name ∈ p.fields) : (p.apply record).get? name = record.get? name := by
  have hcolumn : name ∈ p.columns := by
    unfold columns
    rw [List.mem_filter, Path.split?_of_plain (h name hname)]
    exact ⟨hname, rfl⟩
  refine get?_apply_of_column hcolumn ?_ record
  rw [← Option.not_isSome_iff_eq_none, isSome_get?_heads_iff, through_singleton_iff]
  rintro ⟨f, hf, rest, hsplit⟩
  rw [Path.split?_of_plain (h f hf)] at hsplit
  cases hsplit

end Projection

end QueryLayer
