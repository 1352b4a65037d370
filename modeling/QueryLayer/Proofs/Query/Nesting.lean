import Mathlib.Data.List.Nodup
import QueryLayer.Proofs.Query.Condition
import QueryLayer.Query.Filter

/-! # Queries under a relation and back

The name that a query was put under is not kept. It is found again as the first hop of the first leaf, or of
the first sort clause, which is that name exactly when the name is a single hop.
-/
namespace QueryLayer

namespace Path

theorem toList_under (name path : String) : (under name path).toList = (name.toList ++ [':']) ++ path.toList := by
  simp [under]

theorem under_injective (name : String) : Function.Injective (under name) := by
  intro a b h
  have htexts := congrArg String.toList h
  rw [toList_under, toList_under] at htexts
  exact String.toList_inj.1 (List.append_cancel_left htexts)

theorem eq_of_under_eq_under {name other path : String} (h : under name path = under other path) :
    name = other := by
  have htexts := congrArg String.toList h
  rw [toList_under, toList_under] at htexts
  exact String.toList_inj.1 (List.append_cancel_right (List.append_cancel_right htexts))

theorem exists_split?_iff {name : String} (h : Plain name) {path : String} :
    (∃ rest, split? path = some (name, rest)) ↔ ∃ rest, path = under name rest := by
  constructor
  · rintro ⟨rest, hsplit⟩
    exact ⟨rest, eq_under_of_split? hsplit⟩
  · rintro ⟨rest, rfl⟩
    exact ⟨rest, split?_under h rest⟩

end Path

namespace Condition

theorem dropHop_under {name : String} (h : Path.Plain name) (path : String) :
    dropHop (Path.under name path) = path := by
  rw [dropHop, Path.split?_under h]

/-! ## Renamed fields -/

theorem fields_renameFields (f : String → String) (c : Condition) :
    (c.renameFields f).fields = c.fields.map f := by
  unfold renameFields fields
  induction c using Condition.induct with
  | hleaf l => rfl
  | hnot c ih => exact ih
  | hbranch a cs ih =>
    rw [replaceLeaves, replaceLeavesOf_eq, leaves_branch, leaves_branch, List.flatMap_map, List.map_flatMap,
      List.map_flatMap, List.map_flatMap]
    exact List.flatMap_congr ih

theorem renameFields_renameFields (f g : String → String) (c : Condition) :
    (c.renameFields g).renameFields f = c.renameFields (f ∘ g) := by
  unfold renameFields
  induction c using Condition.induct with
  | hleaf l => rfl
  | hnot c ih => exact congrArg not ih
  | hbranch a cs ih =>
    simp only [replaceLeaves, replaceLeavesOf_eq, List.map_map]
    exact congrArg (branch a) (List.map_congr_left ih)

/-- A renaming that leaves the fields of a condition alone. -/
theorem renameFields_eq_self {f : String → String} {c : Condition} (h : ∀ field ∈ c.fields, f field = field) :
    c.renameFields f = c := by
  unfold renameFields
  induction c using Condition.induct with
  | hleaf l =>
    have hfield : f l.field = l.field := h l.field (List.mem_singleton_self _)
    rw [replaceLeaves, hfield]
  | hnot c ih => exact congrArg not (ih h)
  | hbranch a cs ih =>
    rw [replaceLeaves, replaceLeavesOf_eq]
    refine congrArg (branch a) ((List.map_congr_left fun c hc => ih c hc fun field hfield => h field ?_).trans
      (List.map_id cs))
    obtain ⟨l, hl, rfl⟩ := List.mem_map.1 hfield
    rw [fields, leaves_branch]
    exact List.mem_map_of_mem (List.mem_flatMap.2 ⟨c, hc, hl⟩)

/-! ## The relation that all fields go through -/

theorem strayField?_some_eq_none_iff {name : String} {fields : List String} :
    strayField? (some name) fields = none ↔ ∀ field ∈ fields, ∃ rest, Path.split? field = some (name, rest) := by
  induction fields with
  | nil => simp [strayField?]
  | cons field fields ih =>
    rw [List.forall_mem_cons, ← ih]
    cases hsplit : Path.split? field with
    | none => simp [strayField?, hsplit]
    | some s =>
      obtain ⟨hop, rest⟩ := s
      simp only [strayField?, hsplit]
      split
      · next hname => simp [hname]
      · next hname => simp [hname]

/-- No field strays where all go through one relation. -/
theorem strayField?_eq_none_iff {fields : List String} :
    strayField? none fields = none ↔
      ∃ name, Path.Plain name ∧ ∀ field ∈ fields, ∃ rest, field = Path.under name rest := by
  constructor
  · intro h
    match fields with
    | [] => exact ⟨"", by decide, by simp⟩
    | first :: fields =>
      cases hsplit : Path.split? first with
      | none => simp [strayField?, hsplit] at h
      | some s =>
        simp only [strayField?, hsplit] at h
        have hplain := Path.plain_of_split? hsplit
        have hfirst : ∃ rest, first = Path.under s.1 rest := ⟨s.2, Path.eq_under_of_split? hsplit⟩
        refine ⟨s.1, hplain, List.forall_mem_cons.2 ⟨hfirst, fun field hfield => ?_⟩⟩
        exact (Path.exists_split?_iff hplain).1 (strayField?_some_eq_none_iff.1 h field hfield)
  · rintro ⟨name, hplain, hfields⟩
    match fields with
    | [] => rfl
    | first :: fields =>
      obtain ⟨⟨rest, rfl⟩, hothers⟩ := List.forall_mem_cons.1 hfields
      simp only [strayField?, Path.split?_under hplain]
      exact strayField?_some_eq_none_iff.2 fun field hfield =>
        (Path.exists_split?_iff hplain).2 (hothers field hfield)

/-- What comes from under a relation is what was put there. -/
theorem unnest_eq_ok_iff {c d : Condition} :
    c.unnest = .ok d ↔ ∃ name, Path.Plain name ∧ c = d.nest name := by
  unfold unnest
  constructor
  · intro h
    split at h
    · cases h
    · next hstray =>
      cases h
      obtain ⟨name, hplain, hfields⟩ := strayField?_eq_none_iff.1 hstray
      refine ⟨name, hplain, ?_⟩
      rw [nest, renameFields_renameFields]
      refine (renameFields_eq_self fun field hfield => ?_).symm
      obtain ⟨rest, rfl⟩ := hfields field hfield
      exact congrArg (Path.under name) (dropHop_under hplain rest)
  · rintro ⟨name, hplain, rfl⟩
    have hstray : strayField? none (d.nest name).fields = none := by
      refine strayField?_eq_none_iff.2 ⟨name, hplain, fun field hfield => ?_⟩
      rw [nest, fields_renameFields] at hfield
      obtain ⟨rest, -, rfl⟩ := List.mem_map.1 hfield
      exact ⟨rest, rfl⟩
    rw [hstray, nest, renameFields_renameFields]
    exact congrArg Except.ok (renameFields_eq_self fun field _ => dropHop_under hplain field)

end Condition

namespace Sorting

theorem afterPrefix?_eq_some_iff {start s rest : String} : afterPrefix? start s = some rest ↔ s = start ++ rest := by
  unfold afterPrefix? Text.startsWith
  rw [← String.toList_inj, String.toList_append]
  constructor
  · intro h
    split at h
    · next hstart =>
      obtain ⟨others, hothers⟩ := List.isPrefixOf_iff_prefix.1 hstart
      cases h
      rw [← hothers, String.toList_ofList, List.drop_left]
    · cases h
  · intro h
    rw [if_pos (List.isPrefixOf_iff_prefix.2 ⟨_, h.symm⟩), h, List.drop_left, String.ofList_toList]

/-- What is done with each clause. -/
def unnestClause (name : String) (c : SortClause) : Except Error SortClause :=
  match afterPrefix? (name ++ ":") c.field with
  | some rest => .ok { c with field := rest }
  | none => .error (.query (.notNested c.field))

theorem unnestClause_eq_ok_iff {name : String} {c d : SortClause} :
    unnestClause name c = .ok d ↔ c = { d with field := Path.under name d.field } := by
  obtain ⟨field, ascending⟩ := c
  obtain ⟨rest, direction⟩ := d
  have hfield : field = Path.under name rest ↔ afterPrefix? (name ++ ":") field = some rest :=
    afterPrefix?_eq_some_iff.symm
  rw [SortClause.mk.injEq, hfield]
  unfold unnestClause
  cases afterPrefix? (name ++ ":") field with
  | none => simp
  | some found => simp

/-- A sorting is taken from under a name that all of its clauses begin with. -/
theorem unnest_eq_ok_iff {name : String} {s t : Sorting} : s.unnest name = .ok t ↔ s = t.nest name := by
  obtain ⟨clauses⟩ := s
  obtain ⟨others⟩ := t
  have hclauses : clauses.mapM (unnestClause name) = .ok others ↔
      clauses = others.map fun c => { c with field := Path.under name c.field } := by
    rw [Outcome.mapM_eq_ok_iff]
    simp only [unnestClause_eq_ok_iff]
    rw [← List.forall₂_map_right_iff (R := Eq), List.forall₂_eq_eq_eq]
  change (clauses.mapM (unnestClause name) >>= fun clauses => pure (⟨clauses⟩ : Sorting)) = .ok ⟨others⟩ ↔ _
  rw [nest, rename, Sorting.mk.injEq, ← hclauses, Outcome.bind_eq_ok_iff]
  constructor
  · rintro ⟨found, hfound, h⟩
    cases h
    exact hfound
  · intro h
    exact ⟨others, h, rfl⟩

end Sorting

namespace Projection

theorem head?_foldl_push (first : String) (fields more : List String) :
    (more.foldl push (first :: fields)).head? = some first := by
  induction more generalizing fields with
  | nil => rfl
  | cons f more ih =>
    rw [List.foldl_cons, push]
    split
    · exact ih fields
    · exact ih (fields ++ [f])

theorem head?_ofList (fields : List String) : (ofList fields).fields.head? = fields.head? := by
  cases fields with
  | nil => rfl
  | cons f fields => exact head?_foldl_push f [] fields

theorem fields_ofList_of_nodup {fields : List String} (h : fields.Nodup) : (ofList fields).fields = fields :=
  congrArg Projection.fields (ofList_fields ⟨fields, h⟩)

theorem fields_nest (name : String) (p : Projection) : (p.nest name).fields = p.fields.map (Path.under name) :=
  fields_ofList_of_nodup (List.Nodup.map (Path.under_injective name) p.nodup)

theorem unnest_nest {name : String} (h : Path.Plain name) (p : Projection) : (p.nest name).unnest name = p := by
  have hafter : (after? name) ∘ Path.under name = some := by
    funext field
    simp [after?, Path.split?_under h]
  rw [unnest, fields_nest, List.filterMap_map, hafter, List.filterMap_some, ofList_fields]

end Projection

namespace Filter

variable {name : String} {f : Filter}

theorem isNestable_iff : f.isNestable = true ↔ f.search = none ∧ f.segment = none := by
  simp [isNestable]

/-- The filter with its condition under a relation. -/
def nested (name : String) (f : Filter) : Filter := { f with condition := f.condition.map (Condition.nest name) }

theorem nest_eq_ok (h : f.isNestable = true) : f.nest name = .ok (f.nested name) := if_pos h

theorem unnest_nested (hplain : Path.Plain name) (h : f.isNestable = true) : (f.nested name).unnest = .ok f := by
  have hnestable : (f.nested name).isNestable = true := h
  unfold unnest
  rw [if_pos hnestable]
  obtain ⟨condition, search, searchExtended, segment⟩ := f
  cases condition with
  | none => rfl
  | some c =>
    have hc : (c.nest name).unnest = .ok c := Condition.unnest_eq_ok_iff.2 ⟨name, hplain, rfl⟩
    simp only [nested, Option.map_some, hc]
    rfl

end Filter

namespace PaginatedFilter

variable {name : String} {f : PaginatedFilter}

/-- The filter with its conditions and sort clauses under a relation. -/
def nested (name : String) (f : PaginatedFilter) : PaginatedFilter :=
  { f.toFilter.nested name with sort := f.sort.nest name, page := f.page }

theorem nest_eq_ok (h : f.isNestable = true) : f.nest name = .ok (f.nested name) := by
  unfold nest
  rw [Filter.nest_eq_ok h]
  rfl

/-- The fields of the conditions, then those of the sort clauses. -/
def fields (f : PaginatedFilter) : List String := f.condition.elim [] Condition.fields ++ f.sort.fields

theorem leadingField?_eq (f : PaginatedFilter) : f.leadingField? = f.fields.head? := by
  unfold leadingField? fields
  cases f.condition with
  | none => rfl
  | some c =>
    rw [Option.bind_some, Condition.projection, Projection.head?_ofList, Option.elim_some, List.head?_append]
    cases c.fields.head? <;> rfl

theorem fields_nested (name : String) (f : PaginatedFilter) :
    (f.nested name).fields = f.fields.map (Path.under name) := by
  have hsort : (f.sort.nest name).fields = f.sort.fields.map (Path.under name) := by
    simp [Sorting.fields, Sorting.nest, Sorting.rename]
  unfold fields
  rw [List.map_append, ← hsort]
  refine congrArg (· ++ (f.sort.nest name).fields) ?_
  obtain ⟨⟨condition, search, searchExtended, segment⟩, sort, page⟩ := f
  cases condition with
  | none => rfl
  | some c => exact Condition.fields_renameFields (Path.under name) c

/-- Without fields there is nothing to put under a relation. -/
theorem nested_of_fields (h : f.fields = []) : f.nested name = f := by
  obtain ⟨⟨condition, search, searchExtended, segment⟩, ⟨clauses⟩, page⟩ := f
  obtain ⟨hcondition, hsort⟩ := List.append_eq_nil_iff.1 h
  obtain rfl : clauses = [] := List.map_eq_nil_iff.1 hsort
  cases condition with
  | none => rfl
  | some c =>
    have hc : c.fields = [] := hcondition
    have hnest : c.nest name = c := Condition.renameFields_eq_self (by simp [hc])
    simp only [nested, Filter.nested, Option.map_some, hnest]
    rfl

theorem unnest_nested (hplain : Path.Plain name) (h : f.isNestable = true) : (f.nested name).unnest = .ok f := by
  unfold unnest
  rw [leadingField?_eq, fields_nested]
  cases hfields : f.fields with
  | nil =>
    rw [nested_of_fields hfields]
    rfl
  | cons field fields =>
    rw [List.map_cons, List.head?_cons, Option.bind_some, Path.split?_under hplain]
    have hfilter : (f.nested name).toFilter.unnest = .ok f.toFilter := Filter.unnest_nested hplain h
    have hsort : (f.nested name).sort.unnest name = .ok f.sort := Sorting.unnest_eq_ok_iff.2 rfl
    dsimp only
    rw [hfilter, hsort]
    rfl

end PaginatedFilter

/-- What is put under a name is given back when it is taken from under it, whatever it is. -/
structure Restores (name : String) : Prop where
  condition : ∀ c : Condition, (c.nest name).unnest = .ok c
  filter : ∀ f : Filter, f.search = none → f.segment = none → ∃ g, f.nest name = .ok g ∧ g.unnest = .ok f
  sorting : ∀ s : Sorting, (s.nest name).unnest name = .ok s
  projection : ∀ p : Projection, (p.nest name).unnest name = p
  paginated : ∀ f : PaginatedFilter, f.search = none → f.segment = none →
    ∃ g, f.nest name = .ok g ∧ g.unnest = .ok f

/-- The names under which queries can be put and taken from again are those of one hop. -/
theorem restores_iff {name : String} : Restores name ↔ Path.Plain name := by
  constructor
  · intro h
    have hleaf := h.condition (.leaf ⟨"", .present, .null⟩)
    obtain ⟨other, hplain, heq⟩ := Condition.unnest_eq_ok_iff.1 hleaf
    have hfield : Path.under name "" = Path.under other "" := congrArg Leaf.field (Condition.leaf.inj heq)
    exact Path.eq_of_under_eq_under hfield ▸ hplain
  · intro h
    exact {
      condition := fun c => Condition.unnest_eq_ok_iff.2 ⟨name, h, rfl⟩
      filter := fun f hsearch hsegment =>
        have hnestable := Filter.isNestable_iff.2 ⟨hsearch, hsegment⟩
        ⟨f.nested name, Filter.nest_eq_ok hnestable, Filter.unnest_nested h hnestable⟩
      sorting := fun s => Sorting.unnest_eq_ok_iff.2 rfl
      projection := Projection.unnest_nest h
      paginated := fun f hsearch hsegment =>
        have hnestable := Filter.isNestable_iff.2 ⟨hsearch, hsegment⟩
        ⟨f.nested name, PaginatedFilter.nest_eq_ok hnestable, PaginatedFilter.unnest_nested h hnestable⟩ }

end QueryLayer
