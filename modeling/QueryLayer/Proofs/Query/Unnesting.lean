import QueryLayer.Proofs.Query.Nesting
import QueryLayer.Proofs.Query.Projection

/-! # Filters that can be taken from under a relation

The relation is read off the first field, that of the first leaf or else of the first sort clause. Every other
field is held against it, and the first one that goes elsewhere is named in the refusal. A filter whose first
field goes through no relation is never looked at: it comes back as it is.
-/
namespace QueryLayer

namespace Path

/-- Whether a path goes through a relation first. -/
def goesThrough (name path : String) : Bool := (split? path).any fun s => s.1 = name

variable {name path : String}

theorem goesThrough_iff_split? : goesThrough name path = true ↔ ∃ rest, split? path = some (name, rest) := by
  unfold goesThrough
  cases split? path with
  | none => simp
  | some s => simp [Prod.ext_iff]

theorem goesThrough_iff (h : Plain name) : goesThrough name path = true ↔ ∃ rest, path = under name rest := by
  rw [goesThrough_iff_split?, exists_split?_iff h]

theorem split?_eq_none_iff_plain : split? path = none ↔ Plain path :=
  ⟨plain_of_split?_eq_none, split?_of_plain⟩

end Path

open QueryLayer.Path (goesThrough)

variable {name : String}

namespace Condition

variable {c : Condition}

theorem strayField?_some_eq (fields : List String) :
    strayField? (some name) fields = fields.find? fun field => !goesThrough name field := by
  induction fields with
  | nil => rfl
  | cons field fields ih =>
    rw [List.find?_cons, goesThrough]
    cases hsplit : Path.split? field with
    | none => simp [strayField?, hsplit]
    | some s =>
      by_cases hname : s.1 = name
      · simp [strayField?, hsplit, hname, ih]
      · simp [strayField?, hsplit, hname]

/-- The relation that the first field goes through is the one that the others are held against. -/
theorem strayField?_none_eq {fields : List String} (h : ∀ field ∈ fields.head?, goesThrough name field = true) :
    strayField? none fields = fields.find? fun field => !goesThrough name field := by
  cases fields with
  | nil => rfl
  | cons field fields =>
    have hfield : goesThrough name field = true := h field rfl
    obtain ⟨rest, hsplit⟩ := Path.goesThrough_iff_split?.1 hfield
    simp only [strayField?, hsplit, strayField?_some_eq, List.find?_cons, hfield, Bool.not_true]

theorem nest_renameFields_dropHop (hplain : Path.Plain name)
    (h : ∀ field ∈ c.fields, goesThrough name field = true) : (c.renameFields dropHop).nest name = c := by
  rw [nest, renameFields_renameFields]
  refine renameFields_eq_self fun field hfield => ?_
  obtain ⟨rest, rfl⟩ := (Path.goesThrough_iff hplain).1 (h field hfield)
  exact congrArg (Path.under name) (dropHop_under hplain rest)

end Condition

namespace Sorting

variable {s : Sorting}

theorem unnestClause_eq (hplain : Path.Plain name) (c : SortClause) :
    unnestClause name c = if goesThrough name c.field then .ok { c with field := Condition.dropHop c.field }
      else .error (.query (.notNested c.field)) := by
  by_cases hthrough : goesThrough name c.field = true
  · obtain ⟨rest, hfield⟩ := (Path.goesThrough_iff hplain).1 hthrough
    rw [if_pos hthrough, unnestClause_eq_ok_iff, hfield, Condition.dropHop_under hplain, ← hfield]
  · rw [if_neg hthrough, unnestClause]
    have hnone : afterPrefix? (name ++ ":") c.field = none := by
      refine Option.eq_none_iff_forall_ne_some.2 fun rest hrest => hthrough ?_
      exact (Path.goesThrough_iff hplain).2 ⟨rest, afterPrefix?_eq_some_iff.1 hrest⟩
    rw [hnone]

/-- A sorting is refused for its first clause that goes elsewhere. -/
theorem unnest_eq (hplain : Path.Plain name) (s : Sorting) :
    s.unnest name = match s.fields.find? fun field => !goesThrough name field with
      | some field => .error (.query (.notNested field))
      | none => .ok (s.rename Condition.dropHop) := by
  have hclause : ∀ c, unnestClause name c = if (!goesThrough name c.field) = true
      then .error (.query (.notNested c.field)) else .ok { c with field := Condition.dropHop c.field } := by
    intro c
    rw [unnestClause_eq hplain]
    cases goesThrough name c.field <;> rfl
  change (s.clauses.mapM (unnestClause name) >>= fun clauses => pure (⟨clauses⟩ : Sorting)) = _
  rw [Outcome.mapM_eq_find? hclause, fields, List.find?_map]
  unfold Function.comp
  cases s.clauses.find? fun c => !goesThrough name c.field <;> rfl

theorem nest_rename_dropHop (hplain : Path.Plain name)
    (h : ∀ field ∈ s.fields, goesThrough name field = true) : (s.rename Condition.dropHop).nest name = s := by
  obtain ⟨clauses⟩ := s
  unfold nest rename
  refine congrArg Sorting.mk ?_
  rw [List.map_map]
  refine (List.map_congr_left fun c hc => ?_).trans (List.map_id clauses)
  obtain ⟨rest, hfield⟩ := (Path.goesThrough_iff hplain).1 (h c.field (List.mem_map_of_mem hc))
  simp only [Function.comp_apply, id_eq, hfield, Condition.dropHop_under hplain]
  rw [← hfield]

end Sorting

namespace PaginatedFilter

variable {f g : PaginatedFilter}

/-- The filter with the first hop of every field dropped. -/
def stripped (f : PaginatedFilter) : PaginatedFilter :=
  { f with condition := f.condition.map (Condition.renameFields Condition.dropHop)
           sort := f.sort.rename Condition.dropHop }

/-- A filter that searches nothing and names no segment, all of whose fields go through one relation. -/
structure IsUnder (name : String) (f : PaginatedFilter) : Prop where
  plain : Path.Plain name
  search : f.search = none
  segment : f.segment = none
  fields : ∀ field ∈ f.fields, ∃ rest, field = Path.under name rest

/-- The first leaf, or the first sort clause where there is no leaf, goes through no relation. -/
def StartsPlain (f : PaginatedFilter) : Prop := ∀ field ∈ f.fields.head?, Path.Plain field

/-- What becomes of a filter whose first field goes through a relation. -/
theorem unnest_eq {rest : String} (h : f.fields.head?.bind Path.split? = some (name, rest)) :
    f.unnest = if f.isNestable then
        match f.fields.find? fun field => !goesThrough name field with
        | some field => .error (.query (.notNested field))
        | none => .ok f.stripped
      else .error (.query .nestedSearch) := by
  obtain ⟨first, hfirst, hsplit⟩ := Option.bind_eq_some_iff.1 h
  have hthrough : goesThrough name first = true := Path.goesThrough_iff_split?.2 ⟨rest, hsplit⟩
  have hplain : Path.Plain name := Path.plain_of_split? hsplit
  unfold unnest Filter.unnest
  rw [leadingField?_eq, h]
  dsimp only
  by_cases hnestable : f.isNestable = true
  · rw [if_pos hnestable, if_pos hnestable, Sorting.unnest_eq hplain]
    obtain ⟨⟨condition, search, searchExtended, segment⟩, sort, page⟩ := f
    unfold fields
    rw [List.find?_append]
    cases condition with
    | none =>
      dsimp only [Option.elim_none]
      rw [Outcome.ok_bind, List.find?_nil, Option.none_or]
      cases sort.fields.find? fun field => !goesThrough name field <;> rfl
    | some c =>
      have hhead : ∀ field ∈ c.fields.head?, goesThrough name field = true := by
        intro field hfield
        unfold fields at hfirst
        rw [Option.elim_some, List.head?_append, hfield, Option.some_or] at hfirst
        exact Option.some.inj hfirst ▸ hthrough
      dsimp only [Option.elim_some]
      rw [Condition.unnest, Condition.strayField?_none_eq hhead]
      cases c.fields.find? fun field => !goesThrough name field with
      | some field => rfl
      | none =>
        cases sort.fields.find? fun field => !goesThrough name field <;> rfl
  · rw [if_neg hnestable, if_neg hnestable]
    rfl

theorem startsPlain_iff : f.StartsPlain ↔ f.fields.head?.bind Path.split? = none := by
  unfold StartsPlain
  rw [Option.bind_eq_none_iff]
  exact forall₂_congr fun _ _ => Path.split?_eq_none_iff_plain.symm

theorem unnest_of_startsPlain (h : f.StartsPlain) : f.unnest = .ok f := by
  unfold unnest
  rw [leadingField?_eq, startsPlain_iff.1 h]

/-- The refusals: a search or a segment first, then the first field that goes elsewhere. -/
theorem unnest_eq_error_iff {e : Error} :
    f.unnest = .error e ↔ ∃ name rest, f.fields.head?.bind Path.split? = some (name, rest) ∧
      (f.isNestable = false ∧ e = .query .nestedSearch ∨ f.isNestable = true ∧
        ∃ field, f.fields.find? (fun field => !goesThrough name field) = some field ∧
          e = .query (.notNested field)) := by
  cases hsplit : f.fields.head?.bind Path.split? with
  | none =>
    rw [unnest_of_startsPlain (startsPlain_iff.2 hsplit)]
    simp
  | some s =>
    obtain ⟨name, rest⟩ := s
    rw [unnest_eq hsplit]
    cases hnestable : f.isNestable with
    | false => simp [eq_comm]
    | true =>
      cases hstray : f.fields.find? fun field => !goesThrough name field with
      | none => simp [hstray]
      | some field => simp [hstray, eq_comm]

theorem isUnder_iff : f.IsUnder name ↔
    Path.Plain name ∧ f.isNestable = true ∧ ∀ field ∈ f.fields, goesThrough name field = true := by
  rw [Filter.isNestable_iff]
  constructor
  · intro h
    exact ⟨h.plain, ⟨h.search, h.segment⟩, fun field hfield =>
      (Path.goesThrough_iff h.plain).2 (h.fields field hfield)⟩
  · rintro ⟨hplain, ⟨hsearch, hsegment⟩, hfields⟩
    exact ⟨hplain, hsearch, hsegment, fun field hfield =>
      (Path.goesThrough_iff hplain).1 (hfields field hfield)⟩

theorem nest_eq_ok_iff : g.nest name = .ok f ↔ g.isNestable = true ∧ f = g.nested name := by
  by_cases hnestable : g.isNestable = true
  · rw [nest_eq_ok hnestable, Except.ok.injEq, eq_comm]
    exact (and_iff_right hnestable).symm
  · have herror : g.toFilter.nest name = .error (.query .nestedSearch) := if_neg hnestable
    rw [nest, herror]
    exact ⟨nofun, fun h => absurd h.1 hnestable⟩

/-- A filter under a relation is one that was put there. -/
theorem IsUnder.nest_stripped (h : f.IsUnder name) : f.stripped.nest name = .ok f := by
  obtain ⟨hplain, hnestable, hfields⟩ := isUnder_iff.1 h
  obtain ⟨⟨condition, search, searchExtended, segment⟩, sort, page⟩ := f
  have hstripped : (stripped ⟨⟨condition, search, searchExtended, segment⟩, sort, page⟩).isNestable = true :=
    hnestable
  have hsort : (sort.rename Condition.dropHop).nest name = sort :=
    Sorting.nest_rename_dropHop hplain fun field hfield => hfields field (List.mem_append_right _ hfield)
  rw [nest_eq_ok hstripped]
  unfold nested Filter.nested stripped
  dsimp only
  rw [hsort]
  cases condition with
  | none => rfl
  | some c =>
    have hc : (c.renameFields Condition.dropHop).nest name = c :=
      Condition.nest_renameFields_dropHop hplain fun field hfield =>
        hfields field (List.mem_append_left _ hfield)
    rw [Option.map_some, Option.map_some, hc]

/-- A filter under a relation is taken from there. -/
theorem IsUnder.unnest_eq {rest : String} (h : f.IsUnder name)
    (hsplit : f.fields.head?.bind Path.split? = some (name, rest)) : f.unnest = .ok f.stripped := by
  obtain ⟨-, hnestable, hfields⟩ := isUnder_iff.1 h
  have hnone : f.fields.find? (fun field => !goesThrough name field) = none :=
    List.find?_eq_none.2 fun field hfield => by simp [hfields field hfield]
  rw [PaginatedFilter.unnest_eq hsplit, if_pos hnestable, hnone]

/-- Where the first field goes through a relation, what comes out is what was put under it. -/
theorem unnest_eq_ok_iff_of_split? {rest : String} (h : f.fields.head?.bind Path.split? = some (name, rest)) :
    f.unnest = .ok g ↔ f.IsUnder name ∧ g.nest name = .ok f := by
  obtain ⟨first, -, hsplit⟩ := Option.bind_eq_some_iff.1 h
  have hplain : Path.Plain name := Path.plain_of_split? hsplit
  constructor
  · intro hok
    have hunder : f.IsUnder name := by
      rw [PaginatedFilter.unnest_eq h] at hok
      split at hok
      · next hnestable =>
        split at hok
        · cases hok
        · next hnone =>
          refine isUnder_iff.2 ⟨hplain, hnestable, fun field hfield => ?_⟩
          simpa using List.find?_eq_none.1 hnone field hfield
      · cases hok
    rw [hunder.unnest_eq h] at hok
    cases hok
    exact ⟨hunder, hunder.nest_stripped⟩
  · rintro ⟨-, hnest⟩
    obtain ⟨hnestable, rfl⟩ := nest_eq_ok_iff.1 hnest
    exact unnest_nested hplain hnestable

theorem IsUnder.exists_split? (h : f.IsUnder name) (hfields : f.fields ≠ []) :
    ∃ rest, f.fields.head?.bind Path.split? = some (name, rest) := by
  obtain ⟨first, others, hcons⟩ := List.exists_cons_of_ne_nil hfields
  have hfirst : first ∈ f.fields := by simp [hcons]
  obtain ⟨rest, rfl⟩ := h.fields first hfirst
  exact ⟨rest, by simp [hcons, Path.split?_under h.plain]⟩

/-- A filter is taken from under a relation exactly when it searches nothing, names no segment and all of its
fields go through that relation, and what comes out is what was put there; but one whose first field goes through
no relation is passed through, whatever else it holds. -/
theorem unnest_iff (f : PaginatedFilter) :
    (∀ g, f.unnest = .ok g ↔
      f.StartsPlain ∧ g = f ∨ ∃ name, f.fields ≠ [] ∧ f.IsUnder name ∧ g.nest name = .ok f) ∧
    ((∃ g, f.unnest = .ok g) ↔ f.StartsPlain ∨ ∃ name, f.IsUnder name) := by
  cases hsplit : f.fields.head?.bind Path.split? with
  | none =>
    have hstarts : f.StartsPlain := startsPlain_iff.2 hsplit
    have hnowhere : ∀ name, f.fields ≠ [] → ¬ f.IsUnder name := by
      intro name hfields hunder
      obtain ⟨rest, hunder⟩ := hunder.exists_split? hfields
      rw [hsplit] at hunder
      cases hunder
    rw [unnest_of_startsPlain hstarts]
    refine ⟨fun g => ⟨fun h => Or.inl ⟨hstarts, (Except.ok.inj h).symm⟩, ?_⟩, by simp [hstarts]⟩
    rintro (⟨-, rfl⟩ | ⟨name, hfields, hunder, -⟩)
    · rfl
    · exact absurd hunder (hnowhere name hfields)
  | some s =>
    obtain ⟨name, rest⟩ := s
    have hstarts : ¬ f.StartsPlain := fun h => by simp [startsPlain_iff.1 h] at hsplit
    have hfields : f.fields ≠ [] := fun h => by simp [h] at hsplit
    have hname : ∀ other, f.IsUnder other → other = name := by
      intro other hunder
      obtain ⟨rest', hother⟩ := hunder.exists_split? hfields
      rw [hsplit] at hother
      cases hother
      rfl
    constructor
    · intro g
      rw [unnest_eq_ok_iff_of_split? hsplit]
      constructor
      · rintro ⟨hunder, hnest⟩
        exact Or.inr ⟨name, hfields, hunder, hnest⟩
      · rintro (⟨h, -⟩ | ⟨other, -, hunder, hnest⟩)
        · exact absurd h hstarts
        · obtain rfl := hname other hunder
          exact ⟨hunder, hnest⟩
    · constructor
      · rintro ⟨g, hg⟩
        exact Or.inr ⟨name, ((unnest_eq_ok_iff_of_split? hsplit).1 hg).1⟩
      · rintro (h | ⟨other, hunder⟩)
        · exact absurd h hstarts
        · obtain rfl := hname other hunder
          exact ⟨f.stripped, hunder.unnest_eq hsplit⟩

/-- A condition on the title and on the author's name. -/
def mixed : PaginatedFilter :=
  .ofCondition (.branch .and [.leaf ⟨"title", .present, .null⟩, .leaf ⟨"author:name", .present, .null⟩])

/-- The conditions are not all on the author, and the filter comes back as it is. -/
theorem not_isUnder_of_unnest : ¬ ∀ f g : PaginatedFilter, f.fields ≠ [] → f.unnest = .ok g →
    ∃ name, f.IsUnder name ∧ g.nest name = .ok f := by
  intro h
  have hstarts : mixed.StartsPlain := by
    intro field hfield
    obtain rfl : "title" = field := Option.some.inj hfield
    decide
  obtain ⟨name, hunder, -⟩ := h mixed mixed (by decide) (unnest_of_startsPlain hstarts)
  obtain ⟨rest, htitle⟩ := hunder.fields "title" (by decide)
  have hsplit : Path.split? "title" = some (name, rest) := htitle ▸ Path.split?_under hunder.plain rest
  revert hsplit
  rw [Path.split?_of_plain (by decide)]
  exact nofun

end PaginatedFilter

end QueryLayer
