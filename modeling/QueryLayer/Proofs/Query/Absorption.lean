import QueryLayer.Proofs.Query.Agreement

/-! # Projecting twice

A projection that takes no name for a column and for a relation at once keeps whatever its fields read, so that
a later projection on some of them cannot tell its result from the record. Where a name is both, the column is
lost to the relation. Main statement: `Projection.unambiguous_iff_absorbed`.
-/
namespace QueryLayer

namespace Projection

variable {p q : Projection} {r : Record} {hop : String} {hops : List String}

/-- No field goes on in another one: at no depth is a name both a column and a relation. -/
def Unambiguous (q : Projection) : Prop := ∀ f ∈ q.fields, ¬q.Through (Path.hops f)

theorem Unambiguous.unnest (h : q.Unambiguous) (hop : String) : (q.unnest hop).Unambiguous := by
  intro f hf hthrough
  obtain ⟨g, hg, hsplit⟩ := mem_unnest.1 hf
  rw [through_unnest_iff, ← Path.hops_of_split? hsplit] at hthrough
  exact h g hg hthrough

theorem unambiguous_singleton (f : String) : (ofList [f]).Unambiguous := by
  rintro g hg ⟨f', hf', -, hne⟩
  obtain rfl := List.mem_singleton.1 (mem_ofList.1 hg)
  obtain rfl := List.mem_singleton.1 (mem_ofList.1 hf')
  exact hne rfl

/-- The nested records of a reduced record are the reduced ones. -/
theorem nested?_apply (hhop : q.Through [hop]) (r : Record) :
    Record.nested? (q.apply r) hop = (r.nested? hop).map (q.unnest hop).apply := by
  unfold Record.nested?
  rw [get?_apply, if_pos (isSome_get?_heads_iff.2 hhop)]
  cases r.get? hop with
  | none => rfl
  | some v => cases v <;> rfl

/-- Projecting again changes nothing, names that are both a column and a relation included. -/
theorem apply_self (q : Projection) (r : Record) : q.apply (q.apply r) = q.apply r := by
  induction hdepth : q.depth using Nat.strongRecOn generalizing q r with
  | ind depth ih =>
    subst hdepth
    refine Entries.ext_get? (q.sorted_apply _) (q.sorted_apply r) fun name => ?_
    refine (q.get?_apply (q.apply r) name).trans (Eq.trans ?_ (q.get?_apply r name).symm)
    by_cases hhead : (q.heads.get? name).isSome
    · have hthrough := isSome_get?_heads_iff.1 hhead
      rw [if_pos hhead, if_pos hhead, nestedValue_get?, nestedValue_get?, nested?_apply hthrough]
      cases r.nested? name with
      | none => rfl
      | some nested =>
        rw [Option.map_some, Option.map_some, Option.map_some, ih _ (depth_unnest_lt hthrough) _ nested rfl]
    · rw [if_neg hhead, if_neg hhead, get?_apply, if_neg hhead]
      by_cases hname : name ∈ q.columns
      · rw [if_pos hname, if_pos hname]
      · rw [if_neg hname, if_neg hname]

/-- A reduced record agrees with the whole one on all that was asked for. -/
theorem agrees_apply (hq : q.Unambiguous) (hsub : ∀ f ∈ p.fields, f ∈ q.fields) (r : Record) :
    Record.Agrees p (q.apply r) r := by
  induction hdepth : p.depth using Nat.strongRecOn generalizing p q r with
  | ind depth ih =>
    subst hdepth
    refine .of_nested? (fun f hf hplain => ?_) fun hop hthrough => ?_
    · have hhead : q.heads.get? f = none := by
        rw [← Option.not_isSome_iff_eq_none, isSome_get?_heads_iff, ← Path.hops_of_plain hplain]
        exact hq f (hsub f hf)
      have hcolumn : f ∈ q.columns :=
        List.mem_filter.2 ⟨hsub f hf, by rw [Path.split?_of_plain hplain]; rfl⟩
      exact get?_apply_of_column hcolumn hhead r
    · rw [nested?_apply (within_of_subset hsub _ (by simp) hthrough)]
      cases hnested : r.nested? hop with
      | none => exact .inl ⟨rfl, rfl⟩
      | some nested =>
        have hnext : Record.Agrees (p.unnest hop) ((q.unnest hop).apply nested) nested :=
          ih _ (depth_unnest_lt hthrough) (hq.unnest hop) (unnest_subset hsub hop) nested rfl
        exact .inr ⟨_, nested, rfl, rfl, hnext⟩

/-- Where a projection goes on it leaves a record or null. -/
theorem valueAt?_apply_of_through (h : q.Through hops) (b : Bool) (r : Record) :
    Record.valueAt? (q.apply r) hops ≠ some (.bool b) := by
  induction hops generalizing q r with
  | nil => exact nofun
  | cons hop rest ih =>
    cases rest with
    | nil =>
      change Record.get? (q.apply r) hop ≠ _
      rw [get?_apply, if_pos (isSome_get?_heads_iff.2 h)]
      cases r.get? hop with
      | none => exact nofun
      | some v => cases v <;> exact nofun
    | cons next rest =>
      have hhop : q.Through [hop] := h.of_prefix (List.prefix_append [hop] (next :: rest))
      rw [Record.valueAt?_cons (List.cons_ne_nil next rest), nested?_apply hhop]
      cases r.nested? hop with
      | none => exact nofun
      | some nested => exact ih (through_unnest_iff.2 h) nested

/-- A projection takes no name for a column and a relation at once exactly when projecting on it first never
matters for a later projection on some of its fields. Projecting again on the same fields never matters. -/
theorem unambiguous_iff_absorbed (q : Projection) :
    (q.Unambiguous ↔ ∀ p : Projection, (∀ f ∈ p.fields, f ∈ q.fields) →
      ∀ r : Record, p.apply (q.apply r) = p.apply r) ∧
    ∀ r : Record, q.apply (q.apply r) = q.apply r := by
  refine ⟨⟨fun hq p hsub r => (agrees_apply hq hsub r).apply_eq, fun habsorbed f hf hthrough => ?_⟩, q.apply_self⟩
  -- a record with a boolean where the column `f` ends, and nothing else
  let r := Record.holding (.bool true) (Path.hops f)
  have hfield : f ∈ (ofList [f]).fields := mem_ofList.2 List.mem_cons_self
  have hreads : ∀ s : Record, Record.value? ((ofList [f]).apply s) f = s.value? f :=
    fun s => (agrees_apply (unambiguous_singleton f) (fun g hg => hg) s).value?_eq hfield
  have hsame := habsorbed (ofList [f]) (fun g hg => List.mem_singleton.1 (mem_ofList.1 hg) ▸ hf) r
  refine valueAt?_apply_of_through hthrough true r ?_
  calc Record.valueAt? (q.apply r) (Path.hops f)
    _ = Record.value? ((ofList [f]).apply (q.apply r)) f := (hreads (q.apply r)).symm
    _ = Record.value? ((ofList [f]).apply r) f := by rw [hsame]
    _ = Record.value? r f := hreads r
    _ = some (.bool true) := Record.valueAt?_holding _ (Path.hops_ne_nil f)

end Projection

end QueryLayer
