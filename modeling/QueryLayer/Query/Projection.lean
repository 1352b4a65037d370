import QueryLayer.Data.Dict
import QueryLayer.Query.Condition
import QueryLayer.Schema.Basic

/-! # Projections

Which fields a read returns: a list of paths without repetitions. The paths through relations are
grouped by their first hop, and `apply` reduces a record, with its nested records, to the fields.
-/
namespace QueryLayer

structure Projection where
  fields : List String
  nodup : fields.Nodup
deriving DecidableEq

namespace Projection

/-- Appends what is not there yet. -/
def push (fields : List String) (field : String) : List String :=
  if field ∈ fields then fields else fields ++ [field]

theorem nodup_push {fields : List String} (h : fields.Nodup) (field : String) :
    (push fields field).Nodup := by
  unfold push
  split
  · exact h
  · next hn =>
    refine List.nodup_append.2 ⟨h, by simp, ?_⟩
    intro a ha b hb
    obtain rfl := List.mem_singleton.1 hb
    exact fun e => hn (e ▸ ha)

theorem nodup_foldl_push (more : List String) {fields : List String} (h : fields.Nodup) :
    (more.foldl push fields).Nodup := by
  induction more generalizing fields with
  | nil => exact h
  | cons f more ih => exact ih (nodup_push h f)

@[simp] theorem mem_push {fields : List String} {field f : String} :
    f ∈ push fields field ↔ f ∈ fields ∨ f = field := by
  unfold push
  split
  · next h => exact ⟨Or.inl, fun e => e.elim id (· ▸ h)⟩
  · simp

@[simp] theorem mem_foldl_push {more fields : List String} {f : String} :
    f ∈ more.foldl push fields ↔ f ∈ fields ∨ f ∈ more := by
  induction more generalizing fields with
  | nil => simp
  | cons g more ih => simp [ih, or_assoc]

/-- The fields in order of first appearance. -/
def ofList (fields : List String) : Projection :=
  ⟨fields.foldl push [], nodup_foldl_push fields List.nodup_nil⟩

def empty : Projection := ⟨[], List.nodup_nil⟩

instance : Inhabited Projection := ⟨empty⟩

def isEmpty (p : Projection) : Bool := p.fields.isEmpty

def columnsOf (s : CollectionSchema) : Projection := ofList (s.columns.map Prod.fst)

def primaryKeysOf (s : CollectionSchema) : Projection := ofList s.primaryKeys

/-- The fields that are not paths through relations. -/
def columns (p : Projection) : List String := p.fields.filter fun f => (Path.split? f).isNone

/-- What follows a first hop in a path that has it. -/
def after? (name field : String) : Option String :=
  (Path.split? field).bind fun s => if s.1 = name then some s.2 else none

/-- The fields under a relation, without it. -/
def unnest (p : Projection) (name : String) : Projection := ofList (p.fields.filterMap (after? name))

/-- The names that paths go through first, in name order. -/
def heads (p : Projection) : Dict Unit :=
  Dict.ofList (p.fields.filterMap fun f => (Path.split? f).map fun s => (s.1, ()))

/-- The paths through relations, grouped by their first hop. -/
def relations (p : Projection) : Dict Projection := p.heads.mapEntries fun e => p.unnest e.1

def union (p q : Projection) : Projection :=
  ⟨q.fields.foldl push p.fields, nodup_foldl_push q.fields p.nodup⟩

def rename (f : String → String) (p : Projection) : Projection := ofList (p.fields.map f)

def nest (name : String) (p : Projection) : Projection := p.rename (Path.under name)

/-- The number of hops of the longest path. -/
def depth (p : Projection) : Nat := p.fields.foldr (fun f n => max (Path.hops f).length n) 0

@[simp] theorem mem_ofList {fields : List String} {f : String} :
    f ∈ (ofList fields).fields ↔ f ∈ fields := by
  simp [ofList]

@[simp] theorem mem_union {p q : Projection} {f : String} :
    f ∈ (p.union q).fields ↔ f ∈ p.fields ∨ f ∈ q.fields := by
  simp [union]

theorem foldl_push_of_nodup {more fields : List String} (h : (fields ++ more).Nodup) :
    more.foldl push fields = fields ++ more := by
  induction more generalizing fields with
  | nil => simp
  | cons f more ih =>
    have hf : f ∉ fields := fun hf =>
      (List.nodup_append.1 h).2.2 f hf f List.mem_cons_self rfl
    have : push fields f = fields ++ [f] := by simp [push, hf]
    rw [List.foldl_cons, this, ih] <;> simp_all

@[simp] theorem ofList_fields (p : Projection) : ofList p.fields = p := by
  obtain ⟨fields, h⟩ := p
  simp only [ofList, mk.injEq]
  have hn : ([] ++ fields).Nodup := by simpa using h
  simpa using foldl_push_of_nodup hn

theorem length_hops_le_depth {p : Projection} {f : String} (h : f ∈ p.fields) :
    (Path.hops f).length ≤ p.depth := by
  obtain ⟨fields, hn⟩ := p
  simp only [depth] at h ⊢
  clear hn
  induction fields with
  | nil => simp at h
  | cons g rest ih =>
    rcases List.mem_cons.1 h with rfl | h
    · simp only [List.foldr_cons]
      exact Nat.le_max_left _ _
    · simp only [List.foldr_cons]
      exact Nat.le_trans (ih h) (Nat.le_max_right _ _)

theorem depth_le {p : Projection} {n : Nat} (h : ∀ f ∈ p.fields, (Path.hops f).length ≤ n) :
    p.depth ≤ n := by
  obtain ⟨fields, hn⟩ := p
  simp only [depth] at h ⊢
  clear hn
  induction fields with
  | nil => simp
  | cons g rest ih =>
    simp only [List.foldr_cons]
    exact Nat.max_le.2 ⟨h g (by simp), ih fun f hf => h f (List.mem_cons_of_mem _ hf)⟩

theorem mem_unnest {p : Projection} {name f : String} :
    f ∈ (p.unnest name).fields ↔ ∃ g ∈ p.fields, Path.split? g = some (name, f) := by
  simp only [unnest, mem_ofList, List.mem_filterMap, after?]
  refine exists_congr fun g => and_congr_right fun _ => ?_
  cases hs : Path.split? g with
  | none => simp
  | some s =>
    obtain ⟨a, b⟩ := s
    by_cases ha : a = name <;> simp [ha]

theorem contains_heads {p : Projection} {name : String} :
    name ∈ p.heads.keys → ∃ g ∈ p.fields, ∃ rest, Path.split? g = some (name, rest) := by
  intro h
  have hmem : ∀ (es : List (String × Unit)) (acc : List (String × Unit)),
      name ∈ ((es.foldl (fun acc e => Entries.insert e.1 e.2 acc) acc).map Prod.fst) →
        name ∈ acc.map Prod.fst ∨ name ∈ es.map Prod.fst := by
    intro es
    induction es with
    | nil => intro acc h; exact Or.inl h
    | cons e es ih =>
      intro acc h
      rcases ih _ h with h | h
      · obtain ⟨d, hd, rfl⟩ := List.mem_map.1 h
        rcases Entries.mem_insert hd with rfl | hd
        · exact Or.inr (by simp)
        · exact Or.inl (List.mem_map_of_mem hd)
      · exact Or.inr (List.mem_cons_of_mem _ h)
  rcases hmem _ [] h with h | h
  · simp at h
  · obtain ⟨e, he, rfl⟩ := List.mem_map.1 h
    obtain ⟨g, hg, hs⟩ := List.mem_filterMap.1 he
    refine ⟨g, hg, ?_⟩
    cases hsp : Path.split? g with
    | none => simp [hsp] at hs
    | some s =>
      rw [hsp] at hs
      simp only [Option.map_some, Option.some.injEq] at hs
      exact ⟨s.2, by rw [← hs]⟩

/-- Going through a relation shortens the paths. -/
theorem depth_lt_of_mem_relations {p : Projection} {e : String × Projection}
    (h : e ∈ p.relations.entries) : e.2.depth < p.depth := by
  obtain ⟨d, hd, rfl⟩ := List.mem_map.1 h
  obtain ⟨g, hg, rest, hs⟩ := contains_heads (List.mem_map_of_mem hd)
  have hpos : 0 < p.depth := by
    have := length_hops_le_depth hg
    rw [Path.hops_of_split? hs] at this
    exact Nat.lt_of_lt_of_le (Nat.succ_pos _) this
  refine Nat.lt_of_le_of_lt (depth_le fun f hf => ?_) (Nat.sub_lt hpos Nat.one_pos)
  obtain ⟨g, hg, hs⟩ := mem_unnest.1 hf
  have := length_hops_le_depth hg
  rw [Path.hops_of_split? hs, List.length_cons] at this
  omega

/-- Reduces a record to the fields. Absent columns are left out; an absent relation, or one that
holds no record, becomes null. -/
def apply (p : Projection) (record : Record) : Record :=
  let columns := p.columns.foldl (fun (out : Record) name =>
    match record.get? name with
    | some v => out.insert name v
    | none => out) []
  p.relations.entries.attach.foldl (fun (out : Record) e =>
    have := depth_lt_of_mem_relations e.2
    let value := match record.get? e.1.1 with
      | some (.object nested) => .object (e.1.2.apply nested)
      | _ => .null
    out.insert e.1.1 value) columns
termination_by p.depth

end Projection

/-- The fields a condition reads. -/
def Condition.projection (c : Condition) : Projection := Projection.ofList c.fields

def Leaf.projection (l : Leaf) : Projection := Projection.ofList [l.field]

end QueryLayer
