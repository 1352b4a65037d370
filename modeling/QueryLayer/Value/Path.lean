import QueryLayer.Value.Basic

/-! # Field paths

A path names a field through relations: the hops `writer` and `name` of `writer:name` are separated
by colons. Main statements: joining the hops of a path gives it back, and putting a path under a
name without a colon puts that name before its hops.
-/
namespace QueryLayer

namespace Path

/-- Cuts characters at every colon. -/
def cut : List Char → List (List Char)
  | [] => [[]]
  | c :: cs =>
    if c = ':' then [] :: cut cs
    else match cut cs with
      | [] => [[c]]
      | hop :: rest => (c :: hop) :: rest

/-- The hops of a path; never empty. -/
def hops (path : String) : List String := (cut path.toList).map String.ofList

def join : List String → String
  | [] => ""
  | [hop] => hop
  | hop :: rest => hop ++ ":" ++ join rest

/-- The path that goes through `name` first. -/
def under (name path : String) : String := name ++ ":" ++ path

/-- The first hop and the path after it, for a path of more than one hop. -/
def split? (path : String) : Option (String × String) :=
  match hops path with
  | first :: second :: rest => some (first, join (second :: rest))
  | _ => none

/-- Whether a text can be one hop. -/
def Plain (name : String) : Prop := ':' ∉ name.toList

instance (name : String) : Decidable (Plain name) := inferInstanceAs (Decidable (_ ∉ _))

theorem cut_ne_nil (cs : List Char) : cut cs ≠ [] := by
  cases cs with
  | nil => simp [cut]
  | cons c cs =>
    simp only [cut]
    split
    · simp
    · split <;> simp

theorem hops_ne_nil (path : String) : hops path ≠ [] := by
  simp [hops, cut_ne_nil]

theorem colon_notMem_of_mem_cut {cs hop : List Char} (h : hop ∈ cut cs) : ':' ∉ hop := by
  induction cs generalizing hop with
  | nil => simp_all [cut]
  | cons c cs ih =>
    simp only [cut] at h
    split at h
    · rcases List.mem_cons.1 h with rfl | h
      · simp
      · exact ih h
    · next hc =>
      split at h
      · next hnil => exact absurd hnil (cut_ne_nil cs)
      · next first rest hcut =>
        rcases List.mem_cons.1 h with rfl | h
        · have : ':' ∉ first := ih (by simp [hcut])
          simp [this, Ne.symm hc]
        · exact ih (by simp [hcut, h])

theorem cut_of_plain {cs : List Char} (h : ':' ∉ cs) : cut cs = [cs] := by
  induction cs with
  | nil => rfl
  | cons c cs ih =>
    have hc : c ≠ ':' := fun e => h (by simp [e])
    have hcs : ':' ∉ cs := fun e => h (List.mem_cons_of_mem _ e)
    simp [cut, hc, ih hcs]

theorem cut_append_colon {name : List Char} (h : ':' ∉ name) (cs : List Char) :
    cut (name ++ ':' :: cs) = name :: cut cs := by
  induction name with
  | nil => simp [cut]
  | cons c name ih =>
    have hc : c ≠ ':' := fun e => h (by simp [e])
    have hn : ':' ∉ name := fun e => h (List.mem_cons_of_mem _ e)
    simp [cut, hc, ih hn]

theorem hops_of_plain {name : String} (h : Plain name) : hops name = [name] := by
  simp [hops, cut_of_plain h]

theorem hops_under {name : String} (h : Plain name) (path : String) :
    hops (under name path) = name :: hops path := by
  have : (under name path).toList = name.toList ++ ':' :: path.toList := by simp [under]
  simp [hops, this, cut_append_colon h]

theorem toList_join_cut (cs : List Char) : (join ((cut cs).map String.ofList)).toList = cs := by
  induction cs with
  | nil => rfl
  | cons c cs ih =>
    have hne := cut_ne_nil cs
    simp only [cut]
    split
    · next hc =>
      subst hc
      cases h : cut cs with
      | nil => exact absurd h hne
      | cons hop rest =>
        rw [h] at ih
        simp only [List.map_cons] at ih ⊢
        simp [join, ih]
    · cases h : cut cs with
      | nil => exact absurd h hne
      | cons hop rest =>
        rw [h] at ih
        cases rest with
        | nil => simpa [join] using ih
        | cons next rest => simpa [join] using ih

/-- A path is its hops joined again. -/
@[simp] theorem join_hops (path : String) : join (hops path) = path := by
  apply String.toList_inj.1
  exact toList_join_cut path.toList

theorem plain_of_mem_hops {path hop : String} (h : hop ∈ hops path) : Plain hop := by
  obtain ⟨cs, hcs, rfl⟩ := List.mem_map.1 h
  simpa [Plain] using colon_notMem_of_mem_cut hcs

theorem split?_of_plain {name : String} (h : Plain name) : split? name = none := by
  simp [split?, hops_of_plain h]

theorem split?_under {name : String} (h : Plain name) (path : String) :
    split? (under name path) = some (name, path) := by
  have hne := hops_ne_nil path
  rw [split?, hops_under h]
  cases hp : hops path with
  | nil => exact absurd hp hne
  | cons hop rest => simp [← hp]

theorem eq_under_of_split? {path first rest : String} (h : split? path = some (first, rest)) :
    path = under first rest := by
  rw [split?] at h
  split at h
  · next a b t hp =>
    cases h
    rw [← join_hops path, hp]
    rfl
  · cases h

theorem plain_of_split? {path first rest : String} (h : split? path = some (first, rest)) :
    Plain first := by
  suffices first ∈ hops path from plain_of_mem_hops this
  rw [split?] at h
  split at h
  · next hp => cases h; simp [hp]
  · cases h

theorem hops_of_split? {path first rest : String} (h : split? path = some (first, rest)) :
    hops path = first :: hops rest := by
  conv => lhs; rw [eq_under_of_split? h]
  exact hops_under (plain_of_split? h) rest

end Path

namespace Record

def get? (record : Record) (name : String) : Option Value := Entries.get? record name

def insert (record : Record) (name : String) (value : Value) : Record :=
  Entries.insert name value record

/-- The value that a chain of hops leads to; every hop but the last has to hold an object. -/
def valueAt? (record : Record) : List String → Option Value
  | [] => none
  | [name] => record.get? name
  | name :: rest =>
    match record.get? name with
    | some (.object nested) => valueAt? nested rest
    | _ => none

/-- The value that a path leads to. -/
def value? (record : Record) (path : String) : Option Value := record.valueAt? (Path.hops path)

/-- The value that a path leads to, null when there is none. -/
def value (record : Record) (path : String) : Value := (record.value? path).getD .null

end Record

end QueryLayer
