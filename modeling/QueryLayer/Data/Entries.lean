/-! # Entries in name order

Association lists from names to values. `insert` keeps the names strictly increasing, so a sorted
list is the one representation of a finite map. Main statements: what `get?` finds after `insert`
and `erase`, that both keep the order, and that sorted lists with equal look-ups are equal.
-/
namespace QueryLayer.Entries

variable {α β : Type}

/-- The value of the first entry called `key`. -/
def get? : List (String × α) → String → Option α
  | [], _ => none
  | (k, v) :: rest, key => if k = key then some v else get? rest key

/-- Puts `value` under `key`: in the place of the entry of that name, else where the order wants it. -/
def insert (key : String) (value : α) : List (String × α) → List (String × α)
  | [] => [(key, value)]
  | (k, v) :: rest =>
    if key < k then (key, value) :: (k, v) :: rest
    else if k = key then (key, value) :: rest
    else (k, v) :: insert key value rest

def erase (key : String) (entries : List (String × α)) : List (String × α) :=
  entries.filter (fun e => e.1 ≠ key)

def contains (entries : List (String × α)) (key : String) : Bool := (get? entries key).isSome

/-- Later entries replace earlier ones of the same name. -/
def ofList (entries : List (String × α)) : List (String × α) :=
  entries.foldl (fun acc e => insert e.1 e.2 acc) []

/-- Names strictly increase. -/
def Sorted (entries : List (String × α)) : Prop := entries.Pairwise (fun a b => a.1 < b.1)

instance (entries : List (String × α)) : Decidable (Sorted entries) :=
  inferInstanceAs (Decidable (List.Pairwise _ _))

@[simp] theorem get?_nil (key : String) : get? ([] : List (String × α)) key = none := rfl

theorem get?_cons (k : String) (v : α) (rest : List (String × α)) (key : String) :
    get? ((k, v) :: rest) key = if k = key then some v else get? rest key := rfl

@[simp] theorem get?_insert_self (key : String) (value : α) (entries : List (String × α)) :
    get? (insert key value entries) key = some value := by
  induction entries with
  | nil => simp [insert, get?]
  | cons e rest ih =>
    obtain ⟨k, v⟩ := e
    unfold insert
    split
    · simp [get?]
    · split
      · simp [get?]
      · next h => simp [get?, h, ih]

theorem get?_insert_of_ne {key other : String} (h : key ≠ other) (value : α)
    (entries : List (String × α)) :
    get? (insert key value entries) other = get? entries other := by
  induction entries with
  | nil => simp [insert, get?, h]
  | cons e rest ih =>
    obtain ⟨k, v⟩ := e
    unfold insert
    split
    · simp [get?, h]
    · split
      · next hk => subst hk; simp [get?, h]
      · simp [get?, ih]

theorem get?_insert (key other : String) (value : α) (entries : List (String × α)) :
    get? (insert key value entries) other = if key = other then some value else get? entries other := by
  by_cases h : key = other
  · subst h; simp
  · simp [h, get?_insert_of_ne h]

theorem get?_erase_self (key : String) (entries : List (String × α)) :
    get? (erase key entries) key = none := by
  induction entries with
  | nil => rfl
  | cons e rest ih =>
    obtain ⟨k, v⟩ := e
    by_cases h : k = key
    · simpa [erase, h] using ih
    · simpa [erase, h, get?] using ih

theorem get?_erase_of_ne {key other : String} (h : key ≠ other) (entries : List (String × α)) :
    get? (erase key entries) other = get? entries other := by
  induction entries with
  | nil => rfl
  | cons e rest ih =>
    obtain ⟨k, v⟩ := e
    by_cases hk : k = key
    · subst hk
      simpa [erase, get?, h] using ih
    · have : get? (erase key ((k, v) :: rest)) other
          = if k = other then some v else get? (erase key rest) other := by
        simp [erase, hk, get?]
      rw [this, ih]
      rfl

theorem get?_eq_some_mem {entries : List (String × α)} {key : String} {value : α}
    (h : get? entries key = some value) : (key, value) ∈ entries := by
  induction entries with
  | nil => simp at h
  | cons e rest ih =>
    obtain ⟨k, v⟩ := e
    rw [get?_cons] at h
    split at h
    · next hk => cases h; subst hk; simp
    · exact List.mem_cons_of_mem _ (ih h)

theorem get?_eq_none_iff {entries : List (String × α)} {key : String} :
    get? entries key = none ↔ key ∉ entries.map Prod.fst := by
  induction entries with
  | nil => simp
  | cons e rest ih =>
    obtain ⟨k, v⟩ := e
    rw [get?_cons]
    split
    · next hk => simp [hk]
    · next hk => simp [ih, Ne.symm hk]

@[simp] theorem sorted_nil : Sorted ([] : List (String × α)) := List.Pairwise.nil

theorem mem_insert {key : String} {value : α} {entries : List (String × α)} {e : String × α}
    (h : e ∈ insert key value entries) : e = (key, value) ∨ e ∈ entries := by
  induction entries with
  | nil => simpa [insert] using h
  | cons d rest ih =>
    obtain ⟨k, v⟩ := d
    unfold insert at h
    split at h
    · simpa using h
    · split at h
      · rcases List.mem_cons.1 h with h | h
        · exact Or.inl h
        · exact Or.inr (List.mem_cons_of_mem _ h)
      · rcases List.mem_cons.1 h with h | h
        · exact Or.inr (by simp [h])
        · rcases ih h with h | h
          · exact Or.inl h
          · exact Or.inr (List.mem_cons_of_mem _ h)

theorem mem_insert_of_ne {key : String} {entries : List (String × α)} {e : String × α} (he : e ∈ entries)
    (h : e.1 ≠ key) (value : α) : e ∈ insert key value entries := by
  induction entries with
  | nil => cases he
  | cons d rest ih =>
    obtain ⟨k, v⟩ := d
    unfold insert
    split
    · exact List.mem_cons_of_mem _ he
    · split
      · next hk =>
        rcases List.mem_cons.1 he with rfl | he
        · exact absurd hk h
        · exact List.mem_cons_of_mem _ he
      · rcases List.mem_cons.1 he with rfl | he
        · exact List.mem_cons_self
        · exact List.mem_cons_of_mem _ (ih he)

theorem lt_of_not_lt_of_ne {a b : String} (h : ¬ a < b) (hne : b ≠ a) : b < a := by
  rcases Decidable.em (b < a) with hlt | hlt
  · exact hlt
  · exact absurd (String.le_antisymm (String.not_lt.1 h) (String.not_lt.1 hlt)) hne

theorem sorted_insert {entries : List (String × α)} (h : Sorted entries) (key : String)
    (value : α) : Sorted (insert key value entries) := by
  induction entries with
  | nil => simp [insert, Sorted]
  | cons e rest ih =>
    obtain ⟨k, v⟩ := e
    have hrest := (List.pairwise_cons.1 h).2
    have hk := (List.pairwise_cons.1 h).1
    unfold insert
    split
    · next hlt =>
      refine List.pairwise_cons.2 ⟨?_, h⟩
      intro e he
      rcases List.mem_cons.1 he with rfl | he
      · exact hlt
      · exact String.lt_trans hlt (hk e he)
    · split
      · next heq =>
        subst heq
        exact List.pairwise_cons.2 ⟨hk, hrest⟩
      · next hlt hne =>
        refine List.pairwise_cons.2 ⟨?_, ih hrest⟩
        intro e he
        rcases mem_insert he with rfl | he
        · exact lt_of_not_lt_of_ne hlt hne
        · exact hk e he

theorem sorted_foldl_insert {γ : Type} (entries : List γ) (key : γ → String) (value : γ → α)
    {acc : List (String × α)} (h : Sorted acc) :
    Sorted (entries.foldl (fun acc e => insert (key e) (value e) acc) acc) := by
  induction entries generalizing acc with
  | nil => exact h
  | cons e rest ih => exact ih (sorted_insert h _ _)

theorem sorted_ofList (entries : List (String × α)) : Sorted (ofList entries) :=
  sorted_foldl_insert entries Prod.fst Prod.snd sorted_nil

theorem sorted_erase {entries : List (String × α)} (h : Sorted entries) (key : String) :
    Sorted (erase key entries) := List.Pairwise.filter _ h

theorem sorted_filter {entries : List (String × α)} (h : Sorted entries)
    (p : String × α → Bool) : Sorted (entries.filter p) := List.Pairwise.filter _ h

theorem sorted_map {entries : List (String × α)} (h : Sorted entries) (f : String × α → β) :
    Sorted (entries.map (fun e => (e.1, f e))) := by
  simpa [Sorted, List.pairwise_map] using h

/-- An entry of a sorted list is the one its name finds. -/
theorem get?_of_mem {entries : List (String × α)} (h : Sorted entries) {key : String} {value : α}
    (hmem : (key, value) ∈ entries) : get? entries key = some value := by
  induction entries with
  | nil => simp at hmem
  | cons e rest ih =>
    obtain ⟨k, v⟩ := e
    rw [get?_cons]
    rcases List.mem_cons.1 hmem with heq | hmem
    · cases heq; simp
    · have hlt := (List.pairwise_cons.1 h).1 _ hmem
      have hne : k ≠ key := fun he => String.lt_irrefl key (he ▸ hlt)
      simp [hne, ih (List.pairwise_cons.1 h).2 hmem]

theorem get?_eq_some_iff {entries : List (String × α)} (h : Sorted entries) {key : String}
    {value : α} : get? entries key = some value ↔ (key, value) ∈ entries :=
  ⟨get?_eq_some_mem, get?_of_mem h⟩

private theorem get?_below {entries : List (String × α)} {key : String}
    (h : ∀ e ∈ entries, key < e.1) : get? entries key = none := by
  rw [get?_eq_none_iff]
  intro hmem
  obtain ⟨e, he, rfl⟩ := List.mem_map.1 hmem
  exact String.lt_irrefl _ (h e he)

/-- Sorted entries are determined by what they answer. -/
theorem ext_get? {a b : List (String × α)} (ha : Sorted a) (hb : Sorted b)
    (h : ∀ key, get? a key = get? b key) : a = b := by
  induction a generalizing b with
  | nil =>
    cases b with
    | nil => rfl
    | cons e rest => simpa [get?] using h e.1
  | cons d as ih =>
    cases b with
    | nil => simpa [get?] using h d.1
    | cons e bs =>
      obtain ⟨k, v⟩ := d
      obtain ⟨l, w⟩ := e
      have hka := (List.pairwise_cons.1 ha).1
      have hkb := (List.pairwise_cons.1 hb).1
      have hkl : k = l := by
        rcases Decidable.em (k = l) with heq | hne
        · exact heq
        · rcases Decidable.em (k < l) with hlt | hlt
          · have hk := h k
            have hnone : get? bs k = none :=
              get?_below fun e he => String.lt_trans hlt (hkb e he)
            simp [get?_cons, Ne.symm hne, hnone] at hk
          · have hlk := lt_of_not_lt_of_ne hlt (Ne.symm hne)
            have hl := h l
            have hnone : get? as l = none :=
              get?_below fun e he => String.lt_trans hlk (hka e he)
            simp [get?_cons, hne, hnone] at hl
      subst hkl
      have hv : v = w := by simpa [get?_cons] using h k
      subst hv
      congr 1
      refine ih (List.pairwise_cons.1 ha).2 (List.pairwise_cons.1 hb).2 fun key => ?_
      rcases Decidable.em (k = key) with rfl | hne
      · rw [get?_below hka, get?_below hkb]
      · simpa [get?_cons, hne] using h key

end QueryLayer.Entries
