import QueryLayer.Data.Dict

/-! # Entries without repeated names

A list of entries that names nothing twice answers as the dictionary built from it, and one that is in
name order is that dictionary. Entries put under other names answer under these, as long as no two get
the same one.
-/
namespace QueryLayer.Entries

variable {α β : Type}

theorem Sorted.nodup {entries : List (String × α)} (h : Sorted entries) :
    (entries.map Prod.fst).Nodup := by
  refine List.Pairwise.imp ?_ (List.pairwise_map.2 h)
  intro a b hlt heq
  exact String.lt_irrefl b (heq ▸ hlt)

/-- The order is a matter of the names alone. -/
theorem sorted_of_map_fst_eq {a : List (String × α)} {b : List (String × β)}
    (h : a.map Prod.fst = b.map Prod.fst) (hb : Sorted b) : Sorted a := by
  have hnames : (b.map Prod.fst).Pairwise (· < ·) := List.pairwise_map.2 hb
  rw [← h] at hnames
  exact List.pairwise_map.1 hnames

theorem sorted_of_names (names : List String) {entries : List (String × α)}
    (h : entries.map Prod.fst = names) (hnames : Sorted (names.map fun name => (name, ()))) :
    Sorted entries := by
  refine sorted_of_map_fst_eq ?_ hnames
  rw [h, List.map_map]
  exact (List.map_id names).symm

/-- An entry of a list without repeated names is the one its name finds. -/
theorem get?_of_mem_of_nodup {entries : List (String × α)} (h : (entries.map Prod.fst).Nodup)
    {e : String × α} (he : e ∈ entries) : get? entries e.1 = some e.2 := by
  induction entries with
  | nil => simp at he
  | cons d rest ih =>
    obtain ⟨hnew, hrest⟩ := List.nodup_cons.1 h
    rw [get?_cons]
    rcases List.mem_cons.1 he with rfl | he
    · rw [if_pos rfl]
    · have hne : d.1 ≠ e.1 := fun heq => hnew (heq ▸ List.mem_map_of_mem he)
      rw [if_neg hne, ih hrest he]

/-- The entries of a name are the one that it finds. -/
theorem filter_name {entries : List (String × α)} (h : (entries.map Prod.fst).Nodup) (key : String) :
    entries.filter (fun e => e.1 = key) = ((get? entries key).map fun v => (key, v)).toList := by
  induction entries with
  | nil => rfl
  | cons e rest ih =>
    obtain ⟨hnew, hrest⟩ := List.nodup_cons.1 h
    rw [get?_cons]
    by_cases hkey : e.1 = key
    · subst hkey
      rw [List.filter_cons_of_pos (by simp), if_pos rfl, ih hrest, get?_eq_none_iff.2 hnew]
      rfl
    · rw [List.filter_cons_of_neg (by simpa using hkey), if_neg hkey, ih hrest]

theorem get?_foldl_insert {entries : List (String × α)} (h : (entries.map Prod.fst).Nodup)
    (acc : List (String × α)) (key : String) :
    get? (entries.foldl (fun acc e => insert e.1 e.2 acc) acc) key =
      (get? entries key).or (get? acc key) := by
  induction entries generalizing acc with
  | nil => simp
  | cons e rest ih =>
    obtain ⟨hnew, hrest⟩ := List.nodup_cons.1 h
    rw [List.foldl_cons, ih hrest, get?_insert, get?_cons]
    split
    · next heq =>
      have hnone : get? rest key = none := get?_eq_none_iff.2 (heq ▸ hnew)
      rw [hnone]
      simp
    · rfl

theorem get?_ofList {entries : List (String × α)} (h : (entries.map Prod.fst).Nodup) (key : String) :
    get? (ofList entries) key = get? entries key := by
  rw [ofList, get?_foldl_insert h]
  simp

theorem ofList_of_sorted {entries : List (String × α)} (h : Sorted entries) :
    ofList entries = entries :=
  ext_get? (sorted_ofList entries) h (get?_ofList h.nodup)

theorem isSome_get?_foldl_insert (es acc : List (String × α)) (key : String) :
    (get? (es.foldl (fun acc e => insert e.1 e.2 acc) acc) key).isSome ↔
      (get? acc key).isSome ∨ key ∈ es.map Prod.fst := by
  induction es generalizing acc with
  | nil => simp
  | cons e es ih =>
    rw [List.foldl_cons, ih, get?_insert, List.map_cons, List.mem_cons]
    by_cases he : e.1 = key
    · simp [he]
    · simp [he, Ne.symm he]

theorem mem_of_mem_foldl_insert {es acc : List (String × α)} {e : String × α}
    (h : e ∈ es.foldl (fun acc e => insert e.1 e.2 acc) acc) : e ∈ es ∨ e ∈ acc := by
  induction es generalizing acc with
  | nil => exact Or.inr h
  | cons d es ih =>
    rcases ih h with h | h
    · exact Or.inl (List.mem_cons_of_mem _ h)
    · rcases mem_insert h with rfl | h
      · exact Or.inl List.mem_cons_self
      · exact Or.inr h

theorem mem_of_mem_ofList {es : List (String × α)} {e : String × α} (h : e ∈ ofList es) : e ∈ es :=
  (mem_of_mem_foldl_insert h).resolve_right List.not_mem_nil

theorem perm_ofList {entries : List (String × α)} (h : (entries.map Prod.fst).Nodup) :
    (ofList entries).Perm entries := by
  have hnodup : ∀ {es : List (String × α)}, (es.map Prod.fst).Nodup → es.Nodup :=
    fun hes => List.Pairwise.of_map Prod.fst (fun _ _ hne heq => hne (congrArg Prod.fst heq)) hes
  refine (List.perm_ext_iff_of_nodup (hnodup (sorted_ofList entries).nodup) (hnodup h)).2 fun e => ?_
  constructor
  · exact mem_of_mem_ofList
  · intro he
    refine get?_eq_some_mem ?_
    rw [get?_ofList h, get?_of_mem_of_nodup h he]

theorem isSome_get?_ofList_iff {entries : List (String × α)} {key : String} :
    (get? (ofList entries) key).isSome ↔ key ∈ entries.map Prod.fst := by
  rw [ofList, isSome_get?_foldl_insert]
  simp

/-! ## Other names -/

def rename (f : String → String) (entries : List (String × α)) : List (String × α) :=
  ofList (entries.map fun e => (f e.1, e.2))

theorem sorted_rename (f : String → String) (entries : List (String × α)) : Sorted (rename f entries) :=
  sorted_ofList _

/-- The last entry of a name is still the last one of its new name. -/
theorem get?_rename_ofList {f : String → String} {entries : List (String × α)} {key : String}
    (h : ∀ e ∈ entries, f e.1 = f key → e.1 = key) :
    get? (rename f entries) (f key) = get? (ofList entries) key := by
  have hfrom : ∀ acc acc' : List (String × α), get? acc (f key) = get? acc' key →
      get? ((entries.map fun e => (f e.1, e.2)).foldl (fun acc e => insert e.1 e.2 acc) acc) (f key) =
        get? (entries.foldl (fun acc e => insert e.1 e.2 acc) acc') key := by
    induction entries with
    | nil => exact fun _ _ hacc => hacc
    | cons e rest ih =>
      intro acc acc' hacc
      refine ih (fun d hd => h d (List.mem_cons_of_mem _ hd)) _ _ ?_
      rw [get?_insert, get?_insert, hacc]
      by_cases he : e.1 = key
      · rw [if_pos he, if_pos (congrArg f he)]
      · rw [if_neg he, if_neg fun heq => he (h e List.mem_cons_self heq)]
  exact hfrom [] [] rfl

/-- What entries answer under their new names. -/
theorem get?_rename {f : String → String} {D : String → Prop} {entries : List (String × α)}
    (hf : ∀ a b, D a → D b → f a = f b → a = b) (hentries : ∀ e ∈ entries, D e.1)
    (h : (entries.map Prod.fst).Nodup) {key : String} (hkey : D key) :
    get? (rename f entries) (f key) = get? entries key := by
  rw [get?_rename_ofList fun e he heq => hf _ _ (hentries e he) hkey heq, get?_ofList h]

theorem exists_of_get?_rename {f : String → String} {entries : List (String × α)} {key : String}
    {value : α} (h : get? (rename f entries) key = some value) : ∃ e ∈ entries, f e.1 = key := by
  have hsome : (get? (rename f entries) key).isSome := by rw [h]; rfl
  have hmem := isSome_get?_ofList_iff.1 hsome
  rw [List.map_map] at hmem
  obtain ⟨e, he, heq⟩ := List.mem_map.1 hmem
  exact ⟨e, he, heq⟩

section

variable {f : String → String} {D : String → Prop}

/-- Entries with different names keep them apart. -/
theorem rename_inj (hf : ∀ a b, D a → D b → f a = f b → a = b) {a b : List (String × α)} (ha : Sorted a)
    (hb : Sorted b) (hda : ∀ e ∈ a, D e.1) (hdb : ∀ e ∈ b, D e.1) (h : rename f a = rename f b) : a = b := by
  have hnone : ∀ {entries : List (String × α)} {key : String}, (∀ e ∈ entries, D e.1) → ¬D key →
      get? entries key = none := by
    intro entries key hentries hkey
    rw [get?_eq_none_iff]
    intro hmem
    obtain ⟨e, he, rfl⟩ := List.mem_map.1 hmem
    exact hkey (hentries e he)
  refine ext_get? ha hb fun key => ?_
  by_cases hkey : D key
  · rw [← get?_rename hf hda ha.nodup hkey, h, get?_rename hf hdb hb.nodup hkey]
  · rw [hnone hda hkey, hnone hdb hkey]

theorem rename_insert (hf : ∀ a b, D a → D b → f a = f b → a = b) {entries : List (String × α)}
    (hentries : ∀ e ∈ entries, D e.1) (h : Sorted entries) {key : String} (hkey : D key) (value : α) :
    rename f (insert key value entries) = insert (f key) value (rename f entries) := by
  have hmem : ∀ e ∈ insert key value entries, D e.1 := by
    intro e he
    rcases mem_insert he with rfl | he
    · exact hkey
    · exact hentries e he
  refine ext_get? (sorted_rename f _) (sorted_insert (sorted_rename f _) _ _) fun name => ?_
  by_cases hname : ∃ x, D x ∧ f x = name
  · obtain ⟨x, hx, rfl⟩ := hname
    rw [get?_rename hf hmem (sorted_insert h key value).nodup hx, get?_insert, get?_insert,
      get?_rename hf hentries h.nodup hx]
    by_cases heq : key = x
    · rw [if_pos heq, if_pos (congrArg f heq)]
    · rw [if_neg heq, if_neg fun hfx => heq (hf _ _ hkey hx hfx)]
  · have hnone : ∀ {es : List (String × α)}, (∀ e ∈ es, D e.1) → get? (rename f es) name = none := by
      intro es hes
      rw [← Option.not_isSome_iff_eq_none]
      intro hsome
      obtain ⟨v, hv⟩ := Option.isSome_iff_exists.1 hsome
      obtain ⟨e, he, heq⟩ := exists_of_get?_rename hv
      exact hname ⟨e.1, hes e he, heq⟩
    have hne : f key ≠ name := fun heq => hname ⟨key, hkey, heq⟩
    rw [hnone hmem, get?_insert_of_ne hne, hnone hentries]

end

end QueryLayer.Entries

theorem QueryLayer.Dict.get?_erase {α : Type} (d : Dict α) (key other : String) :
    (d.erase key).get? other = if key = other then none else d.get? other := by
  split
  · next h =>
    subst h
    exact d.get?_erase_self key
  · next h => exact d.get?_erase_of_ne h

theorem QueryLayer.Dict.get?_foldl_insert {α : Type} (keys : List String) (value : α) (d : Dict α) (key : String) :
    (keys.foldl (fun d k => d.insert k value) d).get? key = if key ∈ keys then some value else d.get? key := by
  induction keys generalizing d with
  | nil => simp
  | cons k keys ih =>
    rw [List.foldl_cons, ih, get?_insert]
    by_cases hkey : key ∈ keys
    · simp [hkey]
    · by_cases hk : k = key
      · simp [hk]
      · simp [hkey, hk, Ne.symm hk]
