import QueryLayer.Proofs.Naming.RelationKeys
import QueryLayer.Proofs.Source.Calls

/-! # Field names over any source

Whatever the source, and whichever calls were made before, the public names pair off with the fields of each
collection: names that were given up can be taken and given back, and none of them ever stands for two fields.
The next call is accepted when it asks for nothing or gives a public field a name that is free. Main statement:
`FieldNaming.pairs_run`.
-/
namespace QueryLayer

variable {σ : Type}

/-- Whether a collection of a source has a field. -/
def Source.HasField (s : Source σ) (name field : String) : Prop :=
  ∃ c, s.collection name = .ok c ∧ field ∈ c.schema.fields.keys

theorem Source.hasField_iff {s : Source σ} {name : String} {c : Collection σ} (hc : s.collection name = .ok c)
    {field : String} : s.HasField name field ↔ field ∈ c.schema.fields.keys := by
  constructor
  · rintro ⟨d, hd, hfield⟩
    rw [hc] at hd
    cases hd
    exact hfield
  · exact fun hfield => ⟨c, hc, hfield⟩

namespace FieldNaming

/-- A field as it is shown, under its public name. -/
def publicEntry (n : FieldNaming σ) (c : Collection σ) (e : String × Field) : String × Field :=
  (n.publicField c.name e.1, match e.2 with
    | .column column => .column column
    | .relation r => .relation (n.publicRelation c.name r))

/-- The names of the fields that are shown. -/
abbrev publicKeys (n : FieldNaming σ) (c : Collection σ) : List String := (n.publicSchema c).fields.keys

theorem mem_publicKeys_iff {n : FieldNaming σ} {c : Collection σ} {g : String} :
    g ∈ n.publicKeys c ↔ ∃ f ∈ c.schema.fields.keys, n.publicField c.name f = g := by
  rw [publicKeys, Dict.mem_keys_iff]
  refine Entries.isSome_get?_ofList_iff.trans ?_
  rw [List.map_map, ← List.mem_map]
  unfold Dict.keys
  rw [List.map_map]
  rfl

/-- A naming over a source that has tables by which every field can be found. -/
structure FairOver (n : FieldNaming σ) (child : Source σ) : Prop where
  child_eq : n.child = child
  fair : ∀ name, (n.names name).Fair (child.HasField name)

/-- The public names pair off with the fields of a collection. -/
structure Pairs (n : FieldNaming σ) (c : Collection σ) : Prop where
  inverse : ∀ own name, (n.names c.name).publicOf.get? own = some name ↔
    (n.names c.name).ownOf.get? name = some own
  /-- One field is shown for each field that there is, and each under another name. -/
  perm : (n.publicSchema c).fields.entries.Perm (c.schema.fields.entries.map (n.publicEntry c))
  distinct : (n.publicKeys c).Nodup
  back : ∀ f ∈ c.schema.fields.keys, n.ownField c.name (n.publicField c.name f) = .ok f
  found : ∀ g ∈ n.publicKeys c, ∃ f ∈ c.schema.fields.keys, n.ownField c.name g = .ok f ∧
    n.publicField c.name f = g
  /-- A name is refused if it is the own name of a field and no longer a public one; what is neither stands for
  itself. -/
  refused : ∀ g, n.ownField c.name g = .error (.query (.fieldNotFound g c.name)) ↔
    g ∈ c.schema.fields.keys ∧ g ∉ n.publicKeys c
  stray : ∀ g, g ∉ c.schema.fields.keys → g ∉ n.publicKeys c → n.ownField c.name g = .ok g

/-- How a call to rename a field of a collection is answered. -/
structure Answers (n : FieldNaming σ) (c : Collection σ) (current new : String) : Prop where
  accepted : (∃ m, n.rename c.name current new = .ok m) ↔
    current = new ∨ current ∈ n.publicKeys c ∧ new ∉ n.publicKeys c
  /-- An accepted call changes the name of one field. -/
  renamed : ∀ m, n.rename c.name current new = .ok m → n.after ⟨c.name, current, new⟩ = m ∧
    (∀ f ∈ c.schema.fields.keys, m.publicField c.name f =
      if n.publicField c.name f = current then new else n.publicField c.name f) ∧
    ∀ name, name ≠ c.name → m.names name = n.names name
  rejected : ∀ err, n.rename c.name current new = .error err → n.after ⟨c.name, current, new⟩ = n ∧
    (current ∉ n.publicKeys c ∧ err = .query (.fieldNotFound current c.name) ∨
      new ∈ n.publicKeys c ∧
        err = .setup (.invalidRename current new "a field with this name already exists"))

variable {n m : FieldNaming σ} {child : Source σ} {c : Collection σ} {current new : String}

/-! ## Calls -/

theorem rename_eq (hc : n.child.collection c.name = .ok c) : n.rename c.name current new =
    if current = new then .ok n
    else if current ∉ n.publicKeys c then .error (.query (.fieldNotFound current c.name))
    else if new ∈ n.publicKeys c then
      .error (.setup (.invalidRename current new "a field with this name already exists"))
    else .ok { n with tables := n.tables.insert c.name ((n.names c.name).rename current new) } := by
  have hcontains : ∀ g, (n.publicSchema c).fields.contains g = true ↔ g ∈ n.publicKeys c := fun g => by
    rw [publicKeys, Dict.mem_keys_iff, Dict.contains]
  unfold rename
  rw [hc, Outcome.ok_bind]
  split
  · rfl
  · simp only [Bool.not_eq_true', ← Bool.not_eq_true, hcontains]
    split
    · rfl
    · split <;> rfl

theorem rename_eq_ok_iff (hc : n.child.collection c.name = .ok c) : n.rename c.name current new = .ok m ↔
    current = new ∧ m = n ∨ current ≠ new ∧ current ∈ n.publicKeys c ∧ new ∉ n.publicKeys c ∧
      m = { n with tables := n.tables.insert c.name ((n.names c.name).rename current new) } := by
  rw [rename_eq hc]
  by_cases heq : current = new
  · simp [heq, eq_comm]
  by_cases hcurrent : current ∈ n.publicKeys c
  · by_cases hnew : new ∈ n.publicKeys c
    · simp [heq, hcurrent, hnew]
    · simp [heq, hcurrent, hnew, eq_comm]
  · simp [heq, hcurrent]

namespace FairOver

theorem ofSource (child : Source σ) : (FieldNaming.ofSource child).FairOver child where
  child_eq := rfl
  fair name := .empty (child.HasField name)

/-- The renamed field is one of the collection, and its new name is that of no other one. -/
theorem rename (h : n.FairOver child) {collection : String} (hm : n.rename collection current new = .ok m) :
    m.FairOver child := by
  obtain ⟨c, hc, -⟩ := Outcome.bind_eq_ok_iff.1 hm
  obtain rfl := Source.name_of_collection hc
  have hown : ∀ f, child.HasField c.name f ↔ f ∈ c.schema.fields.keys := fun f =>
    Source.hasField_iff (h.child_eq ▸ hc)
  obtain ⟨-, rfl⟩ | ⟨-, hcurrent, hfree, rfl⟩ := (rename_eq_ok_iff hc).1 hm
  · exact h
  obtain ⟨own, hmem, rfl⟩ := mem_publicKeys_iff.1 hcurrent
  refine ⟨h.child_eq, fun name => ?_⟩
  rw [names_insert]
  split
  · next hname =>
    subst hname
    refine (h.fair c.name).rename ((hown own).2 hmem) fun other hother heq => hfree ?_
    exact mem_publicKeys_iff.2 ⟨other, (hown other).1 hother, heq⟩
  · exact h.fair name

theorem after (h : n.FairOver child) (r : Rename) : (n.after r).FairOver child := by
  unfold FieldNaming.after
  split
  · next renamed hok => exact h.rename hok
  · exact h

theorem run (child : Source σ) (calls : List Rename) : (run child calls).FairOver child := by
  induction calls using List.reverseRecOn with
  | nil => exact .ofSource child
  | append_singleton calls r ih =>
    rw [FieldNaming.run, List.foldl_append]
    exact ih.after r

/-! ## What a fair naming shows -/

theorem pairs (h : n.FairOver child) (hc : child.collection c.name = .ok c) : n.Pairs c := by
  have hfair := h.fair c.name
  have hown : ∀ f, child.HasField c.name f ↔ f ∈ c.schema.fields.keys := fun f => Source.hasField_iff hc
  have hfree : ∀ g, g ∉ n.publicKeys c ↔
      ∀ f, child.HasField c.name f → (n.names c.name).publicName f ≠ g := by
    intro g
    rw [mem_publicKeys_iff, not_exists]
    exact forall_congr' fun f => by rw [not_and, hown]; rfl
  refine ⟨hfair.inverse, ?_, Dict.nodup_keys _, fun f hf => ownField_publicField_of_fair hfair ((hown f).2 hf),
    fun g hg => ?_, fun g => ?_, fun g hstray hhidden => ?_⟩
  · refine QueryLayer.Entries.perm_ofList ?_
    have hkeys : (c.schema.fields.keys.map (n.publicField c.name)).Nodup :=
      List.Nodup.map_on (fun f hf g hg heq => hfair.publicName_inj ((hown f).2 hf) ((hown g).2 hg) heq)
        (Dict.nodup_keys _)
    unfold Dict.keys at hkeys
    rw [List.map_map] at hkeys ⊢
    exact hkeys
  · obtain ⟨f, hf, rfl⟩ := mem_publicKeys_iff.1 hg
    exact ⟨f, hf, ownField_publicField_of_fair hfair ((hown f).2 hf), rfl⟩
  · rw [hfree, ← hown, ← hfair.ownName?_eq_none_iff]
    unfold ownField
    cases (n.names c.name).ownName? g with
    | none => simp
    | some own => simp
  · have hitself := hfair.ownName?_of_stray (fun hg => hstray ((hown g).1 hg)) ((hfree g).1 hhidden)
    unfold ownField
    rw [hitself]

/-- The field that was known as `current` is known as `new`, and no other field is known by another name. -/
theorem publicField_rename (h : n.FairOver child) (hc : child.collection c.name = .ok c)
    (hm : n.rename c.name current new = .ok m) {f : String} (hf : f ∈ c.schema.fields.keys) :
    m.publicField c.name f = if n.publicField c.name f = current then new else n.publicField c.name f := by
  have hfair := h.fair c.name
  have hown : ∀ g, g ∈ c.schema.fields.keys → child.HasField c.name g := fun g =>
    (Source.hasField_iff hc).2
  obtain ⟨rfl, rfl⟩ | ⟨-, hcurrent, -, rfl⟩ := (rename_eq_ok_iff (h.child_eq ▸ hc)).1 hm
  · split
    · next heq => exact heq
    · rfl
  · obtain ⟨own, hmem, rfl⟩ := mem_publicKeys_iff.1 hcurrent
    have heq : n.publicField c.name f = n.publicField c.name own ↔ own = f :=
      ⟨fun heq => hfair.publicName_inj (hown own hmem) (hown f hf) heq.symm, fun heq => heq ▸ rfl⟩
    unfold publicField at heq ⊢
    rw [names_insert, if_pos rfl, hfair.publicName_rename (hown own hmem)]
    exact if_congr heq.symm rfl rfl

theorem answers (h : n.FairOver child) (hc : child.collection c.name = .ok c) (current new : String) :
    n.Answers c current new := by
  have hc' : n.child.collection c.name = .ok c := h.child_eq ▸ hc
  refine ⟨?_, fun m hm => ⟨?_, fun f hf => h.publicField_rename hc hm hf, fun name hname => ?_⟩,
    fun err herr => ⟨?_, ?_⟩⟩
  · simp only [rename_eq_ok_iff hc', exists_or, exists_and_left, exists_eq, and_true]
    by_cases heq : current = new <;> simp [heq]
  · unfold FieldNaming.after
    rw [hm]
  · obtain ⟨-, rfl⟩ | ⟨-, -, -, rfl⟩ := (rename_eq_ok_iff hc').1 hm
    · rfl
    · rw [names_insert, if_neg (Ne.symm hname)]
  · unfold FieldNaming.after
    rw [herr]
  · rw [rename_eq hc'] at herr
    split at herr
    · cases herr
    · split at herr
      · next hcurrent =>
        cases herr
        exact .inl ⟨hcurrent, rfl⟩
      · split at herr
        · next hnew =>
          cases herr
          exact .inr ⟨hnew, rfl⟩
        · cases herr

end FairOver

/-- Whichever calls were made, of which some may have been refused, the public names pair off with the fields of
each collection; and so they do after the next call, which changes one name or nothing. -/
theorem pairs_run (hc : child.collection c.name = .ok c) (calls : List Rename) :
    (run child calls).Pairs c ∧ ∀ current new, (run child calls).Answers c current new :=
  ⟨(FairOver.run child calls).pairs hc, fun current new => (FairOver.run child calls).answers hc current new⟩

/-- The keys of the table between books and tags, which exchange their names. -/
theorem pairs_run_relabellings : ∃ c, (Memory.source catalogue).collection c.name = .ok c ∧
    (run (Memory.source catalogue) relabellings).publicKeys c = ["book_id", "tag_id"] ∧
    (run (Memory.source catalogue) relabellings).publicField c.name "tag_id" = "book_id" ∧
    (run (Memory.source catalogue) relabellings).Pairs c ∧
    ∀ current new, (run (Memory.source catalogue) relabellings).Answers c current new := by
  refine ⟨Memory.collection catalogue "taggings" _, rfl, ?_, ?_, pairs_run rfl relabellings⟩
  · decide +kernel
  · decide +kernel

end FieldNaming

end QueryLayer
