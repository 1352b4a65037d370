import QueryLayer.Proofs.Emulation.Native
import QueryLayer.Proofs.Naming.FieldNames
import QueryLayer.Proofs.Naming.Paths
import QueryLayer.Stack

/-! # The order of customizations

Renames and emulations of a stack are interleaved at will, and each names fields as they are known at that time.
The two layers keep their tables under different names for one field: a name that is public leads back, through
the renames so far, to the name under which the lower layer has it. So the stack is the one that is made by all
emulations first, under the names in the source, and by the renames then: `customizeAll_separated`.
-/
namespace QueryLayer

open FieldNaming (Rename)

namespace Emulation

variable {σ : Type} {db : Database} {e : Emulation Store} {decorated : Unit → Source Store} {name : String}

theorem collection?_sourceWith (hchild : e.child = Memory.source db) (name : String) :
    (e.sourceWith decorated).collection? name =
      (db.schemas.get? name).map fun schema => e.collection decorated (Memory.collection db name schema) := by
  unfold Source.collection? sourceWith
  rw [hchild, Memory.values_members_source]
  exact (congrArg _ (List.map_map ..)).trans (Source.find?_named (fun _ => rfl) db.schemas.entries name)

theorem keys_schema (e : Emulation σ) (c : Collection σ) :
    (e.schema c).fields.keys = c.schema.fields.keys :=
  Dict.keys_mapEntries ..

theorem collection_sourceWith_iff (hchild : e.child = Memory.source db) {c : Collection Store} :
    (e.sourceWith decorated).collection name = .ok c ↔ ∃ schema, db.schemas.get? name = some schema ∧
      e.collection decorated (Memory.collection db name schema) = c := by
  rw [Source.collection_eq_ok_iff_collection?, collection?_sourceWith hchild, Option.map_eq_some_iff]

/-- Emulated operators neither add nor take away a field. -/
theorem hasField_sourceWith_iff (hchild : e.child = Memory.source db) {field : String} :
    (e.sourceWith decorated).HasField name field ↔ db.HasField name field := by
  have hkeys : ∀ schema,
      field ∈ (e.collection decorated (Memory.collection db name schema)).schema.fields.keys ↔
        (schema.fields.get? field).isSome := fun schema => by
    rw [← Dict.mem_keys_iff]
    exact iff_of_eq (congrArg (field ∈ ·) (e.keys_schema (Memory.collection db name schema)))
  unfold Source.HasField Database.HasField
  simp only [collection_sourceWith_iff hchild]
  constructor
  · rintro ⟨_, ⟨schema, hs, rfl⟩, hfield⟩
    exact ⟨schema, hs, (hkeys schema).1 hfield⟩
  · rintro ⟨schema, hs, hfield⟩
    exact ⟨_, ⟨schema, hs, rfl⟩, (hkeys schema).2 hfield⟩

end Emulation

namespace Stack

variable {σ : Type}

/-- What a field is made to answer by emulation. -/
inductive Emulated (σ : Type) where
  | operator (operator : Operator) (rule : EmulationRule σ)
  /-- Every operator that suits the column and that it lacks. -/
  | filtering

/-- A step in making a stack. Fields are given by the names under which they are public before it. -/
inductive Customization (σ : Type) where
  | rename (r : Rename)
  | emulate (collection field : String) (what : Emulated σ)

def emulate (s : Stack σ) (collection field : String) : Emulated σ → Except Error (Stack σ)
  | .operator o rule => s.register collection field o rule
  | .filtering => s.emulateFiltering collection field

def customize (s : Stack σ) : Customization σ → Except Error (Stack σ)
  | .rename r => s.rename r.collection r.current r.new
  | .emulate collection field what => s.emulate collection field what

/-- Customizes a stack step by step; all steps have to succeed. -/
def customizeAll (s : Stack σ) (steps : List (Customization σ)) : Except Error (Stack σ) :=
  steps.foldlM customize s

/-- What a name stood for before renames of its collection, which are undone from the last one on. -/
def nameBefore (renames : List Rename) (collection name : String) : String :=
  renames.foldr (fun r name => if r.collection = collection ∧ r.new = name then r.current else name) name

namespace Customization

/-- The renames among customizations. -/
def renames : List (Customization σ) → List Rename
  | [] => []
  | .rename r :: rest => r :: renames rest
  | .emulate _ _ _ :: rest => renames rest

/-- The emulations among customizations, of fields by their names before all renames: those that were made
`earlier`, and those between. -/
def emulations (earlier : List Rename) : List (Customization σ) → List (Customization σ)
  | [] => []
  | .rename r :: rest => emulations (earlier ++ [r]) rest
  | .emulate collection field what :: rest =>
    .emulate collection (nameBefore earlier collection field) what :: emulations earlier rest

end Customization

/-- The public names of a collection. -/
def names (s : Stack σ) (collection : String) : Names := (s.tables.get? collection).getD .empty

/-- Whether a field is known by a name. -/
def Shows (db : Database) (s : Stack σ) (collection g : String) : Prop :=
  ∃ f, db.HasField collection f ∧ (s.names collection).publicName f = g

/-- A stack over a memory source after `earlier` renames and any emulations: what a public name stood for before the
renames is the field that the lower layer finds by it. -/
structure Reached (db : Database) (earlier : List Rename) (s : Stack Store) : Prop where
  child_eq : s.child = Memory.source db
  fair : ∀ name, (s.names name).Fair (db.HasField name)
  back : ∀ name f, db.HasField name f → nameBefore earlier name ((s.names name).publicName f) = f

/-- The registrations that come about when operators are emulated for a field of the lower layer. -/
def Emulated.Gives (e : Emulation σ) (collection lower : String) (rs : Registrations (EmulationRule σ)) :
    Emulated σ → Prop
  | .operator o rule => e.register collection lower o rule = .ok { e with registrations := rs }
  | .filtering => ∃ c column, e.child.collection collection = .ok c ∧ (e.schema c).column? lower = some column ∧
    (column.columnType.operators.filter fun o => !column.filterOperators.contains o).foldlM
      (fun e o => e.register collection lower o .bruteForce) e = .ok { e with registrations := rs }

section

variable {db : Database} {s t : Stack Store} {earlier : List Rename} {steps : List (Customization Store)}
  {collection name field lower current new f g : String} {what : Emulated Store}

/-! ## What was called by a name -/

theorem nameBefore_append (r : Rename) (name : String) :
    nameBefore (earlier ++ [r]) collection name =
      nameBefore earlier collection (if r.collection = collection ∧ r.new = name then r.current else name) := by
  unfold nameBefore
  rw [List.foldr_append]
  rfl

/-! ## One customization -/

theorem eq_of_register {e e' : Emulation σ} {o : Operator} {rule : EmulationRule σ}
    (h : e.register collection lower o rule = .ok e') : e' = { e with registrations := e'.registrations } := by
  obtain ⟨c, -, h⟩ := Outcome.bind_eq_ok_iff.1 h
  obtain ⟨-, h⟩ := Outcome.seq_eq_ok_iff.1 h
  cases h
  rfl

theorem eq_of_registerAll {e e' : Emulation σ} {os : List Operator} {rule : EmulationRule σ}
    (h : os.foldlM (fun e o => e.register collection lower o rule) e = .ok e') :
    e' = { e with registrations := e'.registrations } :=
  Outcome.foldlM_keeps (P := fun u => u = { e with registrations := u.registrations })
    (fun _ _ _ _ hu hregister => (eq_of_register hregister).trans (by rw [hu])) rfl h

/-- An emulation depends on the renames by the lower name of its field only. -/
theorem emulate_eq_ok_iff : s.emulate collection field what = .ok t ↔ ∃ lower rs,
    s.lowerField collection field = .ok lower ∧ what.Gives s.emulation collection lower rs ∧
      t = { s with registrations := rs } := by
  cases what with
  | operator o rule =>
    constructor
    · intro h
      obtain ⟨lower, hlower, h⟩ := Outcome.bind_eq_ok_iff.1 h
      obtain ⟨e, he, h⟩ := Outcome.bind_eq_ok_iff.1 h
      cases h
      exact ⟨lower, e.registrations, hlower, he.trans (congrArg _ (eq_of_register he)), rfl⟩
    · rintro ⟨lower, rs, hlower, hgives, rfl⟩
      exact Outcome.bind_eq_ok_iff.2 ⟨lower, hlower, Outcome.bind_eq_ok_iff.2 ⟨_, hgives, rfl⟩⟩
  | filtering =>
    constructor
    · intro h
      obtain ⟨c, hc, h⟩ := Outcome.bind_eq_ok_iff.1 h
      obtain ⟨lower, hlower, h⟩ := Outcome.bind_eq_ok_iff.1 h
      split at h
      · next column hcolumn =>
        obtain ⟨e, he, h⟩ := Outcome.bind_eq_ok_iff.1 h
        cases h
        have hgives := he.trans (congrArg _ (eq_of_registerAll he))
        exact ⟨lower, e.registrations, hlower, ⟨c, column, hc, hcolumn, hgives⟩, rfl⟩
      · cases h
    · rintro ⟨lower, rs, hlower, ⟨c, column, hc, hcolumn, hfold⟩, rfl⟩
      refine Outcome.bind_eq_ok_iff.2 ⟨c, hc, Outcome.bind_eq_ok_iff.2 ⟨lower, hlower, ?_⟩⟩
      rw [hcolumn]
      exact Outcome.bind_eq_ok_iff.2 ⟨_, hfold, rfl⟩

/-- Operators are emulated for columns of the source only. -/
theorem Emulated.Gives.hasField {e : Emulation Store} {rs : Registrations (EmulationRule Store)}
    (h : what.Gives e collection lower rs) (hchild : e.child = Memory.source db) :
    db.HasField collection lower := by
  have hcolumn : ∀ {c : Collection Store}, e.child.collection collection = .ok c →
      (c.schema.column? lower).isSome → db.HasField collection lower := by
    intro c hc hcolumn
    rw [hchild] at hc
    obtain ⟨schema, hs, rfl⟩ := Memory.collection_source_eq_ok_iff.1 hc
    obtain ⟨column, hcolumn⟩ := Option.isSome_iff_exists.1 hcolumn
    exact .of_column hs hcolumn
  cases what with
  | operator o rule =>
    obtain ⟨c, hc, h⟩ := Outcome.bind_eq_ok_iff.1 h
    exact hcolumn hc (Emulation.checkRegistration_eq_ok (Outcome.seq_eq_ok_iff.1 h).1).1
  | filtering =>
    obtain ⟨c, column, hc, hshown, -⟩ := h
    rw [Emulation.column?_schema] at hshown
    obtain ⟨own, hown, -⟩ := Option.map_eq_some_iff.1 hshown
    exact hcolumn hc (Option.isSome_iff_exists.2 ⟨own, hown⟩)

theorem child_naming (s : Stack σ) :
    s.naming.child = s.emulation.sourceWith fun _ => s.emulation.nested Emulation.maxDepth :=
  rfl

theorem exists_child_collection_iff (hchild : s.child = Memory.source db) :
    (∃ c, s.naming.child.collection collection = .ok c) ↔
      ∃ schema, db.schemas.get? collection = some schema := by
  simp only [child_naming, Emulation.collection_sourceWith_iff (e := s.emulation) hchild]
  exact ⟨fun ⟨_, schema, hs, _⟩ => ⟨schema, hs⟩, fun ⟨schema, hs⟩ => ⟨_, schema, hs, rfl⟩⟩

theorem mem_publicKeys_iff_shows (hchild : s.child = Memory.source db) {c : Collection Store}
    (hc : s.naming.child.collection collection = .ok c) :
    g ∈ s.naming.publicKeys c ↔ Shows db s collection g := by
  obtain rfl := Source.name_of_collection hc
  rw [FieldNaming.mem_publicKeys_iff]
  refine exists_congr fun f => and_congr_left' ?_
  rw [← Source.hasField_iff hc]
  exact Emulation.hasField_sourceWith_iff (e := s.emulation) hchild

/-- A rename depends on the public names only. -/
theorem rename_eq_ok_iff (hchild : s.child = Memory.source db) : s.rename collection current new = .ok t ↔
    (∃ schema, db.schemas.get? collection = some schema) ∧ (current = new ∧ t = s ∨
      current ≠ new ∧ Shows db s collection current ∧ ¬Shows db s collection new ∧
        t = { s with tables := s.tables.insert collection ((s.names collection).rename current new) }) := by
  rw [← exists_child_collection_iff hchild]
  constructor
  · intro h
    obtain ⟨m, hm, ht⟩ := Outcome.bind_eq_ok_iff.1 h
    obtain ⟨c, hc, -⟩ := Outcome.bind_eq_ok_iff.1 hm
    obtain rfl := Source.name_of_collection hc
    rw [FieldNaming.rename_eq_ok_iff hc, mem_publicKeys_iff_shows hchild hc,
      mem_publicKeys_iff_shows hchild hc] at hm
    obtain rfl := Except.ok.inj ht
    refine ⟨⟨c, hc⟩, ?_⟩
    obtain ⟨heq, rfl⟩ | ⟨hne, hcurrent, hnew, rfl⟩ := hm
    · exact .inl ⟨heq, rfl⟩
    · exact .inr ⟨hne, hcurrent, hnew, rfl⟩
  · rintro ⟨⟨c, hc⟩, h⟩
    obtain rfl := Source.name_of_collection hc
    rw [← mem_publicKeys_iff_shows hchild hc, ← mem_publicKeys_iff_shows hchild hc] at h
    refine Outcome.bind_eq_ok_iff.2 ?_
    simp only [FieldNaming.rename_eq_ok_iff hc]
    obtain ⟨rfl, rfl⟩ | ⟨hne, hcurrent, hnew, rfl⟩ := h
    · exact ⟨_, .inl ⟨rfl, rfl⟩, rfl⟩
    · exact ⟨_, .inr ⟨hne, hcurrent, hnew, rfl⟩, rfl⟩

/-! ## What customizations lead to -/

theorem reached_ofSource (db : Database) : Reached db [] (ofSource (Memory.source db)) where
  child_eq := rfl
  fair name := .empty (db.HasField name)
  back _ _ _ := rfl

theorem names_insert (s : Stack σ) (collection : String) (t : Names) (name : String) :
    ({ s with tables := s.tables.insert collection t } : Stack σ).names name =
      if collection = name then t else s.names name := by
  unfold names
  rw [Dict.get?_insert]
  split <;> rfl

theorem Reached.rename (h : Reached db earlier s) (hok : s.rename collection current new = .ok t) :
    Reached db (earlier ++ [⟨collection, current, new⟩]) t := by
  obtain ⟨-, ⟨rfl, rfl⟩ | ⟨-, ⟨own, hown, rfl⟩, hnew, rfl⟩⟩ := (rename_eq_ok_iff h.child_eq).1 hok
  · refine ⟨h.child_eq, h.fair, fun name f hf => ?_⟩
    rw [nameBefore_append]
    split
    · next hname => exact (congrArg (nameBefore earlier name) hname.2).trans (h.back name f hf)
    · exact h.back name f hf
  · have hfree : ∀ f, db.HasField collection f → (s.names collection).publicName f ≠ new :=
      fun f hf heq => hnew ⟨f, hf, heq⟩
    refine ⟨h.child_eq, fun name => ?_, fun name f hf => ?_⟩
    · rw [names_insert]
      split
      · next hname =>
        subst hname
        exact (h.fair collection).rename hown hfree
      · exact h.fair name
    · rw [names_insert, nameBefore_append]
      by_cases hname : collection = name
      · subst hname
        rw [if_pos rfl, (h.fair collection).publicName_rename hown]
        by_cases hf' : own = f
        · subst hf'
          rw [if_pos rfl, if_pos ⟨rfl, rfl⟩]
          exact h.back collection own hown
        · rw [if_neg hf', if_neg fun heq => hfree f hf heq.2.symm]
          exact h.back collection f hf
      · rw [if_neg hname, if_neg fun heq => hname heq.1]
        exact h.back name f hf

/-! ## Emulations first -/

/-- The stack without its renames. -/
def unrenamed (s : Stack σ) : Stack σ := { s with tables := ∅ }

theorem lowerField_eq_ok_iff (hchild : s.child = Memory.source db) (hfield : db.HasField collection lower)
    (hlower : Path.Plain lower) : s.lowerField collection g = .ok lower ↔
      Path.Plain g ∧ (s.names collection).ownName? g = some lower := by
  obtain ⟨c, hc⟩ := (exists_child_collection_iff hchild).2 ⟨_, hfield.choose_spec.1⟩
  obtain rfl := Source.name_of_collection hc
  have hlowerField : s.lowerField c.name g = s.naming.ownPath c g := by
    unfold lowerField
    rw [hc]
    rfl
  have hown : s.naming.ownField c.name g = .ok lower ↔ (s.names c.name).ownName? g = some lower := by
    have hnames : s.naming.names c.name = s.names c.name := rfl
    unfold FieldNaming.ownField
    rw [hnames]
    cases (s.names c.name).ownName? g <;> simp
  rw [hlowerField, ← hown]
  constructor
  · exact fun h => FieldNaming.plain_of_ownPath h hlower
  · rintro ⟨hg, h⟩
    exact (s.naming.ownPath_of_plain c hg).trans h

/-- The name that an emulation is given stands for the field that it is made for. -/
theorem Reached.nameBefore_eq (h : Reached db earlier s) (hfield : db.HasField collection lower)
    (hlower : Path.Plain lower) (hok : s.lowerField collection g = .ok lower) :
    nameBefore earlier collection g = lower := by
  obtain ⟨-, hown⟩ := (lowerField_eq_ok_iff h.child_eq hfield hlower).1 hok
  rw [← (h.fair collection).publicName_of_ownName? hown]
  exact h.back collection lower hfield

theorem Reached.emulate_unrenamed (h : Reached db earlier s) (hdb : db.Plain)
    (hok : s.emulate collection field what = .ok t) :
    s.unrenamed.emulate collection (nameBefore earlier collection field) what = .ok t.unrenamed := by
  obtain ⟨lower, rs, hlower, hgives, rfl⟩ := emulate_eq_ok_iff.1 hok
  have hfield := hgives.hasField h.child_eq
  have hplain := hdb collection lower hfield
  rw [h.nameBefore_eq hfield hplain hlower]
  refine emulate_eq_ok_iff.2 ⟨lower, rs, ?_, hgives, rfl⟩
  exact (lowerField_eq_ok_iff (s := s.unrenamed) h.child_eq hfield hplain).2 ⟨hplain, rfl⟩

theorem Reached.emulate (h : Reached db earlier s) (hok : s.emulate collection field what = .ok t) :
    Reached db earlier t := by
  obtain ⟨-, rs, -, -, rfl⟩ := emulate_eq_ok_iff.1 hok
  exact ⟨h.child_eq, h.fair, h.back⟩

/-- The public names lead back to the source whatever succeeded before. -/
theorem Reached.customizeAll (h : Reached db earlier s) (hok : s.customizeAll steps = .ok t) :
    Reached db (earlier ++ Customization.renames steps) t := by
  induction steps generalizing earlier s with
  | nil =>
    cases hok
    rwa [Customization.renames, List.append_nil]
  | cons step rest ih =>
    obtain ⟨u, hu, hrest⟩ := Outcome.bind_eq_ok_iff.1 hok
    cases step with
    | rename r =>
      rw [Customization.renames, ← List.singleton_append, ← List.append_assoc]
      exact ih (h.rename hu) hrest
    | emulate collection field what => exact ih (h.emulate hu) hrest

/-- The emulations give the lower layer that they give between the renames. -/
theorem Reached.customizeAll_emulations (h : Reached db earlier s) (hdb : db.Plain)
    (hok : s.customizeAll steps = .ok t) :
    s.unrenamed.customizeAll (Customization.emulations earlier steps) = .ok t.unrenamed := by
  induction steps generalizing earlier s with
  | nil =>
    cases hok
    rfl
  | cons step rest ih =>
    obtain ⟨u, hu, hrest⟩ := Outcome.bind_eq_ok_iff.1 hok
    cases step with
    | rename r =>
      have hsame : u.unrenamed = s.unrenamed := by
        obtain ⟨-, ⟨-, rfl⟩ | ⟨-, -, -, rfl⟩⟩ := (rename_eq_ok_iff h.child_eq).1 hu <;> rfl
      rw [← hsame]
      exact ih (h.rename hu) hrest
    | emulate collection field what =>
      exact Outcome.bind_eq_ok_iff.2 ⟨u.unrenamed, h.emulate_unrenamed hdb hu, ih (h.emulate hu) hrest⟩

/-- The renames give the public names that they give between the emulations, over any registrations. -/
theorem Reached.customizeAll_renames (h : Reached db earlier s) (rs : Registrations (EmulationRule Store))
    (hok : s.customizeAll steps = .ok t) :
    ({ s with registrations := rs } : Stack Store).customizeAll ((Customization.renames steps).map .rename) =
      .ok { t with registrations := rs } := by
  induction steps generalizing earlier s with
  | nil =>
    cases hok
    rfl
  | cons step rest ih =>
    obtain ⟨u, hu, hrest⟩ := Outcome.bind_eq_ok_iff.1 hok
    cases step with
    | rename r =>
      have hrename : ({ s with registrations := rs } : Stack Store).rename r.collection r.current r.new =
          .ok { u with registrations := rs } := by
        refine (rename_eq_ok_iff (s := { s with registrations := rs }) h.child_eq).2 ?_
        obtain ⟨hs, ⟨heq, rfl⟩ | ⟨hne, hcurrent, hnew, rfl⟩⟩ := (rename_eq_ok_iff h.child_eq).1 hu
        · exact ⟨hs, .inl ⟨heq, rfl⟩⟩
        · exact ⟨hs, .inr ⟨hne, hcurrent, hnew, rfl⟩⟩
      exact Outcome.bind_eq_ok_iff.2 ⟨_, hrename, ih (h.rename hu) hrest⟩
    | emulate collection field what =>
      have hsame : ({ s with registrations := rs } : Stack Store) = { u with registrations := rs } := by
        obtain ⟨-, -, -, -, rfl⟩ := emulate_eq_ok_iff.1 hu
        rfl
      rw [hsame]
      exact ih (h.emulate hu) hrest

/-- Customizations of a memory source that all succeed make the very stack, with its schemas and answers, that comes
of all emulations made first, by the names of the fields in the source, and then the renames. -/
theorem customizeAll_separated (hdb : db.Plain) (hok : (ofSource (Memory.source db)).customizeAll steps = .ok t) :
    (ofSource (Memory.source db)).customizeAll
      (Customization.emulations [] steps ++ (Customization.renames steps).map .rename) = .ok t := by
  have hstart := reached_ofSource db
  have hemulations : (ofSource (Memory.source db)).customizeAll (Customization.emulations [] steps) =
      .ok t.unrenamed := hstart.customizeAll_emulations hdb hok
  have hrenames := hstart.customizeAll_renames t.registrations hok
  have hbetween : t.unrenamed = { ofSource (Memory.source db) with registrations := t.registrations } := by
    unfold unrenamed
    rw [(hstart.customizeAll hok).child_eq]
    rfl
  rw [← hbetween] at hrenames
  exact (List.foldlM_append ..).trans (Outcome.bind_eq_ok_iff.2 ⟨t.unrenamed, hemulations, hrenames⟩)

end

/-! ## Columns that exchange their names -/

namespace Exchange

def persons : CollectionSchema :=
  let id := (Column.ofType .number).withOperators [.equal, .oneOf]
  ((CollectionSchema.empty.withField "id" (.column id.primaryKey)).withField "name"
    (.column (.ofType .string))).withField "age" (.column (.ofType .number))

def database : Database := ⟨Dict.empty.insert "persons" persons, ∅⟩

/-- Emulations give `age` by two names, and `name` by the one that `age` has given up. -/
def steps : List (Customization Store) :=
  [.rename ⟨"persons", "age", "years"⟩, .emulate "persons" "years" (.operator .greaterThan .bruteForce),
    .rename ⟨"persons", "name", "age"⟩, .emulate "persons" "age" .filtering,
    .rename ⟨"persons", "years", "name"⟩, .emulate "persons" "name" (.operator .lessThan .bruteForce)]

def first : List (Customization Store) :=
  [.emulate "persons" "age" (.operator .greaterThan .bruteForce), .emulate "persons" "name" .filtering,
    .emulate "persons" "age" (.operator .lessThan .bruteForce)]

end Exchange

theorem customizeAll_separated_exchange : Exchange.database.Plain ∧
    ∃ t, (ofSource (Memory.source Exchange.database)).customizeAll Exchange.steps = .ok t ∧
      (t.names "persons").publicName "age" = "name" ∧
      (ofSource (Memory.source Exchange.database)).customizeAll
        (Exchange.first ++ [.rename ⟨"persons", "age", "years"⟩, .rename ⟨"persons", "name", "age"⟩,
          .rename ⟨"persons", "years", "name"⟩]) = .ok t := by
  have hplain : Exchange.database.Plain := by decide +kernel
  have hsome : ((ofSource (Memory.source Exchange.database)).customizeAll Exchange.steps).toOption.any
      (fun t => (t.names "persons").publicName "age" = "name") = true := by decide +kernel
  obtain ⟨t, ht, hname⟩ := (Option.any_eq_true ..).1 hsome
  have hok := Outcome.eq_ok_of_toOption ht
  exact ⟨hplain, t, hok, of_decide_eq_true hname, customizeAll_separated hplain hok⟩

end Stack

end QueryLayer
