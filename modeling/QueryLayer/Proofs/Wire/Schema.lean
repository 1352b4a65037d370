import QueryLayer.Proofs.Schema.Fields
import QueryLayer.Proofs.Wire.Query
import QueryLayer.Wire.Schema

/-! # Schemas read back

A null where a schema may leave a value out is read as no value; everything else of a schema is read as it
was written, in both manners of reading. So a schema is what it is read as exactly when it has no such
null: `CollectionSchema.decode_encode`, `CollectionSchema.asRead_eq_self_iff`.
-/
namespace QueryLayer

namespace Dict

variable {α β : Type}

theorem ofList_map_entries (d : Dict α) (f : α → β) :
    ofList (d.entries.map fun e => (e.1, f e.2)) = d.map f := by
  have hentries := Entries.ofList_of_sorted (Entries.sorted_map d.sorted fun e => f e.2)
  unfold ofList map mapEntries
  simp only [hentries]

theorem map_eq_self_iff {d : Dict α} {f : α → α} : d.map f = d ↔ ∀ e ∈ d.entries, f e.2 = e.2 := by
  constructor
  · intro h e he
    have hget : (d.map f).get? e.1 = some (f e.2) := by
      rw [map, get?_mapEntries, get?_eq_some_iff.2 he, Option.map_some]
    rw [h, get?_eq_some_iff.2 he] at hget
    exact (Option.some.inj hget).symm
  · intro h
    refine ext fun key => ?_
    rw [map, get?_mapEntries]
    cases hget : d.get? key with
    | none => rfl
    | some v =>
      rw [Option.map_some]
      exact congrArg some (h (key, v) (get?_eq_some_iff.1 hget))

end Dict

namespace Wire

variable {α β : Type}

/-- A value that may be missing, as it is read: null counts as missing. -/
def heard (v : Option Value) : Option Value := v.filter fun v => !v.isNull

theorem heard_eq_self_iff {v : Option Value} : heard v = v ↔ v ≠ some .null := by
  obtain _ | v := v
  · exact ⟨fun _ => by simp, fun _ => rfl⟩
  · rw [heard, Option.filter_some]
    cases v <;> simp [Value.isNull]

theorem run_maybe_raw {members : List (String × Option Value)} (name : String) {v : Option Value}
    (hs : Entries.Sorted members) (hget : Entries.get? members name = some v)
    (next : Option Value → MemberReader β) :
    (maybe name raw >>= next).run (.named (present members)) =
      (next (heard v)).run (.named (present members)) := by
  refine run_optional name hs hget ?_ next
  obtain _ | _ | _ := v <;> rfl

/-- A list of parts, each read as what it may be read as. -/
theorem list_of_forall_map {d : Decoder β} {encode : α → Value} {f : α → β} {items : List α}
    (h : ∀ a ∈ items, d (encode a) = .ok (f a)) : list d (.array (items.map encode)) = .ok (items.map f) := by
  change (items.map encode).mapM d = .ok (items.map f)
  rw [Outcome.mapM_eq_ok_iff, List.forall₂_map_left_iff, List.forall₂_map_right_iff, List.forall₂_same]
  exact h

theorem decodeEntries_of_forall {d : Decoder β} {encode : α → Value} {f : α → β}
    {entries : List (String × α)} (h : ∀ e ∈ entries, d (encode e.2) = .ok (f e.2)) :
    decodeEntries d (entries.map fun e => (e.1, encode e.2)) =
      .ok (entries.map fun e => (e.1, f e.2)) := by
  induction entries with
  | nil => rfl
  | cons e rest ih =>
    obtain ⟨he, hrest⟩ := List.forall_mem_cons.1 h
    rw [List.map_cons, decodeEntries, he, ih hrest]
    rfl

theorem dict_encode {d : Decoder β} {encode : α → Value} {f : α → β} {entries : Dict α}
    (h : ∀ e ∈ entries.entries, d (encode e.2) = .ok (f e.2)) :
    dict d (entries.encode encode) = .ok (entries.map f) := by
  unfold dict Dict.encode
  simp only
  rw [decodeEntries_of_forall h]
  exact congrArg Except.ok (entries.ofList_map_entries f)

end Wire

open Wire

/-! ## Columns -/

theorem ColumnType.decodeIn_name (manner : Manner) (t : ColumnType) :
    ColumnType.decodeIn manner (.text t.name) = .ok t := by
  cases t <;> rfl

theorem Operator.decodeIn_encode (manner : Manner) (o : Operator) :
    Operator.decodeIn manner o.encode = .ok o := by
  cases o <;> rfl

namespace ValidationRule

def asRead (r : ValidationRule) : ValidationRule := { r with value := heard r.value }

def entries (r : ValidationRule) : List (String × Option Value) :=
  [("operator", some r.operator.encode), ("value", r.value)]

theorem decodeIn_encode (manner : Manner) (r : ValidationRule) :
    decodeIn manner r.encode = .ok r.asRead := by
  have hs : Entries.Sorted r.entries := Entries.sorted_of_names ["operator", "value"] rfl (by decide)
  refine fields_of_run r.entries ?_
  rw [run_required "operator" hs rfl (r.operator.decodeIn_encode manner), run_maybe_raw "value" hs rfl]
  rfl

theorem asRead_eq_self_iff {r : ValidationRule} : r.asRead = r ↔ r.value ≠ some .null := by
  rw [← heard_eq_self_iff]
  obtain ⟨operator, value⟩ := r
  simp [asRead]

end ValidationRule

namespace Column

/-- A column as it is read. -/
def asRead (c : Column) : Column :=
  { c with validation := c.validation.map ValidationRule.asRead, defaultValue := heard c.defaultValue }

/-- Nothing is null that could be left out. -/
structure NullFree (c : Column) : Prop where
  validation : ∀ r ∈ c.validation, r.value ≠ some .null
  defaultValue : c.defaultValue ≠ some .null

instance (c : Column) : Decidable c.NullFree :=
  decidable_of_iff ((∀ r ∈ c.validation, r.value ≠ some .null) ∧ c.defaultValue ≠ some .null)
    ⟨fun h => ⟨h.1, h.2⟩, fun h => ⟨h.validation, h.defaultValue⟩⟩

theorem asRead_eq_self_iff {c : Column} : c.asRead = c ↔ c.NullFree := by
  have hvalidation : c.validation.map ValidationRule.asRead = c.validation ↔
      ∀ r ∈ c.validation, r.value ≠ some .null := by
    conv_lhs => rhs; rw [← List.map_id' c.validation]
    rw [List.map_inj_left]
    exact forall₂_congr fun r _ => ValidationRule.asRead_eq_self_iff
  constructor
  · intro h
    exact ⟨hvalidation.1 (congrArg validation h), heard_eq_self_iff.1 (congrArg defaultValue h)⟩
  · intro h
    rw [asRead, hvalidation.2 h.validation, heard_eq_self_iff.2 h.defaultValue]

def entries (c : Column) (tag : Option String) : List (String × Option Value) := [
  ("columnType", some (.text c.columnType.name)),
  ("defaultValue", c.defaultValue),
  ("enumValues", c.enumValues.map texts),
  ("filterOperators", some (.array (c.filterOperators.members.map Operator.encode))),
  ("isPrimaryKey", some (.bool c.isPrimaryKey)),
  ("isReadOnly", some (.bool c.isReadOnly)),
  ("isSortable", some (.bool c.isSortable)),
  ("type", tag.map .text),
  ("validation", if c.validation.isEmpty then none
    else some (.array (c.validation.map ValidationRule.encode)))]

theorem sorted_entries (c : Column) (tag : Option String) : Entries.Sorted (c.entries tag) :=
  Entries.sorted_of_names ["columnType", "defaultValue", "enumValues", "filterOperators", "isPrimaryKey",
    "isReadOnly", "isSortable", "type", "validation"] rfl (by decide)

/-- The members of a column, beside a tag or without one. -/
theorem run_members (manner : Manner) (c : Column) (tag : Option String) :
    (members manner).run (.named (present (c.entries tag))) =
      .ok (c.asRead, .named (present (c.entries tag))) := by
  have hs := c.sorted_entries tag
  have hoperators : ((some (Value.array (c.filterOperators.members.map Operator.encode))).map
      (list (Operator.decodeIn manner))).getD (.ok []) = .ok c.filterOperators.members :=
    list_of_forall fun o _ => o.decodeIn_encode manner
  have hflag : ∀ b default : Bool, ((some (Value.bool b)).map flag).getD (.ok default) = .ok b :=
    fun _ _ => rfl
  have hvalidation : ((if c.validation.isEmpty then none
      else some (Value.array (c.validation.map ValidationRule.encode))).map
        (list (ValidationRule.decodeIn manner))).getD (.ok []) =
      .ok (c.validation.map ValidationRule.asRead) := by
    by_cases hempty : c.validation.isEmpty = true
    · rw [if_pos hempty, List.isEmpty_iff.1 hempty]
      rfl
    · rw [if_neg hempty]
      exact list_of_forall_map fun r _ => r.decodeIn_encode manner
  have henum : ∀ values ∈ c.enumValues, list text (texts values) = .ok values ∧ texts values ≠ .null :=
    fun values _ => ⟨list_of_forall fun s _ => (text_text s).1, by simp [texts]⟩
  rw [members, run_required "columnType" hs rfl (c.columnType.decodeIn_name manner),
    run_optional "filterOperators" hs rfl hoperators,
    run_optional "isPrimaryKey" hs rfl (hflag c.isPrimaryKey false),
    run_optional "isReadOnly" hs rfl (hflag c.isReadOnly false),
    run_optional "isSortable" hs rfl (hflag c.isSortable true),
    run_optional "validation" hs rfl hvalidation, run_maybe_raw "defaultValue" hs rfl,
    run_maybe "enumValues" hs rfl henum, OperatorSet.ofList_members]
  rfl

end Column

/-! ## Relations -/

namespace Relation

def entries (r : Relation) : List (String × Option Value) := [
  ("foreignCollection", some (.text r.foreignCollection)),
  ("foreignKey", r.foreignKey.map .text),
  ("foreignKeyTarget", r.foreignKeyTarget.map .text),
  ("originKey", r.originKey.map .text),
  ("originKeyTarget", r.originKeyTarget.map .text),
  ("throughCollection", r.throughCollection.map .text),
  ("type", some (.text r.kind.name))]

theorem sorted_entries (r : Relation) : Entries.Sorted r.entries :=
  Entries.sorted_of_names ["foreignCollection", "foreignKey", "foreignKeyTarget", "originKey",
    "originKeyTarget", "throughCollection", "type"] rfl (by decide)

/-- The kind is not among the members: the tag beside them tells it. -/
theorem run_members (r : Relation) :
    (members r.kind).run (.named (present r.entries)) = .ok (r, .named (present r.entries)) := by
  have hs := r.sorted_entries
  have htext : ∀ s : Option String, ∀ a ∈ s, text (.text a) = .ok a ∧ Value.text a ≠ .null :=
    fun _ a _ => text_text a
  rw [members, run_required "foreignCollection" hs rfl (text_text r.foreignCollection).1,
    run_maybe "foreignKey" hs rfl (htext r.foreignKey),
    run_maybe "foreignKeyTarget" hs rfl (htext r.foreignKeyTarget),
    run_maybe "originKey" hs rfl (htext r.originKey),
    run_maybe "originKeyTarget" hs rfl (htext r.originKeyTarget),
    run_maybe "throughCollection" hs rfl (htext r.throughCollection)]
  rfl

end Relation

/-! ## Fields -/

namespace Field

def asRead : Field → Field
  | column c => column c.asRead
  | relation r => relation r

theorem decodeTag_name (manner : Manner) (k : RelationKind) :
    decodeTag manner (.text k.name) = .ok (some k) := by
  cases k <;> rfl

/-- The tag decides what the members beside it are read as. -/
theorem decodeIn_encode (manner : Manner) (f : Field) : decodeIn manner f.encode = .ok f.asRead := by
  cases f with
  | column c =>
    have htag : decodeTag manner (.text "Column") = .ok none := rfl
    refine fields_of_run (c.entries (some "Column")) ?_
    rw [run_required "type" (c.sorted_entries (some "Column")) rfl htag]
    simp only
    rw [StateT.run_map, c.run_members .lenient (some "Column")]
    rfl
  | relation r =>
    refine fields_of_run r.entries ?_
    rw [run_required "type" r.sorted_entries rfl (decodeTag_name manner r.kind)]
    simp only
    rw [StateT.run_map, r.run_members]
    rfl

end Field

/-! ## Collections -/

theorem ActionScope.decodeIn_name (manner : Manner) (s : ActionScope) :
    ActionScope.decodeIn manner (.text s.name) = .ok s := by
  cases s <;> rfl

def ActionSchema.entries (a : ActionSchema) : List (String × Option Value) :=
  [("generateFile", some (.bool a.generateFile)), ("scope", some (.text a.scope.name)),
    ("staticForm", some (.bool a.staticForm))]

theorem ActionSchema.decodeIn_encode (manner : Manner) (a : ActionSchema) :
    ActionSchema.decodeIn manner a.encode = .ok a := by
  have hs : Entries.Sorted a.entries :=
    Entries.sorted_of_names ["generateFile", "scope", "staticForm"] rfl (by decide)
  have hflag : ∀ b : Bool, ((some (Value.bool b)).map flag).getD (.ok false) = .ok b := fun _ => rfl
  refine fields_of_run a.entries ?_
  rw [run_required "scope" hs rfl (a.scope.decodeIn_name manner),
    run_optional "generateFile" hs rfl (hflag a.generateFile),
    run_optional "staticForm" hs rfl (hflag a.staticForm)]
  rfl

namespace CollectionSchema

/-- A schema as it is read. -/
def asRead (s : CollectionSchema) : CollectionSchema := { s with fields := s.fields.map Field.asRead }

/-- No column has a null that could be left out. -/
def NullFree (s : CollectionSchema) : Prop := ∀ f c, s.column? f = some c → c.NullFree

theorem nullFree_iff {s : CollectionSchema} : s.NullFree ↔ ∀ e ∈ s.columns, e.2.NullFree :=
  ⟨fun h e he => h e.1 e.2 (mem_columns_iff.1 he), fun h f c hc => h (f, c) (mem_columns_iff.2 hc)⟩

instance (s : CollectionSchema) : Decidable s.NullFree := decidable_of_iff' _ nullFree_iff

theorem asRead_eq_self_iff {s : CollectionSchema} : s.asRead = s ↔ s.NullFree := by
  have hfields : s.asRead = s ↔ s.fields.map Field.asRead = s.fields :=
    ⟨fun h => congrArg fields h, fun h => by rw [asRead, h]⟩
  rw [hfields, Dict.map_eq_self_iff]
  constructor
  · intro h f c hc
    have hsame := h (f, .column c) (Dict.get?_eq_some_iff.1 (column?_eq_some_iff.1 hc))
    exact Column.asRead_eq_self_iff.1 (Field.column.inj hsame)
  · rintro h ⟨f, field⟩ he
    cases field with
    | column c =>
      have hc : s.column? f = some c := column?_eq_some_iff.2 (Dict.get?_eq_some_iff.2 he)
      exact congrArg Field.column (Column.asRead_eq_self_iff.2 (h f c hc))
    | relation r => rfl

def entries (s : CollectionSchema) : List (String × Option Value) :=
  [("actions", some (s.actions.encode ActionSchema.encode)),
    ("fields", some (s.fields.encode Field.encode)), ("searchable", some (.bool s.searchable)),
    ("segments", some (texts s.segments))]

theorem decode_encode (s : CollectionSchema) : decode s.encode = .ok s.asRead := by
  have hs : Entries.Sorted s.entries :=
    Entries.sorted_of_names ["actions", "fields", "searchable", "segments"] rfl (by decide)
  have hactions : ((some (s.actions.encode ActionSchema.encode)).map
      (dict (ActionSchema.decodeIn .strict))).getD (.ok ∅) = .ok s.actions := by
    have hread := dict_encode (f := id) fun e (_ : e ∈ s.actions.entries) => e.2.decodeIn_encode .strict
    rw [Dict.map_eq_self_iff.2 fun _ _ => rfl] at hread
    exact hread
  have hfields : ((some (s.fields.encode Field.encode)).map (dict (Field.decodeIn .strict))).getD (.ok ∅) =
      .ok (s.fields.map Field.asRead) :=
    dict_encode fun e _ => e.2.decodeIn_encode .strict
  have hsearchable : ((some (Value.bool s.searchable)).map flag).getD (.ok false) = .ok s.searchable := rfl
  have hsegments : ((some (texts s.segments)).map (list text)).getD (.ok []) = .ok s.segments :=
    list_of_forall fun s _ => (text_text s).1
  refine fields_of_run s.entries ?_
  rw [members, run_optional "actions" hs rfl hactions, run_optional "fields" hs rfl hfields,
    run_optional "searchable" hs rfl hsearchable, run_optional "segments" hs rfl hsegments]
  rfl

end CollectionSchema

end QueryLayer
