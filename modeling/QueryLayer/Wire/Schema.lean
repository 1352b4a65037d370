import QueryLayer.Wire.Query

/-! # Wire forms of schemas

A field carries its kind in the member `type`; the other members are those of a column or of a
relation. Where a schema is one of several parts of the same object it is read leniently, and so is
always what stands beside a tag.
-/
namespace QueryLayer

open Wire

def ColumnType.decodeIn (manner : Manner) : Decoder ColumnType :=
  choice manner (ColumnType.all.map fun t => (t.name, t))

def ColumnType.decode : Decoder ColumnType := decodeIn .strict

def ValidationRule.encode (r : ValidationRule) : Value :=
  Wire.object [("operator", some r.operator.encode), ("value", r.value)]

def ValidationRule.decodeIn (manner : Manner) : Decoder ValidationRule := Wire.fields do
  let operator ← required "operator" (Operator.decodeIn manner)
  let value ← maybe "value" raw
  pure ⟨operator, value⟩

namespace Column

/-- The members of a column, with a tag if one is given. -/
def encodeTagged (c : Column) (tag : Option String) : Value := Wire.object [
  ("columnType", some (.text c.columnType.name)),
  ("defaultValue", c.defaultValue),
  ("enumValues", c.enumValues.map texts),
  ("filterOperators", some (.array (c.filterOperators.members.map Operator.encode))),
  ("isPrimaryKey", some (.bool c.isPrimaryKey)),
  ("isReadOnly", some (.bool c.isReadOnly)),
  ("isSortable", some (.bool c.isSortable)),
  ("type", tag.map .text),
  ("validation", if c.validation.isEmpty then none
    else some (.array (c.validation.map ValidationRule.encode)))]

def encode (c : Column) : Value := c.encodeTagged none

def members (manner : Manner) : MemberReader Column := do
  let columnType ← required "columnType" (ColumnType.decodeIn manner)
  let operators ← optional "filterOperators" (list (Operator.decodeIn manner)) []
  let isPrimaryKey ← optional "isPrimaryKey" flag false
  let isReadOnly ← optional "isReadOnly" flag false
  let isSortable ← optional "isSortable" flag true
  let validation ← optional "validation" (list (ValidationRule.decodeIn manner)) []
  let defaultValue ← maybe "defaultValue" raw
  let enumValues ← maybe "enumValues" (list text)
  pure ⟨columnType, .ofList operators, isPrimaryKey, isReadOnly, isSortable, validation,
    defaultValue, enumValues⟩

def decode : Decoder Column := Wire.fields (members .strict)

end Column

namespace Relation

def encode (r : Relation) : Value := Wire.object [
  ("foreignCollection", some (.text r.foreignCollection)),
  ("foreignKey", r.foreignKey.map .text),
  ("foreignKeyTarget", r.foreignKeyTarget.map .text),
  ("originKey", r.originKey.map .text),
  ("originKeyTarget", r.originKeyTarget.map .text),
  ("throughCollection", r.throughCollection.map .text),
  ("type", some (.text r.kind.name))]

def members (kind : RelationKind) : MemberReader Relation := do
  let foreignCollection ← required "foreignCollection" text
  let foreignKey ← maybe "foreignKey" text
  let foreignKeyTarget ← maybe "foreignKeyTarget" text
  let originKey ← maybe "originKey" text
  let originKeyTarget ← maybe "originKeyTarget" text
  let throughCollection ← maybe "throughCollection" text
  pure ⟨kind, foreignCollection, foreignKey, foreignKeyTarget, originKey, originKeyTarget,
    throughCollection⟩

end Relation

namespace Field

def encode : Field → Value
  | column c => c.encodeTagged (some "Column")
  | relation r => r.encode

/-- What the tag of a field can be: no kind stands for a column. -/
def kinds : List (String × Option RelationKind) :=
  ("Column", none) ::
    [RelationKind.manyToOne, .oneToOne, .oneToMany, .manyToMany].map fun k => (k.name, some k)

/-- A tag is a name; leniently it may also be the place of the kind in `kinds`. -/
def decodeTag (manner : Manner) : Decoder (Option RelationKind)
  | .text s => choice manner kinds (.text s)
  | .number n =>
    match manner, n.toUInt64?.bind (kinds[·]?) with
    | .lenient, some kind => .ok kind.2
    | _, _ => unexpected (.number n) "a tag"
  | v => unexpected v "a tag"

def decodeIn (manner : Manner) : Decoder Field := Wire.fields do
  let kind ← required "type" (decodeTag manner)
  match kind with
  | none => Field.column <$> Column.members .lenient
  | some k => Field.relation <$> Relation.members k

end Field

def ActionScope.decodeIn (manner : Manner) : Decoder ActionScope :=
  choice manner ([ActionScope.single, .bulk, .global].map fun s => (s.name, s))

def ActionSchema.encode (a : ActionSchema) : Value :=
  .object [("generateFile", .bool a.generateFile), ("scope", .text a.scope.name),
    ("staticForm", .bool a.staticForm)]

def ActionSchema.decodeIn (manner : Manner) : Decoder ActionSchema := Wire.fields do
  let scope ← required "scope" (ActionScope.decodeIn manner)
  let generateFile ← optional "generateFile" flag false
  let staticForm ← optional "staticForm" flag false
  pure ⟨scope, generateFile, staticForm⟩

def ActionSchema.decode : Decoder ActionSchema := decodeIn .strict

/-- A dictionary as an object. -/
def Dict.encode {α : Type} (f : α → Value) (d : Dict α) : Value :=
  .object (d.entries.map fun e => (e.1, f e.2))

namespace CollectionSchema

def encode (s : CollectionSchema) : Value :=
  .object [("actions", s.actions.encode ActionSchema.encode), ("fields", s.fields.encode Field.encode),
    ("searchable", .bool s.searchable), ("segments", texts s.segments)]

def members (manner : Manner) : MemberReader CollectionSchema := do
  let actions ← optional "actions" (dict (ActionSchema.decodeIn manner)) ∅
  let fields ← optional "fields" (dict (Field.decodeIn manner)) ∅
  let searchable ← optional "searchable" flag false
  let segments ← optional "segments" (list text) []
  pure ⟨actions, fields, searchable, segments⟩

def decode : Decoder CollectionSchema := Wire.fields (members .strict)

end CollectionSchema

end QueryLayer
