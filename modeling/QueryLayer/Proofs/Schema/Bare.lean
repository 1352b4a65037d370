import QueryLayer.Proofs.Outcome
import QueryLayer.Source.Memory.Store

/-! # Schemas apart from their operators

`bare` forgets which operators columns declare. Everything but the check of conditions reads bare
schemas only, so that schemas that are bare the same are used the same.
-/
namespace QueryLayer

def Column.bare (c : Column) : Column := { c with filterOperators := .empty }

namespace Field

def bare : Field → Field
  | column c => column c.bare
  | relation r => relation r

theorem column?_bare (f : Field) : f.bare.column? = f.column?.map Column.bare := by
  cases f <;> rfl

theorem relation?_bare (f : Field) : f.bare.relation? = f.relation? := by
  cases f <;> rfl

end Field

namespace CollectionSchema

variable (s : CollectionSchema)

def bare : CollectionSchema := { s with fields := s.fields.map Field.bare }

theorem get?_fields_bare (name : String) : s.bare.fields.get? name = (s.fields.get? name).map Field.bare :=
  Dict.get?_mapEntries ..

theorem column?_bare (name : String) : s.bare.column? name = (s.column? name).map Column.bare := by
  rw [column?, get?_fields_bare, column?]
  cases s.fields.get? name with
  | none => rfl
  | some f => exact f.column?_bare

theorem relation?_bare (name : String) : s.bare.relation? name = s.relation? name := by
  rw [relation?, get?_fields_bare, relation?]
  cases s.fields.get? name with
  | none => rfl
  | some f => exact f.relation?_bare

theorem columns_bare : s.bare.columns = s.columns.map fun e => (e.1, e.2.bare) := by
  unfold columns
  change (s.fields.entries.map fun e => (e.1, e.2.bare)).filterMap _ = _
  rw [List.filterMap_map, List.map_filterMap]
  refine List.filterMap_congr fun e _ => ?_
  obtain ⟨name, f⟩ := e
  cases f <;> rfl

theorem primaryKeys_bare : s.bare.primaryKeys = s.primaryKeys := by
  unfold primaryKeys
  rw [columns_bare, List.filter_map, List.map_map]
  rfl

end CollectionSchema

namespace Scope

variable (s : Scope)

def bare : Scope := ⟨s.name, s.schema.bare, fun name => (s.catalog name).map CollectionSchema.bare⟩

theorem columnAt_bare (catalog : Catalog) (name : String) (schema : CollectionSchema) (hops : List String) :
    columnAt (fun name => (catalog name).map CollectionSchema.bare) name schema.bare hops =
      (columnAt catalog name schema hops).map Column.bare := by
  induction hops generalizing name schema with
  | nil => rfl
  | cons hop rest ih =>
    cases rest with
    | nil =>
      rw [columnAt, columnAt, CollectionSchema.get?_fields_bare]
      cases schema.fields.get? hop with
      | none => rfl
      | some f => cases f <;> rfl
    | cons second others =>
      rw [columnAt, columnAt, CollectionSchema.get?_fields_bare]
      · cases schema.fields.get? hop with
        | none => rfl
        | some f =>
          cases f with
          | column c => rfl
          | relation r =>
            by_cases hone : r.kind.isToOne
            · cases hcatalog : catalog r.foreignCollection with
              | none => simp [Field.bare, hone, hcatalog, Except.map]
              | some foreign =>
                have hforeign := ih r.foreignCollection foreign
                simpa [Field.bare, hone, hcatalog] using hforeign
            · simp [Field.bare, hone, Except.map]
      · simp
      · simp

theorem column_bare (path : String) : s.bare.column path = (s.column path).map Column.bare :=
  columnAt_bare s.catalog s.name s.schema (Path.hops path)

theorem checkFields_bare (fields : List String) : s.bare.checkFields fields = s.checkFields fields := by
  unfold checkFields
  refine congrArg fields.forM (funext fun f => ?_)
  rw [column_bare]
  cases s.column f <;> rfl

theorem checkAggregation_bare (a : Aggregation) : s.bare.checkAggregation a = s.checkAggregation a := by
  unfold checkAggregation
  rw [checkFields_bare]
  cases a.field with
  | none => rfl
  | some field =>
    dsimp only
    rw [column_bare]
    cases s.column field <;> rfl

theorem checkRecord_bare (record : Record) : s.bare.checkRecord record = s.checkRecord record := by
  unfold checkRecord
  refine congrArg record.forM (funext fun e => ?_)
  have hcolumn : s.bare.schema.column? e.1 = (s.schema.column? e.1).map Column.bare :=
    s.schema.column?_bare e.1
  rw [hcolumn]
  cases s.schema.column? e.1 <;> rfl

end Scope

def Database.bare (db : Database) : Database := { db with schemas := db.schemas.map CollectionSchema.bare }

theorem Database.get?_schemas_bare (db : Database) (name : String) :
    db.bare.schemas.get? name = (db.schemas.get? name).map CollectionSchema.bare :=
  Dict.get?_mapEntries ..

theorem Database.scope_bare (db : Database) (name : String) (schema : CollectionSchema) :
    (db.scope name schema).bare = db.bare.scope name schema.bare := by
  have hcatalog : (fun name => (db.catalog name).map CollectionSchema.bare) = db.bare.catalog := by
    funext name
    exact (db.get?_schemas_bare name).symm
  unfold Scope.bare Database.scope
  rw [hcatalog]

namespace Record

variable (record : Record) (s : CollectionSchema)

theorem id_bare : record.id s.bare = record.id s := by
  rw [Record.id, CollectionSchema.primaryKeys_bare, Record.id]

theorem found_bare (needle : String) : record.found s.bare needle = record.found s needle := by
  unfold Record.found
  rw [CollectionSchema.columns_bare, List.any_map]
  rfl

end Record

theorem Memory.isTarget_bare (s : CollectionSchema) (ids : List CompositeId) (record : Record) :
    isTarget s.bare ids record = isTarget s ids record := by
  rw [isTarget, Record.id_bare, isTarget]

end QueryLayer
