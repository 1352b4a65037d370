import Mathlib.Data.List.Nodup
import QueryLayer.Proofs.Memory.Keyed
import QueryLayer.Proofs.Naming.Reads

/-! # Ids by public and by own names

A view has the primary keys of its collection by other names, and so perhaps in another order. Ids by
public names are the same as each other when those by own names are, which is all that writes ask of them.
-/
namespace QueryLayer

theorem sameId_key (a b : Record) (schema : CollectionSchema) :
    sameId (a.key schema) (b.key schema) =
      schema.primaryKeys.all fun pk => ((a.get? pk).getD .null).same ((b.get? pk).getD .null) := by
  unfold sameId Record.key
  generalize schema.primaryKeys = keys
  induction keys with
  | nil => rfl
  | cons pk keys ih => rw [List.map_cons, List.map_cons, Value.sameItems, ih, List.all_cons]

namespace FieldNaming

variable {n : FieldNaming Store} {db : Database} {store : Store} {name : String} {schema : CollectionSchema}
  {own shown : Record}

/-! ## Primary keys -/

theorem hasField_of_mem_primaryKeys (hs : db.schemas.get? name = some schema) {pk : String}
    (hpk : pk ∈ schema.primaryKeys) : db.HasField name pk := by
  obtain ⟨c, hc, _⟩ := CollectionSchema.mem_primaryKeys_iff.1 hpk
  exact .of_column hs hc

theorem perm_primaryKeys (hn : n.Faithful db) (hs : db.schemas.get? name = some schema) :
    (n.view db name schema).primaryKeys.Perm (schema.primaryKeys.map (n.publicField name)) := by
  have hnodup : (schema.primaryKeys.map (n.publicField name)).Nodup :=
    List.Nodup.map_on (fun a ha b hb heq => hn.publicField_inj (hasField_of_mem_primaryKeys hs ha)
      (hasField_of_mem_primaryKeys hs hb) heq) schema.nodup_primaryKeys
  rw [List.perm_ext_iff_of_nodup (CollectionSchema.nodup_primaryKeys _) hnodup]
  intro pk
  rw [hn.mem_primaryKeys_view hs, List.mem_map]

theorem Relabels.primaryKey_eq (h : Relabels n db name schema own shown) {pk : String}
    (hpk : pk ∈ schema.primaryKeys) : shown.get? (n.publicField name pk) = own.get? pk := by
  obtain ⟨c, hc, _⟩ := CollectionSchema.mem_primaryKeys_iff.1 hpk
  exact h.column_eq hc

theorem Relabels.perm_key (h : Relabels n db name schema own shown) (hn : n.Faithful db)
    (hs : db.schemas.get? name = some schema) :
    (shown.key (n.view db name schema)).Perm (own.key schema) := by
  have hvalues : (schema.primaryKeys.map (n.publicField name)).map (fun pk => (shown.get? pk).getD .null) =
      own.key schema := by
    rw [List.map_map]
    refine List.map_congr_left fun pk hpk => ?_
    rw [Function.comp_apply, h.primaryKey_eq hpk]
  have hperm := (perm_primaryKeys hn hs).map fun pk => (shown.get? pk).getD .null
  rwa [hvalues] at hperm

theorem assignedKey?_view (hn : n.Faithful db) (hs : db.schemas.get? name = some schema) :
    Memory.assignedKey? (n.view db name schema) = (Memory.assignedKey? schema).map (n.publicField name) := by
  have hperm := perm_primaryKeys hn hs
  have hfield : ∀ pk ∈ schema.primaryKeys, db.HasField name pk := fun pk =>
    hasField_of_mem_primaryKeys hs
  unfold Memory.assignedKey?
  generalize schema.primaryKeys = keys at hperm hfield
  generalize (n.view db name schema).primaryKeys = keys' at hperm
  match keys, keys', hperm with
  | [], [], _ => rfl
  | [pk], [pk'], hperm =>
    obtain rfl : pk' = n.publicField name pk := (List.cons.inj (List.perm_singleton.1 hperm)).1
    dsimp only
    rw [hn.column?_publicField hs (hfield pk List.mem_cons_self)]
    split <;> rfl
  | _ :: _ :: _, _ :: _ :: _, _ => rfl
  | [], _ :: _, hperm => exact absurd hperm.length_eq (by simp)
  | _ :: _, [], hperm => exact absurd hperm.length_eq (by simp)
  | [_], _ :: _ :: _, hperm => exact absurd hperm.length_eq (by simp)
  | _ :: _ :: _, [_], hperm => exact absurd hperm.length_eq (by simp)

/-! ## Ids -/

/-- The id of a record, by own and by public names. -/
def SameId (n : FieldNaming Store) (db : Database) (name : String) (schema : CollectionSchema)
    (id id' : CompositeId) : Prop :=
  ∃ own shown, Relabels n db name schema own shown ∧ id = own.key schema ∧
    id' = shown.key (n.view db name schema)

theorem SameId.sameId_eq (hn : n.Faithful db) (hs : db.schemas.get? name = some schema)
    {a a' b b' : CompositeId} (ha : SameId n db name schema a a') (hb : SameId n db name schema b b') :
    sameId a b = sameId a' b' := by
  obtain ⟨r, r', hr, rfl, rfl⟩ := ha
  obtain ⟨t, t', ht, rfl, rfl⟩ := hb
  rw [sameId_key, sameId_key, (perm_primaryKeys hn hs).all_eq, List.all_map]
  rw [Bool.eq_iff_iff, List.all_eq_true, List.all_eq_true]
  refine forall₂_congr fun pk hpk => ?_
  rw [Function.comp_apply, hr.primaryKey_eq hpk, ht.primaryKey_eq hpk]

/-- Where there is one primary key only, ids are what they were. -/
theorem SameId.eq_of_singleton (hn : n.Faithful db) (hs : db.schemas.get? name = some schema) {pk : String}
    (hkeys : schema.primaryKeys = [pk]) {id id' : CompositeId} (h : SameId n db name schema id id') :
    id = id' := by
  obtain ⟨own, shown, hrecord, rfl, rfl⟩ := h
  have hperm := hrecord.perm_key hn hs
  have hkey : own.key schema = [(own.get? pk).getD .null] := by
    unfold Record.key
    rw [hkeys, List.map_singleton]
  rw [hkey] at hperm ⊢
  exact (List.perm_singleton.1 hperm).symm

theorem Relabels.id_alike (h : Relabels n db name schema own shown) (hn : n.Faithful db)
    (hs : db.schemas.get? name = some schema) :
    Outcome.Alike (SameId n db name schema) (own.id schema) (shown.id (n.view db name schema)) := by
  have hpresent : (∀ v ∈ shown.key (n.view db name schema), v ≠ .null) ↔ ∀ v ∈ own.key schema, v ≠ .null :=
    forall_congr' fun v => by rw [(h.perm_key hn hs).mem_iff]
  by_cases hown : ∀ v ∈ own.key schema, v ≠ .null
  · rw [Record.id_of_present hown, Record.id_of_present (hpresent.2 hown)]
    exact .ok ⟨own, shown, h, rfl, rfl⟩
  · cases hid : own.id schema with
    | ok id => exact absurd (Record.id_eq_ok_iff.1 hid).2 hown
    | error e =>
      cases hid' : shown.id (n.view db name schema) with
      | ok id' => exact absurd (Record.id_eq_ok_iff.1 hid').2 (mt hpresent.1 hown)
      | error e' => exact .error e e'

theorem hasId_eq (hn : n.Faithful db) (hs : db.schemas.get? name = some schema) {ids ids' : List CompositeId}
    (hids : List.Forall₂ (SameId n db name schema) ids ids') {id id' : CompositeId}
    (hid : SameId n db name schema id id') : Memory.hasId ids id = Memory.hasId ids' id' :=
  Outcome.any_eq hids fun _ _ h => h.sameId_eq hn hs hid

theorem isTarget_eq (hn : n.Faithful db) (hs : db.schemas.get? name = some schema)
    {ids ids' : List CompositeId} (hids : List.Forall₂ (SameId n db name schema) ids ids')
    (h : Relabels n db name schema own shown) :
    Memory.isTarget schema ids own = Memory.isTarget (n.view db name schema) ids' shown := by
  have halike := h.id_alike hn hs
  unfold Memory.isTarget
  generalize own.id schema = x at halike
  generalize shown.id (n.view db name schema) = y at halike
  cases halike with
  | ok hid => exact hasId_eq hn hs hids hid
  | error e e' => rfl

theorem matchingIds_alike (hn : n.Faithful db) (hkeys : db.KeyedByColumns) (hstore : Memory.Tidy db store)
    (hs : db.schemas.get? name = some schema) {g f : Filter} (hf : SameFilter n db name schema g f) :
    Outcome.Alike (List.Forall₂ (SameId n db name schema)) (Memory.matchingIds db store name schema f)
      (Memory.matchingIds (n.direct db) (n.relabelStore store) name (n.view db name schema) g) :=
  (select_alike hn hkeys hstore hs hf .empty).bind fun _ _ hrows =>
    .mapM hrows fun _ _ hab => hab.id_alike hn hs

theorem idsOf_alike (hn : n.Faithful db) (hs : db.schemas.get? name = some schema)
    {rows rows' : List Record} (hrows : List.Forall₂ (Relabels n db name schema) rows rows') :
    List.Forall₂ (SameId n db name schema) (Memory.idsOf schema rows)
      (Memory.idsOf (n.view db name schema) rows') := by
  unfold Memory.idsOf
  refine List.rel_filterMap (R := Relabels n db name schema) (P := SameId n db name schema)
    (fun a b hab => ?_) hrows
  have halike := hab.id_alike hn hs
  generalize a.id schema = x at halike
  generalize b.id (n.view db name schema) = y at halike
  cases halike with
  | ok hid => exact .some hid
  | error e e' => exact .none

/-- The next id is taken over ids that are the same by both names. -/
theorem nextId_eq (hn : n.Faithful db) (hs : db.schemas.get? name = some schema) {pk : String}
    (hkey : Memory.assignedKey? schema = some pk) {ids ids' : List CompositeId}
    (hids : List.Forall₂ (SameId n db name schema) ids ids') : Memory.nextId ids = Memory.nextId ids' := by
  have heq : List.Forall₂ (· = ·) ids ids' :=
    hids.imp fun _ _ h => h.eq_of_singleton hn hs (Memory.primaryKeys_of_assignedKey hkey)
  rw [List.forall₂_eq_eq_eq] at heq
  rw [heq]

end FieldNaming

end QueryLayer
