import QueryLayer.Proofs.Naming.Projections
import QueryLayer.Proofs.Query.Condition

/-! # Records by public and by own names

A record `Relabels` to another one when each field has, by its public name, the value that it has by its
own name, and nested records relabel in turn. The paths that the direct database accepts lead to the
values that their translations lead to, and what the naming returns for a record is its relabelling.
-/
namespace QueryLayer

namespace FieldNaming

/-- Both are absent, both null, or both hold a record. -/
inductive AlikeNested : Option Value → Option Value → Prop
  | absent : AlikeNested none none
  | null : AlikeNested (some .null) (some .null)
  | object (a b : Record) : AlikeNested (some (.object a)) (some (.object b))

inductive Relabels (n : FieldNaming Store) (db : Database) :
    String → CollectionSchema → Record → Record → Prop
  | intro {name : String} {schema : CollectionSchema} {own shown : Record} :
    Entries.Sorted own → Entries.Sorted shown →
    (∀ f, (own.get? f).isSome → (schema.fields.get? f).isSome) →
    (∀ g, (shown.get? g).isSome → ∃ f, n.ownField name g = .ok f ∧ (schema.fields.get? f).isSome) →
    (∀ f c, schema.column? f = some c → shown.get? (n.publicField name f) = own.get? f) →
    (∀ f r, schema.relation? f = some r →
      AlikeNested (own.get? f) (shown.get? (n.publicField name f))) →
    (∀ f r a b, schema.relation? f = some r → own.get? f = some (.object a) →
      shown.get? (n.publicField name f) = some (.object b) →
      ∃ foreign, db.schemas.get? r.foreignCollection = some foreign) →
    (∀ f r foreign a b, schema.relation? f = some r → db.schemas.get? r.foreignCollection = some foreign →
      own.get? f = some (.object a) → shown.get? (n.publicField name f) = some (.object b) →
      Relabels n db r.foreignCollection foreign a b) →
    Relabels n db name schema own shown

namespace Relabels

variable {n : FieldNaming Store} {db : Database} {name : String} {schema : CollectionSchema}
  {own shown : Record}

theorem sorted (h : Relabels n db name schema own shown) : Entries.Sorted own := by
  cases h
  assumption

theorem sorted_shown (h : Relabels n db name schema own shown) : Entries.Sorted shown := by
  cases h
  assumption

theorem isSome_field (h : Relabels n db name schema own shown) {f : String} (hf : (own.get? f).isSome) :
    (schema.fields.get? f).isSome := by
  cases h with
  | intro _ _ hfield _ _ _ _ _ => exact hfield f hf

theorem exists_field (h : Relabels n db name schema own shown) {g : String} (hg : (shown.get? g).isSome) :
    ∃ f, n.ownField name g = .ok f ∧ (schema.fields.get? f).isSome := by
  cases h with
  | intro _ _ _ hfield _ _ _ _ => exact hfield g hg

theorem column_eq (h : Relabels n db name schema own shown) {f : String} {c : Column}
    (hc : schema.column? f = some c) : shown.get? (n.publicField name f) = own.get? f := by
  cases h with
  | intro _ _ _ _ hcolumns _ _ _ => exact hcolumns f c hc

/-- How a relation is seen from both sides. -/
inductive Member (n : FieldNaming Store) (db : Database) (r : Relation) : Option Value → Option Value → Prop
  | absent : Member n db r none none
  | null : Member n db r (some .null) (some .null)
  | object {foreign : CollectionSchema} {a b : Record} :
    db.schemas.get? r.foreignCollection = some foreign →
    Relabels n db r.foreignCollection foreign a b → Member n db r (some (.object a)) (some (.object b))

theorem member (h : Relabels n db name schema own shown) {f : String} {r : Relation}
    (hr : schema.relation? f = some r) : Member n db r (own.get? f) (shown.get? (n.publicField name f)) := by
  cases h with
  | intro _ _ _ _ _ hrelated hforeign hnested =>
    have halike := hrelated f r hr
    generalize hv : own.get? f = v at halike
    generalize hw : shown.get? (n.publicField name f) = w at halike
    cases halike with
    | absent => exact .absent
    | null => exact .null
    | object a b =>
      obtain ⟨foreign, hfound⟩ := hforeign f r a b hr hv hw
      exact .object hfound (hnested f r foreign a b hr hfound hv hw)

theorem of_members (hsorted : Entries.Sorted own) (hsorted' : Entries.Sorted shown)
    (hfield : ∀ f, (own.get? f).isSome → (schema.fields.get? f).isSome)
    (hfield' : ∀ g, (shown.get? g).isSome → ∃ f, n.ownField name g = .ok f ∧ (schema.fields.get? f).isSome)
    (hcolumns : ∀ f c, schema.column? f = some c → shown.get? (n.publicField name f) = own.get? f)
    (hmembers : ∀ f r, schema.relation? f = some r →
      Member n db r (own.get? f) (shown.get? (n.publicField name f))) :
    Relabels n db name schema own shown := by
  refine .intro hsorted hsorted' hfield hfield' hcolumns (fun f r hr => ?_) (fun f r a b hr ha hb => ?_)
    fun f r foreign a b hr hforeign ha hb => ?_
  · have hmember := hmembers f r hr
    generalize own.get? f = v at hmember
    generalize shown.get? (n.publicField name f) = w at hmember
    cases hmember with
    | absent => exact .absent
    | null => exact .null
    | object _ _ => exact .object _ _
  · have hmember := hmembers f r hr
    rw [ha, hb] at hmember
    cases hmember with
    | object hforeign _ => exact ⟨_, hforeign⟩
  · have hmember := hmembers f r hr
    rw [ha, hb] at hmember
    cases hmember with
    | object hforeign' hnested =>
      rw [hforeign] at hforeign'
      cases hforeign'
      exact hnested

theorem isSome_iff (h : Relabels n db name schema own shown) {f : String}
    (hf : (schema.fields.get? f).isSome) :
    (shown.get? (n.publicField name f)).isSome ↔ (own.get? f).isSome := by
  obtain ⟨c, hc⟩ | ⟨r, hr⟩ := CollectionSchema.column?_or_relation? hf
  · rw [h.column_eq hc]
  · have hmember := h.member hr
    generalize own.get? f = v at hmember
    generalize shown.get? (n.publicField name f) = w at hmember
    cases hmember <;> simp

/-! ## Values -/

/-- A path leads to one value, by public and by own names. -/
theorem valueAt?_eq {gs fs : List String} {c : Column} (hpath : Leads n db name schema gs fs c)
    (hn : n.Faithful db) (h : Relabels n db name schema own shown) :
    shown.valueAt? gs = own.valueAt? fs := by
  induction hpath generalizing own shown with
  | column hg hc =>
    rw [Record.valueAt?, Record.valueAt?, ← hn.publicField_of_ownField hg]
    exact h.column_eq hc
  | @through name schema g f r foreign gs fs c hg hr _ hforeign hrest ih =>
    rw [Record.valueAt?_cons hrest.ne_nil.1, Record.valueAt?_cons hrest.ne_nil.2,
      ← hn.publicField_of_ownField hg]
    have hmember := h.member hr
    unfold Record.nested?
    generalize own.get? f = v at hmember ⊢
    generalize shown.get? (n.publicField name f) = w at hmember ⊢
    cases hmember with
    | absent => rfl
    | null => rfl
    | object hforeign' hnested =>
      rw [hforeign] at hforeign'
      cases hforeign'
      exact ih hnested

theorem value?_eq {g f : String} (hpath : SamePath n db name schema g f) (hn : n.Faithful db)
    (h : Relabels n db name schema own shown) : shown.value? g = own.value? f := by
  obtain ⟨c, hc⟩ := hpath
  exact valueAt?_eq hc hn h

theorem value_eq {g f : String} (hpath : SamePath n db name schema g f) (hn : n.Faithful db)
    (h : Relabels n db name schema own shown) : shown.value g = own.value f := by
  unfold Record.value
  rw [h.value?_eq hpath hn]

/-! ## Stored records -/

/-- A record of columns, and one with the same members by public names. -/
theorem of_same_members (hs : db.schemas.get? name = some schema) (hsorted : Entries.Sorted own)
    (hsorted' : Entries.Sorted shown) (hfits : own.Fits schema)
    (hget : ∀ f, db.HasField name f → shown.get? (n.publicField name f) = own.get? f)
    (hback : ∀ g, (shown.get? g).isSome → ∃ f, n.ownField name g = .ok f ∧ (own.get? f).isSome) :
    Relabels n db name schema own shown := by
  have hfield : ∀ f, (own.get? f).isSome → (schema.fields.get? f).isSome := by
    intro f hf
    obtain ⟨v, hv⟩ := Option.isSome_iff_exists.1 hf
    obtain ⟨c, hc, _⟩ := hfits.get? hv
    exact CollectionSchema.isSome_get?_of_column? hc
  refine of_members hsorted hsorted' hfield (fun g hg => ?_) (fun f c hc => hget f (.of_column hs hc))
    fun f r hr => ?_
  · obtain ⟨f, hown, hf⟩ := hback g hg
    exact ⟨f, hown, hfield f hf⟩
  · rw [hget f (.of_relation hs hr), hfits.get?_eq_none (Memory.column?_eq_none_of_relation? hr)]
    exact .absent

/-- A stored record under public names. -/
theorem of_fits (hn : n.Faithful db) (hs : db.schemas.get? name = some schema)
    (hfits : own.Fits schema) (hsorted : Entries.Sorted own) :
    Relabels n db name schema own (Entries.rename (n.publicField name) own) := by
  have hmem : ∀ e ∈ own, db.HasField name e.1 := by
    intro e he
    obtain ⟨c, hc, _⟩ := hfits e he
    exact .of_column hs hc
  refine of_same_members hs hsorted (Entries.sorted_rename _ _) hfits (fun f hf => ?_) fun g hg => ?_
  · exact Entries.get?_rename (D := db.HasField name) (fun a b ha hb => hn.publicField_inj ha hb) hmem
      hsorted.nodup hf
  · obtain ⟨v, hv⟩ := Option.isSome_iff_exists.1 hg
    obtain ⟨e, he, rfl⟩ := Entries.exists_of_get?_rename hv
    refine ⟨e.1, hn.ownField_publicField (hmem e he), ?_⟩
    rw [Record.get?, Entries.get?_of_mem hsorted he]
    rfl

/-! ## Records on their way out -/

theorem publicMembers_eq {c : Collection Store} {members : List (String × Value)}
    {V : String × Value → Value}
    (h : ∀ e ∈ members, n.publicValue (c.schema.relation? e.1) e.2 = .ok (V e)) :
    n.publicMembers c members = .ok (members.map fun e => (n.publicField c.name e.1, V e)) := by
  induction members with
  | nil =>
    rw [publicMembers]
    rfl
  | cons e rest ih =>
    obtain ⟨field, v⟩ := e
    rw [publicMembers, h (field, v) List.mem_cons_self, Outcome.ok_bind,
      ih fun d hd => h d (List.mem_cons_of_mem _ hd), Outcome.ok_bind]
    rfl

theorem publicValue_of_not_object {relation : Option Relation} {v : Value} (h : ∀ members, v ≠ .object members) :
    n.publicValue relation v = .ok v := by
  cases v with
  | object members => exact absurd rfl (h members)
  | _ => rw [publicValue]; exact fun members => by simp

/-- The value of a member by the public name of its field. -/
def shownValue (n : FieldNaming Store) (name : String) (shown : Record) (e : String × Value) : Value :=
  (shown.get? (n.publicField name e.1)).getD .null

theorem rename_eq (h : Relabels n db name schema own shown) (hn : n.Faithful db)
    (hs : db.schemas.get? name = some schema) :
    Entries.rename (n.publicField name) (own.map fun e => (e.1, shownValue n name shown e)) = shown := by
  have hget : ∀ e ∈ own, own.get? e.1 = some e.2 := fun e he => Entries.get?_of_mem h.sorted he
  have hmem : ∀ e ∈ own.map (fun e => (e.1, shownValue n name shown e)), db.HasField name e.1 := by
    intro e he
    obtain ⟨d, hd, rfl⟩ := List.mem_map.1 he
    exact ⟨schema, hs, h.isSome_field (by rw [hget d hd]; rfl)⟩
  refine Entries.ext_get? (Entries.sorted_rename _ _) h.sorted_shown fun g => ?_
  cases hg : shown.get? g with
  | some w =>
    obtain ⟨f, hown, hf⟩ := h.exists_field (by rw [hg]; rfl)
    obtain rfl := hn.publicField_of_ownField hown
    obtain ⟨v, hv⟩ := Option.isSome_iff_exists.1 ((h.isSome_iff hf).1 (by rw [hg]; rfl))
    have hmapped := Dict.get?_mapEntries ⟨own, h.sorted⟩ (shownValue n name shown) f
    rw [show (⟨own, h.sorted⟩ : Dict Value).get? f = some v from hv] at hmapped
    rw [Entries.get?_rename (D := db.HasField name) (fun a b ha hb => hn.publicField_inj ha hb) hmem
      (Entries.sorted_map h.sorted (shownValue n name shown)).nodup ⟨schema, hs, hf⟩]
    refine hmapped.trans ?_
    rw [Option.map_some, shownValue, hg]
    exact hg.symm
  | none =>
    refine Eq.trans ?_ hg.symm
    rw [← Option.not_isSome_iff_eq_none]
    intro hsome
    obtain ⟨w, hw⟩ := Option.isSome_iff_exists.1 hsome
    obtain ⟨e, he, rfl⟩ := Entries.exists_of_get?_rename hw
    obtain ⟨d, hd, rfl⟩ := List.mem_map.1 he
    have hown : (own.get? d.1).isSome := by rw [hget d hd]; rfl
    have hshown := (h.isSome_iff (h.isSome_field hown)).2 hown
    rw [show shown.get? (n.publicField name d.1) = none from hg] at hshown
    cases hshown

theorem publicValue_eq (h : Relabels n db name schema own shown) (hn : n.Faithful db)
    (hnested : ∀ f r foreign a b, schema.relation? f = some r →
      db.schemas.get? r.foreignCollection = some foreign → own.get? f = some (.object a) →
      shown.get? (n.publicField name f) = some (.object b) →
      n.publicRecord (Memory.collection db r.foreignCollection foreign) a = .ok b)
    {e : String × Value} (he : e ∈ own) :
    n.publicValue (schema.relation? e.1) e.2 = .ok (shownValue n name shown e) := by
  have hown : own.get? e.1 = some e.2 := Entries.get?_of_mem h.sorted he
  unfold shownValue
  cases hr : schema.relation? e.1 with
  | none =>
    obtain ⟨c, hc⟩ | ⟨r, hr'⟩ := CollectionSchema.column?_or_relation? (h.isSome_field (by rw [hown]; rfl))
    · rw [h.column_eq hc, hown, Option.getD_some]
      cases e.2 with
      | object members => rw [publicValue]
      | _ => exact publicValue_of_not_object (by simp)
    · rw [hr] at hr'
      cases hr'
  | some r =>
    have hmember := h.member hr
    have hrecord := hnested e.1 r
    rw [hown] at hmember hrecord
    generalize e.2 = v at hmember hrecord ⊢
    generalize shown.get? (n.publicField name e.1) = w at hmember hrecord ⊢
    cases hmember with
    | null => exact publicValue_of_not_object (by simp)
    | @object foreign a b hforeign _ =>
      have hrecord := hrecord foreign a b hr hforeign rfl rfl
      have hcollection := (child_collection_iff hn.child).2 ⟨foreign, hforeign, rfl⟩
      unfold publicRecord at hrecord
      rw [publicValue, hcollection, Outcome.ok_bind, Option.getD_some]
      cases hmembers : n.publicMembers (Memory.collection db r.foreignCollection foreign) a with
      | error err =>
        rw [hmembers] at hrecord
        cases hrecord
      | ok members =>
        rw [hmembers] at hrecord
        exact congrArg (fun b => Except.ok (Value.object b)) (Except.ok.inj hrecord)

/-- What the naming returns for a record. -/
theorem publicRecord_eq (h : Relabels n db name schema own shown) (hn : n.Faithful db)
    (hs : db.schemas.get? name = some schema) :
    n.publicRecord (Memory.collection db name schema) own = .ok shown := by
  induction h with
  | @intro name schema own shown hsorted hsorted' hfield hfield' hcolumns hrelated hforeign hnested ih =>
    have h : Relabels n db name schema own shown :=
      .intro hsorted hsorted' hfield hfield' hcolumns hrelated hforeign hnested
    have hvalues : ∀ e ∈ own, n.publicValue ((Memory.collection db name schema).schema.relation? e.1) e.2 =
        .ok (shownValue n name shown e) := fun e he =>
      h.publicValue_eq hn (fun f r foreign a b hr hfound ha hb => ih f r foreign a b hr hfound ha hb hfound) he
    unfold publicRecord
    rw [publicMembers_eq hvalues]
    refine congrArg Except.ok (Eq.trans ?_ (h.rename_eq hn hs))
    rw [Entries.rename, List.map_map]
    rfl

/-! ## Reduced records -/

/-- What relations come to, under projections that translate. -/
theorem Member.nestedValue {r : Relation} {v w : Option Value} (h : Member n db r v w) {p q : Projection}
    (hnested : ∀ foreign a b, db.schemas.get? r.foreignCollection = some foreign →
      Relabels n db r.foreignCollection foreign a b →
      Relabels n db r.foreignCollection foreign (q.apply a) (p.apply b)) :
    Member n db r (some (q.nestedValue v)) (some (p.nestedValue w)) := by
  cases h with
  | absent => exact .null
  | null => exact .null
  | object hforeign hab => exact .object hforeign (hnested _ _ _ hforeign hab)

/-- Records that relabel are reduced alike by projections that translate, relation after relation. -/
theorem apply (h : Relabels n db name schema own shown) (hn : n.Faithful db)
    (hs : db.schemas.get? name = some schema) {p q : Projection}
    (hp : Translates n db name schema p q) : Relabels n db name schema (q.apply own) (p.apply shown) := by
  induction hdepth : q.depth using Nat.strongRecOn generalizing name schema own shown p q with
  | ind depth ih =>
    subst hdepth
    refine of_members (q.sorted_apply own) (p.sorted_apply shown) (fun _ => hp.isSome_field_of_apply)
      (fun _ => hp.exists_field_of_apply) (fun f c hc => ?_) fun f r hr => ?_
    · have hfield : db.HasField name f := .of_column hs hc
      have hnone : ¬(q.heads.get? f).isSome := by
        intro hf
        obtain ⟨r, hr⟩ := hp.exists_relation hf
        rw [Memory.column?_eq_none_of_relation? hr] at hc
        cases hc
      rw [Projection.get?_apply, if_neg (mt (hp.head_iff hn hfield).1 hnone), Projection.get?_apply,
        if_neg hnone]
      simp only [hp.column_iff hn hfield, h.column_eq hc]
    · have hfield : db.HasField name f := .of_relation hs hr
      rw [Projection.get?_apply, Projection.get?_apply]
      simp only [hp.head_iff hn hfield, hp.column_iff hn hfield]
      by_cases hf : (q.heads.get? f).isSome
      · rw [if_pos hf, if_pos hf]
        have hdepth := Projection.depth_unnest_lt (Projection.isSome_get?_heads_iff.1 hf)
        refine (h.member hr).nestedValue fun foreign a b hforeign hab => ?_
        exact ih _ hdepth hab hforeign (hp.unnest hn (hn.ownField_publicField hfield) hr hforeign) rfl
      · have hnone : f ∉ q.columns := by
          intro hmem
          obtain ⟨c, hc⟩ := hp.exists_column hmem
          rw [Memory.column?_eq_none_of_relation? hr] at hc
          cases hc
        rw [if_neg hf, if_neg hnone, if_neg hf, if_neg hnone]
        exact .absent

end Relabels

end FieldNaming

end QueryLayer
