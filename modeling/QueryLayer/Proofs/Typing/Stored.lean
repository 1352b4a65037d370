import Mathlib.Tactic.SplitIfs
import QueryLayer.Proofs.Typing.Check

/-! # Stored values can be asked for

What may be written into a column may be asked for by the operators that the column declares: the check of
values and the check of conditions use tables of their own, and both accept it. Main statement:
`Scope.finds_stored`.
-/
namespace QueryLayer

/-- The type of the single values that a column of the type stores. -/
def ColumnType.single? : ColumnType → Option ValueType
  | boolean => some .boolean
  | date => some .date
  | dateOnly => some .dateOnly
  | enum => some .enum
  | json => none
  | number => some .number
  | point => some .point
  | string => some .string
  | timeOnly => some .timeOnly
  | uuid => some .uuid

theorem ColumnType.single?_eq_some_iff {t : ColumnType} {type : ValueType} :
    t.single? = some type ↔ ((t.valueTypes?.getD []).filter fun u => !u.isArray).contains type = true := by
  cases t <;> cases type <;> decide

theorem ColumnType.single?_comparable {t : ColumnType} {type : ValueType} (h : t.single? = some type) :
    Operator.equal.valueTypes.contains type = true := by
  cases t <;> cases h <;> decide

theorem ValueType.ofItems_ne_single {items : List Value} {t : ColumnType} (hpoint : t ≠ .point) :
    t.single? ≠ some (ofItems items t) := by
  have hunpoint : ¬(t = .point ∧ items.length = 2) := fun h => hpoint h.1
  unfold ofItems
  rw [if_neg hunpoint]
  split_ifs <;> cases t <;> simp [ColumnType.single?]

namespace Column

variable {c : Column}

theorem single?_of_checkValue {v : Value} (hjson : c.columnType ≠ .json) (hv : c.checkValue v = .ok ())
    (hnull : v ≠ .null) :
    c.columnType.single? = some (.ofValue v c.columnType) ∧ c.checkEnum v = .ok () := by
  have hplain : ¬(v.isNull || c.columnType = .json) = true := by
    simp [hnull, hjson]
  unfold checkValue at hv
  rw [if_neg hplain] at hv
  dsimp only at hv
  split at hv
  · next h => exact ⟨ColumnType.single?_eq_some_iff.2 h, hv⟩
  · cases hv

/-- What a value looks like that is stored in a column with membership. -/
inductive Item (c : Column) : Value → Prop
  | bool {b : Bool} : c.columnType = .boolean → Item c (.bool b)
  | number {n : Number} : c.columnType = .number → Item c (.number n)
  | text {s : String} : c.columnType ≠ .boolean → c.columnType ≠ .number →
    (c.columnType = .uuid → Text.isUuid s = true) → c.checkEnum (.text s) = .ok () → Item c (.text s)

/-- Membership makes sense for the type of the column. -/
def HasMembership (c : Column) : Prop := c.columnType.operators.contains .oneOf = true

instance (c : Column) : Decidable c.HasMembership :=
  inferInstanceAs (Decidable (c.columnType.operators.contains .oneOf = true))

theorem HasMembership.ne_json (h : c.HasMembership) : c.columnType ≠ .json := by
  intro hjson
  unfold HasMembership at h
  rw [hjson] at h
  revert h
  decide

theorem HasMembership.ne_point (h : c.HasMembership) : c.columnType ≠ .point := by
  intro hpoint
  unfold HasMembership at h
  rw [hpoint] at h
  revert h
  decide

theorem item_of_checkValue (hin : c.HasMembership) {v : Value} (hv : c.checkValue v = .ok ())
    (hnull : v ≠ .null) : c.Item v := by
  obtain ⟨htype, henum⟩ := single?_of_checkValue hin.ne_json hv hnull
  cases v with
  | null => exact absurd rfl hnull
  | bool b =>
    refine .bool ?_
    change _ = some ValueType.boolean at htype
    cases ht : c.columnType <;> simp_all [ColumnType.single?]
  | number n =>
    refine .number ?_
    change _ = some ValueType.number at htype
    cases ht : c.columnType <;> simp_all [ColumnType.single?]
  | text s =>
    change _ = some (ValueType.ofText s c.columnType) at htype
    refine .text (fun ht => ?_) (fun ht => ?_) (fun ht => ?_) henum
    · simp [ht, ColumnType.single?, ValueType.ofText] at htype
    · simp [ht, ColumnType.single?, ValueType.ofText] at htype
    · by_contra huuid
      simp [ht, ColumnType.single?, ValueType.ofText, huuid] at htype
  | array items => exact absurd htype (ValueType.ofItems_ne_single hin.ne_point)
  | object members =>
    change _ = some ValueType.json at htype
    cases ht : c.columnType <;> simp_all [ColumnType.single?]

theorem admits_equal (hjson : c.columnType ≠ .json) (hequal : c.filterOperators.contains .equal = true)
    {v : Value} (hv : c.checkValue v = .ok ()) (hnull : v ≠ .null) : c.Admits .equal v := by
  obtain ⟨htype, henum⟩ := single?_of_checkValue hjson hv hnull
  have hstored := ColumnType.single?_eq_some_iff.1 htype
  refine ⟨?_, hequal, ColumnType.single?_comparable htype, fun _ types htypes => ?_, henum⟩
  · cases c.columnType <;> decide
  · rw [htypes] at hstored
    exact List.contains_iff_mem.2 (List.mem_of_mem_filter (List.contains_iff_mem.1 hstored))

theorem Item.isBool {v : Value} (h : c.Item v) (ht : c.columnType = .boolean) : v.isBool = true := by
  cases h with
  | bool _ => rfl
  | number hn => rw [ht] at hn; cases hn
  | text hbool _ _ _ => exact absurd ht hbool

theorem Item.isNumber {v : Value} (h : c.Item v) (ht : c.columnType = .number) : v.isNumber = true := by
  cases h with
  | bool hb => rw [ht] at hb; cases hb
  | number _ => rfl
  | text _ hnumber _ _ => exact absurd ht hnumber

theorem Item.isText {v : Value} (h : c.Item v) (hbool : c.columnType ≠ .boolean)
    (hnumber : c.columnType ≠ .number) : v.isText = true := by
  cases h with
  | bool hb => exact absurd hb hbool
  | number hn => exact absurd hn hnumber
  | text _ _ _ _ => rfl

theorem all_isUuid_of_items {vs : List Value} (h : ∀ v ∈ vs, c.Item v) (ht : c.columnType = .uuid) :
    (vs.filterMap Value.text?).all Text.isUuid = true := by
  refine List.all_eq_true.2 fun s hs => ?_
  obtain ⟨v, hv, hvs⟩ := List.mem_filterMap.1 hs
  cases h v hv with
  | bool hb => rw [ht] at hb; cases hb
  | number hn => rw [ht] at hn; cases hn
  | text _ _ huuid _ =>
    cases hvs
    exact huuid ht

theorem ofItems_of_items {vs : List Value} (h : ∀ v ∈ vs, c.Item v) :
    ValueType.ofItems vs c.columnType = .emptyArray ∨
      c.columnType = .boolean ∧ ValueType.ofItems vs c.columnType = .arrayOfBoolean ∨
      c.columnType = .number ∧ ValueType.ofItems vs c.columnType = .arrayOfNumber ∨
      c.columnType = .uuid ∧ ValueType.ofItems vs c.columnType = .arrayOfUuid ∨
      c.columnType ≠ .boolean ∧ c.columnType ≠ .number ∧ c.columnType ≠ .uuid ∧
        ValueType.ofItems vs c.columnType = .arrayOfString := by
  cases vs with
  | nil => exact Or.inl rfl
  | cons v vs =>
    right
    have hfirst := h v List.mem_cons_self
    unfold ValueType.ofItems
    rw [if_neg (by simp)]
    -- the first item tells what the column stores, and so what the others are
    cases hfirst with
    | bool ht =>
      have hbools := List.all_eq_true.2 fun w hw => (h w hw).isBool ht
      rw [if_neg (by simp [Value.isNumber]), if_pos hbools]
      exact Or.inl ⟨ht, rfl⟩
    | number ht =>
      have hnumbers := List.all_eq_true.2 fun w hw => (h w hw).isNumber ht
      rw [if_pos hnumbers, if_neg (by simp [ht])]
      exact Or.inr (Or.inl ⟨ht, rfl⟩)
    | text hbool hnumber _ _ =>
      have htexts := List.all_eq_true.2 fun w hw => (h w hw).isText hbool hnumber
      rw [if_neg (by simp [Value.isNumber]), if_neg (by simp [Value.isBool]), if_pos htexts]
      refine Or.inr (Or.inr ?_)
      by_cases ht : c.columnType = .uuid
      · rw [if_pos ⟨ht, all_isUuid_of_items h ht⟩]
        exact Or.inl ⟨ht, rfl⟩
      · rw [if_neg fun h => ht h.1]
        exact Or.inr ⟨hbool, hnumber, ht, rfl⟩

theorem checkEnum_of_items {vs : List Value} (h : ∀ v ∈ vs, c.Item v) :
    c.checkEnum (.array vs) = .ok () := by
  unfold checkEnum
  by_cases ht : c.columnType = .enum
  · rw [if_neg (by simp [ht])]
    refine if_pos (List.all_eq_true.2 fun s hs => ?_)
    obtain ⟨v, hv, hvs⟩ := List.mem_filterMap.1 hs
    cases h v hv with
    | bool hb => rw [ht] at hb; cases hb
    | number hn => rw [ht] at hn; cases hn
    | text _ _ _ henum =>
      cases hvs
      unfold checkEnum at henum
      rw [if_neg (by simp [ht])] at henum
      dsimp only at henum
      split at henum
      · next h => simpa using h
      · cases henum
  · rw [if_pos ht]

theorem admits_oneOf (hin : c.HasMembership) (hone : c.filterOperators.contains .oneOf = true)
    {vs : List Value} (h : ∀ v ∈ vs, c.Item v) : c.Admits .oneOf (.array vs) := by
  refine ⟨hin, hone, ?_, fun _ types htypes => ?_, checkEnum_of_items h⟩
  · change Operator.oneOf.valueTypes.contains (ValueType.ofItems vs c.columnType) = true
    rcases ofItems_of_items h with h | ⟨_, h⟩ | ⟨_, h⟩ | ⟨_, h⟩ | ⟨_, _, _, h⟩ <;> rw [h] <;> decide
  · change types.contains (ValueType.ofItems vs c.columnType) = true
    have hjson := hin.ne_json
    have hpoint := hin.ne_point
    rcases ofItems_of_items h with h | ⟨ht, h⟩ | ⟨ht, h⟩ | ⟨ht, h⟩ | ⟨hbool, hnumber, huuid, h⟩ <;> rw [h]
    · cases ht : c.columnType <;> rw [ht] at htypes <;> cases htypes <;> first | decide | exact absurd ht hpoint
    · rw [ht] at htypes
      cases htypes
      decide
    · rw [ht] at htypes
      cases htypes
      decide
    · rw [ht] at htypes
      cases htypes
      decide
    · cases ht : c.columnType <;> rw [ht] at htypes <;> cases htypes <;>
        first | decide | exact absurd ht hpoint | exact absurd ht hbool | exact absurd ht hnumber | exact absurd ht huuid

end Column

namespace Scope

variable {s : Scope}

/-- A column is compared with a value that it can store where it declares equality. -/
theorem checkLeaf_equal_iff {name : String} {c : Column} (hc : s.schema.column? name = some c)
    (hplain : Path.Plain name) (hjson : c.columnType ≠ .json) {v : Value} (hv : c.checkValue v = .ok ())
    (hnull : v ≠ .null) :
    s.checkLeaf ⟨name, .equal, v⟩ = .ok () ↔ c.filterOperators.contains .equal = true := by
  have hcolumn : s.column name = .ok c := (column_of_plain hplain).2 hc
  rw [checkLeaf_eq_ok_iff]
  constructor
  · rintro ⟨d, hd, hadmits⟩
    obtain rfl := Except.ok.inj (hcolumn.symm.trans hd)
    exact hadmits.declared
  · exact fun hequal => ⟨c, hcolumn, Column.admits_equal hjson hequal hv hnull⟩

/-- A column is compared with a list of values that it can store where it has and declares membership. -/
theorem checkLeaf_among_iff {name : String} {c : Column} (hc : s.schema.column? name = some c)
    (hplain : Path.Plain name) {vs : List Value} (hvs : ∀ v ∈ vs, c.checkValue v = .ok () ∧ v ≠ .null) :
    s.checkLeaf ⟨name, .oneOf, .array vs⟩ = .ok () ↔
      c.HasMembership ∧ c.filterOperators.contains .oneOf = true := by
  have hcolumn : s.column name = .ok c := (column_of_plain hplain).2 hc
  rw [checkLeaf_eq_ok_iff]
  constructor
  · rintro ⟨d, hd, hadmits⟩
    obtain rfl := Except.ok.inj (hcolumn.symm.trans hd)
    exact ⟨hadmits.allowed, hadmits.declared⟩
  · rintro ⟨hin, hone⟩
    exact ⟨c, hcolumn, Column.admits_oneOf hin hone fun v hv =>
      Column.item_of_checkValue hin (hvs v hv).1 (hvs v hv).2⟩

end Scope

namespace Condition

variable {r : Record} {name : String} {v : Value}

theorem holds_equal_of_stored (hplain : Path.Plain name) (hv : r.get? name = some v) :
    holds r (.leaf ⟨name, .equal, v⟩) = true := by
  rw [holds, Leaf.holds, Record.value_of_plain hplain, hv]
  exact v.same_self

theorem holds_among_of_stored (hplain : Path.Plain name) (hv : r.get? name = some v) {vs : List Value}
    (hmem : v ∈ vs) : holds r (.leaf ⟨name, .oneOf, .array vs⟩) = true := by
  rw [holds, Leaf.holds, Record.value_of_plain hplain, hv]
  exact List.any_eq_true.2 ⟨v, hmem, v.same_self⟩

end Condition

/-- A value that may be written into a column may be compared with it exactly where the column declares
equality, and a list of such values exactly where it has and declares membership. The comparison holds for the
records that store the value, or one of the list. -/
theorem Scope.finds_stored {s : Scope} {name : String} {c : Column} (hplain : Path.Plain name)
    (hc : s.schema.column? name = some c) (hjson : c.columnType ≠ .json) :
    (∀ v : Value, v ≠ .null → c.checkValue v = .ok () →
      (s.checkCondition (.leaf ⟨name, .equal, v⟩) = .ok () ↔ c.filterOperators.contains .equal = true) ∧
      ∀ r : Record, r.get? name = some v → Condition.holds r (.leaf ⟨name, .equal, v⟩) = true) ∧
    ∀ vs : List Value, (∀ v ∈ vs, v ≠ .null ∧ c.checkValue v = .ok ()) →
      (s.checkCondition (.leaf ⟨name, .oneOf, .array vs⟩) = .ok () ↔
        c.columnType.operators.contains .oneOf = true ∧ c.filterOperators.contains .oneOf = true) ∧
      ∀ r : Record, ∀ v ∈ vs, r.get? name = some v →
        Condition.holds r (.leaf ⟨name, .oneOf, .array vs⟩) = true := by
  refine ⟨fun v hnull hv => ⟨?_, fun r hr => ?_⟩, fun vs hvs => ⟨?_, fun r v hmem hr => ?_⟩⟩
  · exact checkLeaf_equal_iff hc hplain hjson hv hnull
  · exact Condition.holds_equal_of_stored hplain hr
  · exact checkLeaf_among_iff hc hplain fun v hv => (hvs v hv).symm
  · exact Condition.holds_among_of_stored hplain hr hmem

/-- Members are known by a badge, an identifier in any of its forms. -/
def badges : Scope where
  name := "members"
  schema := CollectionSchema.empty.withField "badge" (.column ((Column.ofType .uuid).withOperators [.equal, .oneOf]))
  catalog := fun _ => none

theorem Scope.finds_stored_badges :
    let c := (Column.ofType .uuid).withOperators [.equal, .oneOf]
    let urn := Value.text "urn:uuid:67e55044-10b1-426f-9247-bb680e5fe0c8"
    let bare := Value.text "936DA01F9ABD4D9D80C702AF85C822A8"
    (Path.Plain "badge" ∧ badges.schema.column? "badge" = some c ∧ c.columnType ≠ .json ∧
      ∀ v ∈ [urn, bare], v ≠ .null ∧ c.checkValue v = .ok ()) ∧
    badges.checkCondition (.leaf ⟨"badge", .equal, urn⟩) = .ok () ∧
    Condition.holds [("badge", urn)] (.leaf ⟨"badge", .equal, urn⟩) = true ∧
    badges.checkCondition (.leaf ⟨"badge", .oneOf, .array [urn, bare]⟩) = .ok () ∧
    Condition.holds [("badge", bare)] (.leaf ⟨"badge", .oneOf, .array [urn, bare]⟩) = true := by
  intro c urn bare
  have hplain : Path.Plain "badge" := by decide +kernel
  have hc : badges.schema.column? "badge" = some c := rfl
  have hjson : c.columnType ≠ .json := nofun
  have hvs : ∀ v ∈ [urn, bare], v ≠ .null ∧ c.checkValue v = .ok () := by
    intro v hv
    rcases List.mem_cons.1 hv with rfl | hv
    · exact ⟨nofun, rfl⟩
    · obtain rfl := List.mem_singleton.1 hv
      exact ⟨nofun, rfl⟩
  obtain ⟨hequal, hamong⟩ := finds_stored hplain hc hjson
  obtain ⟨hurn, hholds⟩ := hequal urn (hvs urn (by simp)).1 (hvs urn (by simp)).2
  obtain ⟨hlist, hone⟩ := hamong [urn, bare] hvs
  exact ⟨⟨hplain, hc, hjson, hvs⟩, hurn.2 rfl, hholds [("badge", urn)] rfl, hlist.2 ⟨rfl, rfl⟩,
    hone [("badge", bare)] bare (by simp) rfl⟩

end QueryLayer
