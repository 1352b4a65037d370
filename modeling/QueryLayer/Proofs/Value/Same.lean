import QueryLayer.Value.Order

/-! # Equality of values is an equivalence

`same` and `alike` are symmetric and transitive at every level: numbers, items and members. Reflexivity
stands beside the definitions.
-/
namespace QueryLayer

theorem Binary64.compare_beq_eq (x y : Binary64) :
    (x.compare y == .eq) = decide (x.orderKey = y.orderKey) := by
  by_cases h : x.orderKey = y.orderKey
  · simp [Binary64.compare, h]
  · have hne : Ord.compare x.orderKey y.orderKey ≠ .eq := fun e => h (Int.compare_eq_eq.1 e)
    cases hc : Ord.compare x.orderKey y.orderKey <;> simp_all [Binary64.compare]

theorem Number.alike_comm (a b : Number) : a.alike b = b.alike a := by
  cases a <;> cases b <;> simp [alike, Binary64.compare_beq_eq, eq_comm]

theorem Number.alike_trans {a b c : Number} (hab : a.alike b = true) (hbc : b.alike c = true) :
    a.alike c = true := by
  cases a <;> cases b <;> cases c <;> simp_all [alike, Binary64.compare_beq_eq]

namespace Value

mutual

theorem alike_comm : (a b : Value) → a.alike b = b.alike a
  | null, b => by cases b <;> rfl
  | bool a, b => by cases b <;> simp [alike, eq_comm]
  | number a, b => by cases b <;> simp [alike, a.alike_comm]
  | text a, b => by cases b <;> simp [alike, eq_comm]
  | array as, b => by
    cases b with
    | array bs => exact alikeItems_comm as bs
    | _ => rfl
  | object as, b => by
    cases b with
    | object bs => exact alikeMembers_comm as bs
    | _ => rfl

theorem alikeItems_comm : (as bs : List Value) → alikeItems as bs = alikeItems bs as
  | [], [] => rfl
  | [], _ :: _ => rfl
  | _ :: _, [] => rfl
  | a :: as, b :: bs => by simp [alikeItems, alike_comm a b, alikeItems_comm as bs]

theorem alikeMembers_comm : (as bs : List (String × Value)) → alikeMembers as bs = alikeMembers bs as
  | [], [] => rfl
  | [], _ :: _ => rfl
  | _ :: _, [] => rfl
  | (k, a) :: as, (l, b) :: bs => by
    simp [alikeMembers, alike_comm a b, alikeMembers_comm as bs, eq_comm]

end

mutual

theorem alike_trans : (a b c : Value) → a.alike b = true → b.alike c = true → a.alike c = true
  | null, b, c, hab, hbc => by cases b <;> cases c <;> simp_all [alike]
  | bool _, b, c, hab, hbc => by cases b <;> cases c <;> simp_all [alike]
  | number _, b, c, hab, hbc => by
    cases b <;> cases c <;> simp_all [alike]
    exact Number.alike_trans hab hbc
  | text _, b, c, hab, hbc => by cases b <;> cases c <;> simp_all [alike]
  | array as, b, c, hab, hbc => by
    cases b <;> cases c <;> simp_all [alike]
    exact alikeItems_trans as _ _ hab hbc
  | object as, b, c, hab, hbc => by
    cases b <;> cases c <;> simp_all [alike]
    exact alikeMembers_trans as _ _ hab hbc

theorem alikeItems_trans : (as bs cs : List Value) →
    alikeItems as bs = true → alikeItems bs cs = true → alikeItems as cs = true
  | [], bs, cs, hab, hbc => by cases bs <;> cases cs <;> simp_all [alikeItems]
  | a :: as, bs, cs, hab, hbc => by
    cases bs <;> cases cs <;> simp_all [alikeItems]
    exact ⟨alike_trans a _ _ hab.1 hbc.1, alikeItems_trans as _ _ hab.2 hbc.2⟩

theorem alikeMembers_trans : (as bs cs : List (String × Value)) →
    alikeMembers as bs = true → alikeMembers bs cs = true → alikeMembers as cs = true
  | [], bs, cs, hab, hbc => by cases bs <;> cases cs <;> simp_all [alikeMembers]
  | (_, a) :: as, bs, cs, hab, hbc => by
    cases bs with
    | nil => simp [alikeMembers] at hab
    | cons e bs =>
      cases cs with
      | nil => simp [alikeMembers] at hbc
      | cons d cs =>
        simp only [alikeMembers, Bool.and_eq_true, decide_eq_true_eq] at hab hbc ⊢
        obtain ⟨⟨hk, ha⟩, hrest⟩ := hab
        obtain ⟨⟨hl, hb⟩, hrest'⟩ := hbc
        exact ⟨⟨hk.trans hl, alike_trans a _ _ ha hb⟩, alikeMembers_trans as _ _ hrest hrest'⟩

end

mutual

theorem same_comm : (a b : Value) → a.same b = b.same a
  | number a, b => by
    cases b with
    | number b => simp [same, Binary64.compare_beq_eq, eq_comm]
    | _ => rfl
  | array as, b => by
    cases b with
    | array bs => exact sameItems_comm as bs
    | _ => rfl
  | null, b => by cases b <;> rfl
  | bool a, b => by cases b <;> simp [same, alike, eq_comm]
  | text a, b => by cases b <;> simp [same, alike, eq_comm]
  | object as, b => by
    cases b with
    | object bs => exact alikeMembers_comm as bs
    | _ => rfl

theorem sameItems_comm : (as bs : List Value) → sameItems as bs = sameItems bs as
  | [], [] => rfl
  | [], _ :: _ => rfl
  | _ :: _, [] => rfl
  | a :: as, b :: bs => by simp [sameItems, same_comm a b, sameItems_comm as bs]

end

mutual

theorem same_trans : (a b c : Value) → a.same b = true → b.same c = true → a.same c = true
  | number _, b, c, hab, hbc => by
    cases b <;> cases c <;> simp_all [same, alike, Binary64.compare_beq_eq]
  | array as, b, c, hab, hbc => by
    cases b <;> cases c <;> simp_all [same, alike]
    exact sameItems_trans as _ _ hab hbc
  | null, b, c, hab, hbc => by cases b <;> cases c <;> simp_all [same, alike]
  | bool _, b, c, hab, hbc => by cases b <;> cases c <;> simp_all [same, alike]
  | text _, b, c, hab, hbc => by cases b <;> cases c <;> simp_all [same, alike]
  | object as, b, c, hab, hbc => by
    cases b <;> cases c <;> simp_all [same, alike]
    exact alikeMembers_trans as _ _ hab hbc

theorem sameItems_trans : (as bs cs : List Value) →
    sameItems as bs = true → sameItems bs cs = true → sameItems as cs = true
  | [], bs, cs, hab, hbc => by cases bs <;> cases cs <;> simp_all [sameItems]
  | a :: as, bs, cs, hab, hbc => by
    cases bs <;> cases cs <;> simp_all [sameItems]
    exact ⟨same_trans a _ _ hab.1 hbc.1, sameItems_trans as _ _ hab.2 hbc.2⟩

end

/-- Nothing but null is the same as null. -/
theorem null_same {v : Value} : null.same v = v.isNull := by
  cases v <;> rfl

end Value

end QueryLayer
