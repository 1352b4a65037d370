import Mathlib.Order.Compare
import QueryLayer.Proofs.Value.Same

/-! # The order of values

Values are compared by kind first, then, where both are booleans or both numbers, by size, and texts by their
letters. So the order is one of all values, whatever their kinds and the forms of their numbers. Among values
other than arrays and objects it tells apart exactly what `same` tells apart.
-/
namespace QueryLayer.Value

/-- The place of a boolean or a number among its kind. -/
def size : Value → Int
  | bool b => b.toNat
  | number n => n.toBinary64.orderKey
  | _ => 0

/-- The text of a text. -/
def letters : Value → String
  | text s => s
  | _ => ""

theorem sortOrder_eq (a b : Value) :
    a.sortOrder b = compareLex (compareOn rank) (compareLex (compareOn size) (compareOn letters)) a b := by
  cases a <;> cases b <;> try rfl
  case bool.bool a b => cases a <;> cases b <;> rfl
  case number.number m n =>
    have hsize : (number m).sortOrder (number n) = compareOn size (number m) (number n) := rfl
    rw [hsize]
    exact Ordering.then_eq.symm

instance : Std.TransCmp sortOrder := by
  have horder : sortOrder = compareLex (compareOn rank) (compareLex (compareOn size) (compareOn letters)) :=
    funext₂ sortOrder_eq
  rw [horder]
  infer_instance

/-- A value of a kind whose values are compared with each other. -/
def isScalar : Value → Bool
  | array _ => false
  | object _ => false
  | _ => true

variable {a b : Value}

theorem sortOrder_of_compare? {o : Ordering} (h : a.compare? b = some o) : a.sortOrder b = o := by
  rw [sortOrder, h, Option.getD_some]

theorem sortOrder_eq_eq_iff :
    a.sortOrder b = .eq ↔ a.rank = b.rank ∧ a.size = b.size ∧ a.letters = b.letters := by
  simp only [sortOrder_eq, compareLex_eq_eq, compareOn, Std.LawfulEqCmp.compare_eq_iff_eq]

/-- Scalars are the same when they agree in kind, size and letters. -/
theorem same_iff_of_isScalar (ha : a.isScalar = true) (hb : b.isScalar = true) :
    a.same b = true ↔ a.rank = b.rank ∧ a.size = b.size ∧ a.letters = b.letters := by
  cases a with
  | null => cases b <;> simp_all [same, alike, rank, size, letters, isScalar]
  | bool x =>
    cases b with
    | bool y => cases x <;> cases y <;> simp [same, alike, rank, size, letters]
    | _ => simp_all [same, alike, rank, isScalar]
  | number m =>
    cases b with
    | number n => simp [same, Binary64.compare_beq_eq, rank, size, letters]
    | _ => simp_all [same, alike, rank, isScalar]
  | text s => cases b <;> simp_all [same, alike, rank, size, letters, isScalar]
  | array items => cases ha
  | object members => cases ha

/-- `same` is an equivalence of all values and `sortOrder` a total preorder of them, which agrees with
`compare?` wherever that answers and takes scalars for equal exactly when they are the same. -/
theorem equivalence_same_and_preorder_sortOrder :
    Equivalence (fun a b : Value => a.same b = true) ∧
      (∀ a : Value, a.sortOrder a = .eq) ∧
      (∀ a b : Value, b.sortOrder a = (a.sortOrder b).swap) ∧
      (∀ a b c : Value, (a.sortOrder b).isLE = true → (b.sortOrder c).isLE = true →
        (a.sortOrder c).isLE = true) ∧
      (∀ (a b : Value) (o : Ordering), a.compare? b = some o → a.sortOrder b = o) ∧
      ∀ a b : Value, a.isScalar = true → b.isScalar = true → (a.sortOrder b = .eq ↔ a.same b = true) := by
  refine ⟨⟨same_self, fun {a b} h => ?_, fun {a b c} => same_trans a b c⟩, fun a => ?_, fun a b => ?_,
    fun a b c => ?_, fun a b o => sortOrder_of_compare?, fun a b ha hb => ?_⟩
  · rw [same_comm]
    exact h
  · exact Std.ReflCmp.compare_self
  · exact Std.OrientedCmp.eq_swap
  · exact Std.TransCmp.isLE_trans
  · rw [sortOrder_eq_eq_iff, same_iff_of_isScalar ha hb]

end QueryLayer.Value
