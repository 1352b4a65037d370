import QueryLayer.Error
import QueryLayer.Text.Like
import QueryLayer.Text.Search
import QueryLayer.Value.Order
import QueryLayer.Value.Path

/-! # Conditions

Boolean expressions over the fields of a record: a leaf compares a field with a value, a branch
joins conditions by *and* or *or*, and `not` negates. Fields may be paths through relations; a
missing value counts as null.
-/
namespace QueryLayer

/-- A field compared with a value: `field operator value`. -/
structure Leaf where
  field : String
  operator : Operator
  value : Value
deriving DecidableEq

inductive Aggregator where
  | and
  | or
deriving DecidableEq

def Aggregator.dual : Aggregator → Aggregator
  | and => or
  | or => and

inductive Condition where
  | leaf (l : Leaf)
  | not (c : Condition)
  | branch (aggregator : Aggregator) (conditions : List Condition)

instance : Inhabited Condition := ⟨.branch .and []⟩

namespace Value

/-- Null or the empty text. -/
def isBlank : Value → Bool
  | null => true
  | text s => s.isEmpty
  | _ => false

/-- Whether a value is among the items of a list; nothing is among those of any other value. -/
def isAmong (v : Value) : Value → Bool
  | array items => items.any fun item => item.same v
  | _ => false

/-- A test on two texts, which fails for values that are not. -/
def bothTexts (test : String → String → Bool) : Value → Value → Bool
  | text a, text b => test a b
  | _, _ => false

/-- The length of a text in characters or of an array in items. -/
def length? : Value → Option Nat
  | text s => some s.length
  | array items => some items.length
  | _ => none

/-- How the length of a value compares with a number. -/
def compareLength? (v : Value) : Value → Option Ordering
  | number n => v.length?.map fun k => (Binary64.ofInt k).compare n.toBinary64
  | _ => none

/-- Whether an array holds every item of another. -/
def includesAll : Value → Value → Bool
  | array items, array required => required.all fun r => items.any fun i => i.same r
  | _, _ => false

end Value

namespace Leaf

/-- Whether the operator holds between an actual value and the value of the leaf. -/
def holdsFor (l : Leaf) (actual : Value) : Bool :=
  match l.operator with
  | .present => !actual.isBlank
  | .blank => actual.isBlank
  | .missing => actual.isNull
  | .equal => actual.same l.value
  | .notEqual => !actual.same l.value
  | .lessThan => actual.compare? l.value = some .lt
  | .lessThanOrEqual => (actual.compare? l.value).any (·.isLE)
  | .greaterThan => actual.compare? l.value = some .gt
  | .greaterThanOrEqual => (actual.compare? l.value).any (·.isGE)
  | .oneOf => actual.isAmong l.value
  | .noneOf => !actual.isAmong l.value
  | .like => Value.bothTexts (fun a p => Text.like p a true) actual l.value
  | .iLike => Value.bothTexts (fun a p => Text.like p a false) actual l.value
  | .startsWith => Value.bothTexts Text.startsWith actual l.value
  | .endsWith => Value.bothTexts Text.endsWith actual l.value
  | .contains => Value.bothTexts Text.contains actual l.value
  | .notContains => !Value.bothTexts Text.contains actual l.value
  | .longerThan => actual.compareLength? l.value = some .gt
  | .shorterThan => actual.compareLength? l.value = some .lt
  | .includesAll => actual.includesAll l.value

/-- Whether a record with its relations attached satisfies the leaf. -/
def holds (l : Leaf) (record : Record) : Bool := l.holdsFor (record.value l.field)

def nest (name : String) (l : Leaf) : Leaf := { l with field := Path.under name l.field }

/-- Drops the first hop of the field. -/
def unnest (l : Leaf) : Except Error Leaf :=
  match Path.split? l.field with
  | some (_, rest) => .ok { l with field := rest }
  | none => .error (.query (.notNested l.field))

/-- The condition that selects what the leaf rejects. -/
def inverse (l : Leaf) : Condition :=
  match l.operator.inverse? with
  | some operator => .leaf { l with operator }
  | none => .not (.leaf l)

end Leaf

namespace Condition

mutual

/-- Whether a record with its relations attached satisfies the condition. -/
def holds (record : Record) : Condition → Bool
  | leaf l => l.holds record
  | not c => !c.holds record
  | branch .and cs => holdsAll record cs
  | branch .or cs => holdsAny record cs

def holdsAll (record : Record) : List Condition → Bool
  | [] => true
  | c :: cs => c.holds record && holdsAll record cs

def holdsAny (record : Record) : List Condition → Bool
  | [] => false
  | c :: cs => c.holds record || holdsAny record cs

end

mutual

/-- The leaves from left to right. -/
def leaves : Condition → List Leaf
  | leaf l => [l]
  | not c => c.leaves
  | branch _ cs => leavesOf cs

def leavesOf : List Condition → List Leaf
  | [] => []
  | c :: cs => c.leaves ++ leavesOf cs

end

mutual

/-- Puts a condition in the place of every leaf. -/
def replaceLeaves (f : Leaf → Condition) : Condition → Condition
  | leaf l => f l
  | not c => not (c.replaceLeaves f)
  | branch a cs => branch a (replaceLeavesOf f cs)

def replaceLeavesOf (f : Leaf → Condition) : List Condition → List Condition
  | [] => []
  | c :: cs => c.replaceLeaves f :: replaceLeavesOf f cs

end

mutual

/-- Puts the condition that an action answers in the place of every leaf, from left to right. -/
def replaceLeavesM {m : Type → Type} [Monad m] (f : Leaf → m Condition) : Condition → m Condition
  | leaf l => f l
  | not c => do pure (not (← c.replaceLeavesM f))
  | branch a cs => do pure (branch a (← replaceLeavesOfM f cs))

def replaceLeavesOfM {m : Type → Type} [Monad m] (f : Leaf → m Condition) :
    List Condition → m (List Condition)
  | [] => pure []
  | c :: cs => do
    let first ← c.replaceLeavesM f
    let rest ← replaceLeavesOfM f cs
    pure (first :: rest)

end

mutual

/-- The condition that selects what this one rejects. -/
def inverse : Condition → Condition
  | leaf l => l.inverse
  | not c => c
  | branch a cs => branch a.dual (inverses cs)

def inverses : List Condition → List Condition
  | [] => []
  | c :: cs => c.inverse :: inverses cs

end

/-- Keeps the records that satisfy the condition. -/
def select (c : Condition) (records : List Record) : List Record :=
  records.filter fun r => c.holds r

def everyLeaf (c : Condition) (p : Leaf → Bool) : Bool := c.leaves.all p

def someLeaf (c : Condition) (p : Leaf → Bool) : Bool := c.leaves.any p

/-- The fields of the leaves from left to right. -/
def fields (c : Condition) : List String := c.leaves.map Leaf.field

def renameFields (f : String → String) (c : Condition) : Condition :=
  c.replaceLeaves fun l => leaf { l with field := f l.field }

/-- Puts every field under a relation. -/
def nest (name : String) (c : Condition) : Condition := c.renameFields (Path.under name)

/-- The path without its first hop, if it has more than one. -/
def dropHop (path : String) : String :=
  match Path.split? path with
  | some (_, rest) => rest
  | none => path

/-- The first field that does not go through the relation of the fields before it. -/
def strayField? (shared : Option String) : List String → Option String
  | [] => none
  | field :: rest =>
    match Path.split? field, shared with
    | some (first, _), none => strayField? (some first) rest
    | some (first, _), some expected => if first = expected then strayField? shared rest else some field
    | none, _ => some field

/-- Drops the first hop of every field. Fails when a field has only one or when they go through
different relations. -/
def unnest (c : Condition) : Except Error Condition :=
  match strayField? none c.fields with
  | some field => .error (.query (.notNested field))
  | none => .ok (c.renameFields dropHop)

/-- Joins conditions, taking apart branches of the same aggregator. -/
def join? (aggregator : Aggregator) (conditions : List Condition) : Option Condition :=
  let flat := conditions.flatMap fun
    | branch a cs => if a = aggregator then cs else [branch a cs]
    | c => [c]
  match flat with
  | [] => none
  | [c] => some c
  | cs => some (branch aggregator cs)

/-- The condition that holds where one of these does; `none` when there is none. -/
def union? (conditions : List Condition) : Option Condition := join? .or conditions

/-- The condition that holds where all of these do; `none` stands for no condition. -/
def intersect? (conditions : List (Option Condition)) : Option Condition :=
  join? .and (conditions.filterMap id)

/-- A property of all conditions follows from leaves, negations and branches. -/
theorem induct {motive : Condition → Prop} (hleaf : ∀ l, motive (leaf l))
    (hnot : ∀ c, motive c → motive (not c))
    (hbranch : ∀ a cs, (∀ c ∈ cs, motive c) → motive (branch a cs)) (c : Condition) : motive c :=
  @Condition.rec motive (fun cs => ∀ c ∈ cs, motive c) hleaf (fun c ih => hnot c ih)
    (fun a cs ih => hbranch a cs ih) (by simp) (fun c cs hc hcs => by simpa using ⟨hc, hcs⟩) c

@[simp] theorem holdsAll_eq (record : Record) (cs : List Condition) :
    holdsAll record cs = cs.all (·.holds record) := by
  induction cs with
  | nil => rfl
  | cons c cs ih => simp [holdsAll, ih]

@[simp] theorem holdsAny_eq (record : Record) (cs : List Condition) :
    holdsAny record cs = cs.any (·.holds record) := by
  induction cs with
  | nil => rfl
  | cons c cs ih => simp [holdsAny, ih]

@[simp] theorem leavesOf_eq (cs : List Condition) : leavesOf cs = cs.flatMap leaves := by
  induction cs with
  | nil => rfl
  | cons c cs ih => simp [leavesOf, ih]

@[simp] theorem replaceLeavesOf_eq (f : Leaf → Condition) (cs : List Condition) :
    replaceLeavesOf f cs = cs.map (replaceLeaves f) := by
  induction cs with
  | nil => rfl
  | cons c cs ih => simp [replaceLeavesOf, ih]

@[simp] theorem inverses_eq (cs : List Condition) : inverses cs = cs.map inverse := by
  induction cs with
  | nil => rfl
  | cons c cs ih => simp [inverses, ih]

end Condition

end QueryLayer
