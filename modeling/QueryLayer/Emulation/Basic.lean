import QueryLayer.Action.Together
import QueryLayer.Emulation.Registration
import QueryLayer.Query.Identity

/-! # Emulated operators

A source that answers operators its child cannot. Before a filter goes to the child, every leaf with
a registered operator is replaced: by the condition its replacer gives, whose own leaves are replaced
in turn, or, by brute force, by a condition on the ids of the records that satisfy the leaf. A chain
of the replacements in progress keeps a replacement from running into itself, which also bounds the
nesting by the number of registrations. The conditions of a branch are replaced together.
-/
namespace QueryLayer

namespace Condition

variable {σ : Type}

mutual

/-- Puts the condition that an action answers in the place of every leaf; the actions of a branch run
together. -/
def replaceLeavesTogether (f : Leaf → Action σ Condition) : Condition → Action σ Condition
  | leaf l => f l
  | not c => do pure (not (← c.replaceLeavesTogether f))
  | branch a cs => do pure (branch a (← Action.together (leafReplacements f cs)))

def leafReplacements (f : Leaf → Action σ Condition) : List Condition → List (Action σ Condition)
  | [] => []
  | c :: cs => c.replaceLeavesTogether f :: leafReplacements f cs

end

@[simp] theorem leafReplacements_eq (f : Leaf → Action σ Condition) (cs : List Condition) :
    leafReplacements f cs = cs.map (replaceLeavesTogether f) := by
  induction cs with
  | nil => rfl
  | cons c cs ih => simp [leafReplacements, ih]

end Condition

/-- Gives a condition equivalent to an operator with this value, or none to have the leaf answered by
brute force. It may query the source that the operator belongs to. -/
abbrev Replacer (σ : Type) := Value → Source σ → Action σ (Option Condition)

inductive EmulationRule (σ : Type) where
  | bruteForce
  | replace (replacer : Replacer σ)

/-- What a rule answers for a value; `none` stands for brute force. -/
def EmulationRule.equivalent {σ : Type} (rule : EmulationRule σ) (decorated : Unit → Source σ) (v : Value) :
    Action σ (Option Condition) :=
  match rule with
  | .bruteForce => pure none
  | .replace replacer => replacer v (decorated ())

/-- A source with registered operators on top. -/
structure Emulation (σ : Type) where
  child : Source σ
  registrations : Registrations (EmulationRule σ)

namespace Emulation

variable {σ : Type}

def ofSource (child : Source σ) : Emulation σ := ⟨child, ∅⟩

/-- The schema of a member, with the registered operators added to their columns. -/
def schema (e : Emulation σ) (c : Collection σ) : CollectionSchema :=
  { c.schema with
    fields := c.schema.fields.mapEntries fun f =>
      match f.2 with
      | .column column =>
        .column (column.withOperators
          (((e.registrations.of c.name).filter fun r => r.field = f.1).map Registration.operator))
      | .relation r => .relation r }

def catalog (e : Emulation σ) : Catalog := fun name => (e.child.collection? name).map e.schema

def scope (e : Emulation σ) (c : Collection σ) : Scope := ⟨c.name, e.schema c, e.catalog⟩

/-- Whether operators can be registered for a field: ids have to be usable in conditions, and the
field has to be a column. -/
def checkRegistration (c : Collection σ) (field : String) : Except Error Unit := do
  let refuse (reason : String) : Except Error Unit :=
    .error (.setup (.invalidOperatorOverride c.name reason))
  let keys := c.schema.primaryKeys
  let usable := !keys.isEmpty && keys.all fun pk =>
    (c.schema.column? pk).any fun column =>
      column.filterOperators.contains .equal && column.filterOperators.contains .oneOf
  if !usable then refuse "the primary key columns must support 'equal' and 'in' operators"
  match c.schema.fields.get? field with
  | some (.column _) => pure ()
  | some (.relation _) => refuse "Cannot replace operator for relation"
  | none => throw (.query (.fieldNotFound field c.name))

def register (e : Emulation σ) (collection field : String) (operator : Operator)
    (rule : EmulationRule σ) : Except Error (Emulation σ) := do
  let c ← e.child.collection collection
  checkRegistration c field
  pure { e with registrations := e.registrations.add collection ⟨field, operator, rule⟩ }

/-- The condition on the ids of the records that satisfy a leaf, found by reading all of them. -/
def bruteForce (caller : Caller) (c : Collection σ) (l : Leaf) : Action σ Condition := do
  let needed := (Projection.primaryKeysOf c.schema).union l.projection
  let records ← c.list caller .empty needed
  Condition.matchRecords c.schema (records.filter l.holds)

/-- A condition that the child can answer in the place of a leaf. Replacers see `decorated`; `chain`
lists the replacements in progress, the outermost first. -/
def replaceLeaf (e : Emulation σ) (decorated : Unit → Source σ) (caller : Caller) (c : Collection σ)
    (l : Leaf) (chain : List String) : Action σ Condition :=
  match hsplit : Path.split? l.field with
  | some (first, rest) =>
    match c.schema.relation? first with
    | some r => do
      have : (Path.hops rest).length < (Path.hops l.field).length := by
        simp [Path.hops_of_split? hsplit]
      let foreign ← e.child.collection r.foreignCollection
      let replaced ← replaceLeaf e decorated caller foreign { l with field := rest } chain
      pure (replaced.nest first)
    | none => pure (.leaf l)
  | none =>
    match hfind : e.registrations.find? c.name l.field l.operator with
    | some r =>
      let label := Registration.label c.name l.field l.operator
      if hcycle : label ∈ chain then throw (.setup (.replacementCycle (chain ++ [label])))
      else do
        have := Registrations.unused_lt (Registrations.label_mem_labels hfind) hcycle
        match ← r.rule.equivalent decorated l.value with
        | some condition =>
          let replaced ← condition.replaceLeavesTogether fun inner =>
            replaceLeaf e decorated caller c inner (chain ++ [label])
          (e.scope c).checkCondition replaced
          pure replaced
        | none => bruteForce caller c l
    | none => pure (.leaf l)
termination_by (e.registrations.unused chain, (Path.hops l.field).length)
decreasing_by
  · exact Prod.Lex.right _ this
  · exact Prod.Lex.left _ _ this

/-- The filter that goes to the child; the given one has to fit what the collection advertises. -/
def refine (e : Emulation σ) (decorated : Unit → Source σ) (caller : Caller) (c : Collection σ)
    (f : Filter) : Action σ Filter := do
  match f.condition with
  | some condition =>
    (e.scope c).checkCondition condition
    let refined ← condition.replaceLeavesTogether fun l => e.replaceLeaf decorated caller c l []
    pure { f with condition := some refined }
  | none => pure f

/-- A member with its emulated operators. -/
def collection (e : Emulation σ) (decorated : Unit → Source σ) (c : Collection σ) :
    Collection σ where
  toScope := e.scope c
  list caller filter projection := do
    let refined ← e.refine decorated caller c filter.toFilter
    c.list caller { refined with sort := filter.sort, page := filter.page } projection
  create := c.create
  update caller filter patch := do
    let refined ← e.refine decorated caller c filter
    c.update caller refined patch
  delete caller filter := do
    let refined ← e.refine decorated caller c filter
    c.delete caller refined
  aggregate caller filter aggregation limit := do
    let refined ← e.refine decorated caller c filter
    c.aggregate caller refined aggregation limit
  execute caller action values filter := do
    let refined ← e.refine decorated caller c filter
    c.execute caller action values refined
  getForm caller action values filter := do
    let refined ← filter.mapM (e.refine decorated caller c)
    c.getForm caller action values refined

/-- The source with its emulated operators, replacers seeing `decorated`. -/
def sourceWith (e : Emulation σ) (decorated : Unit → Source σ) : Source σ where
  collections := e.child.members.values.map (e.collection decorated)
  charts := e.child.charts
  renderChart := e.child.renderChart

/-- The source as replacers see it while `depth` more of them may query it from within each other. -/
def nested (e : Emulation σ) : (depth : Nat) → Source σ
  | 0 => .empty
  | depth + 1 => e.sourceWith fun _ => e.nested depth

/-- How deep replacers may query the source from within each other. -/
def maxDepth : Nat := 1000

def source (e : Emulation σ) : Source σ := e.nested (maxDepth + 1)

end Emulation

end QueryLayer
