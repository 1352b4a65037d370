import QueryLayer.Emulation.Basic
import QueryLayer.Wire.Query

/-! # Replacers as data

Replacers that need no code: they fill the value of the leaf into a template.
-/
namespace QueryLayer

inductive ReplacerTemplate where
  /-- Fails with a message. -/
  | fail (message : String)
  /-- Leaves every leaf to brute force. -/
  | nothing
  /-- Fills in a condition. -/
  | condition (template : Value)
  /-- Reads `select` from the records that a filter selects in a collection, and requires `into` to be
  among these values. -/
  | lookup (collection : String) (filter : Value) (select into : String)

namespace ReplacerTemplate

def replacer {σ : Type} : ReplacerTemplate → Replacer σ
  | fail message => fun _ _ => throw (.other message)
  | nothing => fun _ _ => pure none
  | condition template => fun v _ => Action.ofExcept (Condition.ofTemplate? template v)
  | lookup collection filter select into => fun v source => do
    let c ← source.collection collection
    let filter ← (PaginatedFilter.decode (Template.fill v filter)).mapError Error.malformed
    let records ← c.list default filter (.ofList [select])
    pure (some (.leaf ⟨into, .oneOf, .array (records.map fun r => r.value select)⟩))

def decode : Wire.Decoder ReplacerTemplate := Wire.namedOnly do
  let message ← Wire.maybe "fail" Wire.text
  let nothing ← Wire.maybe "none" Wire.flag
  let tree ← Wire.take? "tree"
  let lookup ← Wire.maybe "lookup" (Wire.namedOnly do
    let collection ← Wire.required "collection" Wire.text
    let filter ← Wire.optional "filter" Wire.raw (.object [])
    let select ← Wire.required "select" Wire.text
    let into ← Wire.required "into" Wire.text
    pure (ReplacerTemplate.lookup collection filter select into))
  match message, nothing, tree, lookup with
  | some message, _, _, _ => pure (fail message)
  | none, some true, _, _ => pure ReplacerTemplate.nothing
  | none, _, some template, _ => pure (condition template)
  | none, _, none, some l => pure l
  | none, _, none, none => throw "a replacer needs one of 'fail', 'none', 'tree' and 'lookup'"

end ReplacerTemplate

end QueryLayer
