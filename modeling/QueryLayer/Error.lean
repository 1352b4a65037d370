import QueryLayer.Schema.Basic
import QueryLayer.Value.Printer

/-! # Errors

What can go wrong, by who is at fault: a query that the target schema cannot answer, sources put
together or called in the wrong way, or the exchange with a server. `Error.message` is the one place
where errors are worded.
-/
namespace QueryLayer

/-- The caller sent a query that the target schema cannot answer. -/
inductive QueryError where
  | fieldNotFound (field collection : String)
  | unexpectedFieldType (collection field found expected : String)
  | operatorNotAllowedForColumn (operator : Operator) (columnType : ColumnType) (allowed : List String)
  | unsupportedOperator (field : String) (operator : Operator)
  | valueNotAllowedForOperator (value : Value) (valueType : String) (operator : Operator)
      (allowed : List String)
  | valueNotAllowedForColumn (value : Value) (valueType : String) (columnType : ColumnType)
      (allowed : List String)
  | enumValueNotAllowed (given allowed : List String)
  | tooFewConditions (count : Nat)
  | nestedSearch
  | unknownSegment (segment collection : String)
  | notNested (field : String)
  | invalidAggregation (reason : String)
  | missingPrimaryKey (name : String)
  | invalidCompositeId (given : List Value) (expected : List String)
  | duplicatePrimaryKey (id : List Value)
  | readOnlyField (field collection : String)
deriving DecidableEq

/-- Sources were assembled or called in the wrong way. -/
inductive SetupError where
  | replacementCycle (chain : List String)
  | duplicateChart (name : String)
  | unknownChart (name : String)
  | collectionNotFound (name : String)
  | duplicateCollection (name : String)
  | unknownAction (collection action : String)
  | nullAggregator
  | nullCondition
  | invalidCondition (reason : String)
  | invalidOperatorOverride (collection reason : String)
  | invalidRename (current new reason : String)
  | unsupportedSource (kind : String)
  | unsupportedMethod (name : String)
  | missingParameter (name : String)
deriving DecidableEq

/-- The exchange with a server failed. -/
inductive TransportError where
  | request (reason : String)
  | status (code : Nat) (body : String)
  | decode (reason : String)
deriving DecidableEq

inductive Error where
  | query (e : QueryError)
  | setup (e : SetupError)
  | transport (e : TransportError)
  | notSynced (collection : String)
  | malformed (reason : String)
  | other (message : String)
deriving DecidableEq

def commas (items : List String) : String := String.intercalate "," items

def QueryError.message : QueryError → String
  | fieldNotFound field collection => s!"Field '{field}' not found on collection '{collection}'"
  | unexpectedFieldType collection field found expected =>
    s!"Unexpected field type: '{collection}.{field}' (found '{found}' expected '{expected}')"
  | operatorNotAllowedForColumn operator columnType allowed =>
    s!"The given operator '{operator.name}' is not allowed with the columnType schema: " ++
      s!"'{columnType.name}'.\nThe allowed types are: [{commas allowed}]"
  | unsupportedOperator field operator =>
    s!"The given operator '{operator.name}' is not supported by the field: '{field}'."
  | valueNotAllowedForOperator value valueType operator allowed =>
    s!"The given value attribute '{value.compact} (type: {valueType})' has an unexpected value " ++
      s!"for the given operator '{operator.name}'.\nThe allowed types of the field value are: " ++
      s!"[{commas allowed}]."
  | valueNotAllowedForColumn value valueType columnType allowed =>
    s!"The given value attribute '{value.compact} (type: {valueType})' is not allowed with the " ++
      s!"columnType schema '{columnType.name}'.\nThe allowed types are: [{commas allowed}]."
  | enumValueNotAllowed given allowed =>
    s!"The given enum value(s) [{commas given}] is not listed in [{commas allowed}]"
  | tooFewConditions count => s!"Two or more conditions needed for aggregation (got {count})"
  | nestedSearch => "Cannot nest conditions on a filter using a search or a segment"
  | unknownSegment segment collection =>
    s!"Segment '{segment}' is not declared on collection '{collection}'"
  | notNested field => s!"Cannot unnest '{field}': it is not a relation path"
  | invalidAggregation reason => s!"Invalid aggregation: {reason}"
  | missingPrimaryKey name => s!"Record is missing primary key '{name}'"
  | invalidCompositeId given expected =>
    s!"Composite id {(Value.array given).compact} does not match the primary key " ++
      s!"[{commas expected}]"
  | duplicatePrimaryKey id => s!"A record with id {(Value.array id).compact} already exists"
  | readOnlyField field collection =>
    s!"Field '{field}' of collection '{collection}' is read-only"

def SetupError.message : SetupError → String
  | replacementCycle chain => "Operator replacement cycle: " ++ String.intercalate " -> " chain
  | duplicateChart name => s!"Chart '{name}' is already defined in datasource."
  | unknownChart name => s!"Chart '{name}' is not defined in datasource."
  | collectionNotFound name => s!"Collection '{name}' not found."
  | duplicateCollection name => s!"Collection '{name}' already defined in datasource"
  | unknownAction collection action =>
    s!"Action '{action}' is not defined on collection '{collection}'"
  | nullAggregator => "Invalid (null) aggregator."
  | nullCondition => "Invalid (null) condition."
  | invalidCondition reason => s!"Invalid condition tree: {reason}"
  | invalidOperatorOverride collection reason =>
    s!"Cannot override operators on collection '{collection}': {reason}"
  | invalidRename current new reason => s!"Cannot rename '{current}' to '{new}': {reason}"
  | unsupportedSource kind => s!"Unsupported data source type: '{kind}'"
  | unsupportedMethod name => s!"Unsupported method '{name}'"
  | missingParameter name => s!"Missing RPC parameter '{name}'"

def TransportError.message : TransportError → String
  | request reason => s!"RPC request failed: {reason}"
  | status code body => s!"RPC call returned HTTP {code}: {body}"
  | decode reason => s!"Invalid RPC payload: {reason}"

def Error.message : Error → String
  | query e => e.message
  | setup e => e.message
  | transport e => e.message
  | notSynced collection =>
    s!"Collection \"{collection}\" is not synched yet. Call \"sync\" first."
  | malformed reason => s!"Serialization error: {reason}"
  | other message => message

end QueryLayer
