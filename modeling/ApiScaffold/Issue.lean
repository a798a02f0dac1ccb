import ApiScaffold.Record

/-!
# Defects of a document

An `Issue` says where a document breaks a rule and which one.
-/

namespace ApiScaffold

/-- A schema, or an operation by its path and its method in capitals. -/
inductive Place where
  | schema (name : String)
  | operation (path method : String)
  deriving DecidableEq

def Place.name : Place → String
  | .schema name => "schema:" ++ name
  | .operation path method => path ++ " → " ++ method

inductive Problem where
  | malformedExtension (error : Record.Error)
  | missingRole
  | unknownRole (given : String)
  | blankRelation
  | indexWithoutFields
  | blankQuery (name : String)
  | methodWithoutName
  | unknownReturns (method given : String)
  | tagCount (found : Nat)
  | missingOperationId
  | missingSummary
  | parameterWithoutName
  | unsupportedLocation (parameter location : String)
  | repeatedOperationId (id : String) (before : Place)

namespace Problem

def kind : Problem → String
  | malformedExtension _ => "x_codegen_decode"
  | missingRole => "x_codegen_type"
  | unknownRole _ => "x_codegen_type"
  | blankRelation => "x_codegen_relation"
  | indexWithoutFields => "x_codegen_index"
  | blankQuery _ => "x_codegen_query"
  | methodWithoutName => "x_codegen_method"
  | unknownReturns _ _ => "x_codegen_returns"
  | tagCount _ => "operation_tags"
  | missingOperationId => "missing_operation_id"
  | missingSummary => "missing_summary"
  | parameterWithoutName => "parameter_name"
  | unsupportedLocation _ _ => "parameter_location"
  | repeatedOperationId _ _ => "duplicate_operation_id"

def message : Problem → String
  | malformedExtension e => "malformed x-codegen extension: " ++ e.message
  | missingRole => "x-codegen.type is required"
  | unknownRole given => s!"invalid x-codegen.type '{given}', expected entity or valueobject"
  | blankRelation => "database relation needs both field and references"
  | indexWithoutFields => "database index declares no fields"
  | blankQuery name => s!"database query '{name}' has empty sql"
  | methodWithoutName => "additional method has an empty name"
  | unknownReturns method given =>
    s!"additional method '{method}' has invalid returns '{given}', "
      ++ "expected one of single, multiple, void, exists, count"
  | tagCount found => s!"operation must have exactly one tag, found {found}"
  | missingOperationId => "operationId must be present and non-empty"
  | missingSummary => "summary must be present and non-empty"
  | parameterWithoutName => "parameter is missing a name"
  | unsupportedLocation parameter location =>
    s!"parameter `{parameter}` has unsupported location `{location}`"
  | repeatedOperationId id before => s!"operationId `{id}` is already used by {before.name}"

end Problem

structure Issue where
  place : Place
  problem : Problem

/-- One line: kind, place, message. -/
def Issue.line (i : Issue) : String := s!"[{i.problem.kind}] {i.place.name}: {i.problem.message}"

end ApiScaffold
