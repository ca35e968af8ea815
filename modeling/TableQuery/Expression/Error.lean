import TableQuery.Json.Mismatch

/-!
# Why conditions do not compile

Every cause is a fault of the conditions. Each has one message.
-/

namespace TableQuery

/-- Why conditions do not compile, or an expression does not verify. -/
inductive CompileError
  /-- There are no conditions at all. -/
  | missingConditions
  /-- The conditions cannot be read. -/
  | invalidConditions (cause : Json.ReadError)
  /-- The table is missing. -/
  | missingTableName
  /-- The criteria are missing. -/
  | missingCriteria
  /-- The operation is missing. -/
  | missingOperation
  /-- No criterion is marked as the primary key. -/
  | missingPrimaryKey
  /-- More than one criterion is marked as the primary key. -/
  | multiplePrimaryKeys (first second : String)
  /-- The criteria use a logical operator that cannot be compiled. -/
  | unsupportedOperator (name : String)
  /-- An update neither writes nor removes. -/
  | missingEdits
  /-- No field is left to write. -/
  | emptyUpdate
  /-- No field is left to remove. -/
  | emptyRemove
  /-- A field is to be written without a value. -/
  | missingValue (field : String)
  /-- A list position is negative. -/
  | invalidListIndex (field : String) (index : Int64)
  /-- A field claims the placeholder of the empty list. -/
  | reservedPlaceholder (field placeholder : String)
  /-- A name cannot be part of an alias. -/
  | invalidFieldName (name : String)
  /-- An update has neither a part that writes nor one that removes. -/
  | missingUpdateFragments
  /-- An alias stands for nothing. -/
  | unresolvedName (token : String)
  /-- A placeholder stands for nothing. -/
  | unresolvedValue (placeholder : String)
  /-- No fragment uses an alias. -/
  | unusedName (token : String)
  /-- No fragment uses a placeholder. -/
  | unusedValue (placeholder : String)
  deriving DecidableEq

namespace CompileError

/-- The message of a read error. Defects of the form have none of their own. -/
def causeMessage : Json.ReadError → String
  | .mismatch mismatch => mismatch.message
  | .defect .malformed => "malformed text"
  | .defect .truncated => "truncated text"

/-- The message of an error. -/
def message : CompileError → String
  | missingConditions => "Missing query conditions"
  | invalidConditions cause => "Invalid query conditions: " ++ causeMessage cause
  | missingTableName => "Missing tableName in query conditions"
  | missingCriteria => "Query conditions is missing where clause"
  | missingOperation => "Missing operation type in query conditions"
  | missingPrimaryKey => "Missing primary key in where clause"
  | multiplePrimaryKeys first second =>
      "Multiple primary keys in where clause: " ++ first ++ ", " ++ second
  | unsupportedOperator name => "Unsupported where operator: " ++ name
  | missingEdits => "Missing update or remove section for an update operation"
  | emptyUpdate => "Missing update properties and values"
  | emptyRemove => "Missing remove properties and values"
  | missingValue field => "Missing value property for key: " ++ field
  | invalidListIndex field index =>
      "Invalid list index " ++ Number.intText index.toInt
        ++ " for key: " ++ field
  | reservedPlaceholder field placeholder =>
      "Field " ++ field ++ " collides with reserved placeholder " ++ placeholder
  | invalidFieldName name => "Invalid field name: " ++ Text.quoted name
  | missingUpdateFragments => "Missing update expressions"
  | unresolvedName token => "Unresolved expression attribute name: " ++ token
  | unresolvedValue placeholder =>
      "Unresolved expression attribute value: " ++ placeholder
  | unusedName token =>
      "Value provided in ExpressionAttributeNames unused in expressions: "
        ++ token
  | unusedValue placeholder =>
      "Value provided in ExpressionAttributeValues unused in expressions: "
        ++ placeholder

end CompileError

end TableQuery
