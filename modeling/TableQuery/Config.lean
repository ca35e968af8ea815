import TableQuery.Json.Record
import TableQuery.Text.Blank

/-!
# Configuration

The one setting is the list of index keys: attributes that back a secondary
index and therefore must not be written without a value.
-/

namespace TableQuery

/-- The settings of the compiler. -/
structure Config where
  /-- The attributes that must not be written without a value. -/
  indexKeys : List String
  deriving DecidableEq, Inhabited

namespace Config

open Json

/-- The configuration without index keys. -/
def default : Config := ⟨[]⟩

/-- The environment variable that lists the index keys. -/
def variableName : String := "DYNAMO_DB_INDEX_KEYS"

/-- The configuration for a list of index keys, if there is one. -/
def ofSetting (setting : Option String) : Config :=
  ⟨(setting.map Text.commaSeparated).getD []⟩

/-- Configuration by looking up the environment variable. -/
def ofLookup (lookup : String → Option String) : Config :=
  ofSetting (lookup variableName)

/-- Whether a field is an index key. -/
def isIndexKey (config : Config) (field : String) : Bool :=
  config.indexKeys.contains field

/-- The fields of a configuration. -/
def record : Record Config where
  name := "ExpressionConfig"
  blank := default
  fields := [
    .of "indexKeys" .required Decoder.string.list
      fun value config => { config with indexKeys := value }]

/-- The decoder of configurations. -/
def decoder : Decoder Config := record.decoder

/-- The written form of a configuration. -/
def toJson (config : Config) : Json :=
  .object [("indexKeys", .array (config.indexKeys.map .string))]

end Config

end TableQuery
