import TableQuery.Compile
import TableQuery.Json.Printer
import TableQuery.Request

/-!
# The command line

The program reads conditions from a file or from its standard input and prints
the compiled expression, or with a flag the request that it is submitted as.

Everything but reading and printing is decided here. A run first checks the log
filter, then the arguments; only then the input is read. Which texts are log
filters is up to whoever filters the log, so runs are described for any answer to
that.
-/

namespace TableQuery
namespace CommandLine

/-- Why a run fails: what went wrong, and the causes behind it. -/
structure Problem where
  /-- What went wrong. -/
  message : String
  /-- The causes, the nearest one first. -/
  causes : List String
  deriving DecidableEq

namespace Problem

/-- A problem without a cause of its own. -/
def plain (message : String) : Problem := ⟨message, []⟩

/-- The lines that report a problem. -/
def report (problem : Problem) : String :=
  let causes := problem.causes.map fun cause => "    " ++ cause ++ "\n"
  "Error: " ++ problem.message ++ "\n"
    ++ if causes.isEmpty then "" else "\nCaused by:\n" ++ "".intercalate causes

end Problem

/-! ## Log filters -/

/-- The environment variable for a log filter that counts before the other. -/
def logDirectivesVariable : String := "RUST_LOG"

/-- The environment variable for a log filter. -/
def logLevelVariable : String := "LOG_LEVEL"

/-- The log filter of a run that is given none. -/
def defaultLogLevel : String := "info"

/-- Check the log filter of a run; the parser says why a text is none. Faulty
directives of the filter that counts before the other are left out, so that one
is never refused. -/
def checkLogFilter
    (parseFilter : String → Except String Unit)
    (lookup : String → Option String) : Except Problem Unit :=
  if (lookup logDirectivesVariable).isSome then .ok ()
  else
    let level := (lookup logLevelVariable).getD defaultLogLevel
    (parseFilter level).mapError fun cause =>
      ⟨"invalid log level filter: " ++ level, [cause]⟩

/-! ### Plain filters -/

/-- The names of log levels. -/
def levelNames : List String :=
  ["trace", "debug", "info", "warn", "error", "off", "0", "1", "2", "3", "4",
    "5"]

/-- Whether a text names a log level, in letters of either case. -/
def isLevel (text : List Char) : Bool :=
  levelNames.contains (String.ofList (text.map Char.toLower))

/-- Whether a text can name what a directive is about. -/
def isLogTarget (text : List Char) : Bool :=
  !text.isEmpty && text.all fun character =>
    character.isAlphanum || character == '_' || character == ':'
      || character == '-'

/-- Whether a text is one directive of a log filter: a level, a target, or a
target and its level. -/
def isDirective (text : List Char) : Bool :=
  match text.splitOn '=' with
  | [target] => isLogTarget target
  | [target, level] => isLogTarget target && isLevel level
  | _ => false

/-- The parser of plain filters, the only ones that the program knows on its own:
directives with commas between them. -/
def parsePlainFilter (text : String) : Except String Unit :=
  let directives := (text.toList.splitOn ',').filter fun directive =>
    !directive.isEmpty
  if directives.all isDirective then .ok ()
  else .error "invalid filter directive"

/-! ## Arguments -/

/-- What the arguments ask for. -/
structure Options where
  /-- Whether to print the request. -/
  wire : Bool
  /-- The file to read; the standard input if there is none. -/
  path : Option String
  deriving DecidableEq, Inhabited

namespace Options

/-- The options of a run without arguments. -/
def default : Options := ⟨false, none⟩

/-- Take in one argument. -/
def take (options : Options) (argument : String) : Except Problem Options :=
  if argument = "--wire" then .ok { options with wire := true }
  else if argument = "-" then .ok { options with path := none }
  else if argument.toList.take 2 = ['-', '-'] then
    .error (.plain ("unknown flag: " ++ argument))
  else if options.path.isSome then
    .error (.plain "more than one input path given")
  else .ok { options with path := some argument }

/-- Take in all arguments in order. -/
def ofArguments (arguments : List String) : Except Problem Options :=
  arguments.foldlM take default

end Options

/-! ## Input and output -/

/-- Why a file cannot be read. -/
inductive FileError
  /-- There is no such file. -/
  | notFound
  /-- It is a directory. -/
  | isDirectory
  /-- Anything else that the operating system reports. -/
  | other (report : String)
  deriving DecidableEq

namespace FileError

/-- The message of the operating system. -/
def message : FileError → String
  | notFound => "No such file or directory (os error 2)"
  | isDirectory => "Is a directory (os error 21)"
  | other report => report

end FileError

/-- The text of an input file, or the problem of reading it. -/
def fileText (path : String) (content : Except FileError String) :
    Except Problem String :=
  content.mapError fun error => ⟨"failed to read " ++ path, [error.message]⟩

/-- Read conditions from the input. -/
def readConditions (text : String) : Except Problem Conditions :=
  if Text.isBlankText text then .error (.plain "missing query conditions")
  else
    (Conditions.decoder.ofText text).mapError fun error =>
      ⟨"invalid query conditions", [CompileError.causeMessage error]⟩

/-- The value that is printed for a compiled expression. -/
def rendered
    (wire : Bool)
    (operation : Option Operation)
    (expression : Expression) : Json :=
  match wire, operation with
  | true, some operation => (Request.ofExpression operation expression).toJson
  | _, _ => expression.toJson

/-- The value that is printed for an input. -/
def compiled (wire : Bool) (config : Config) (text : String) :
    Except Problem Json := do
  let conditions ← readConditions text
  let expression ← (compile conditions config).mapError fun error =>
    ⟨"failed to compile query conditions", [error.message]⟩
  .ok (rendered wire conditions.operation expression)

/-- The text that is printed for an input. -/
def output (wire : Bool) (config : Config) (text : String) :
    Except Problem String := do
  let value ← compiled wire config text
  .ok (value.pretty ++ "\n")

/-- What a run is to do, as far as the environment and the arguments tell. -/
def prepare
    (parseFilter : String → Except String Unit)
    (lookup : String → Option String)
    (arguments : List String) : Except Problem Options := do
  checkLogFilter parseFilter lookup
  Options.ofArguments arguments

/-- A whole run, given the parser of log filters and what the environment, the
files and the standard input hold. -/
def runWith
    (parseFilter : String → Except String Unit)
    (lookup : String → Option String)
    (arguments : List String)
    (readFile : String → Except FileError String)
    (input : String) : Except Problem String := do
  let options ← prepare parseFilter lookup arguments
  let text ← match options.path with
    | some path => fileText path (readFile path)
    | none => .ok input
  output options.wire (Config.ofLookup lookup) text

/-- A whole run with plain log filters. -/
def run :
    (String → Option String) → List String →
      (String → Except FileError String) → String → Except Problem String :=
  runWith parsePlainFilter

end CommandLine
end TableQuery
