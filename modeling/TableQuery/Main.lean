import TableQuery.CommandLine

/-!
# The program

The outer layer of the command line: it looks up the environment, reads the
input, prints the output and reports problems.
-/

namespace TableQuery

open CommandLine

/-- The text of a file, or why it cannot be read. -/
def readInputFile (path : String) : IO (Except FileError String) := do
  try
    let text ← IO.FS.readFile path
    return .ok text
  catch error =>
    match error with
    | .noFileOrDirectory .. => return .error .notFound
    | .inappropriateType .. => return .error .isDirectory
    | error => return .error (.other error.toString)

/-- The text of the input that the options ask for. -/
def readInput (options : Options) : IO (Except Problem String) := do
  match options.path with
  | some path => return fileText path (← readInputFile path)
  | none => return .ok (← (← IO.getStdin).readToEnd)

/-- Report a problem and give the exit code of a failed run. -/
def fail (problem : Problem) : IO UInt32 := do
  (← IO.getStderr).putStr problem.report
  return 1

/-- The environment, as far as a run looks into it. -/
def readEnvironment : IO (String → Option String) := do
  let names := [logDirectivesVariable, logLevelVariable, Config.variableName]
  let held ← names.mapM fun name => return (name, ← IO.getEnv name)
  return fun name => (held.lookup name).join

/-- Run with the given arguments and give the exit code. -/
def runProgram (arguments : List String) : IO UInt32 := do
  let lookup ← readEnvironment
  match prepare parsePlainFilter lookup arguments with
  | .error problem => fail problem
  | .ok options =>
      match ← readInput options with
      | .error problem => fail problem
      | .ok text =>
          match output options.wire (Config.ofLookup lookup) text with
          | .error problem => fail problem
          | .ok printed =>
              (← IO.getStdout).putStr printed
              return 0

end TableQuery

/-- The entry point of the program. -/
def main (arguments : List String) : IO UInt32 :=
  TableQuery.runProgram arguments
