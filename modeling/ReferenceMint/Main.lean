import ReferenceMint.CommandLine.Commands

/-!
# The command line program

Reads the environment and the files that an invocation names, carries the invocation out, writes its
output, and puts the database back. What is read and written here decides nothing.
-/

namespace ReferenceMint.Main

open CommandLine

/-- The variables that stand in for options. -/
def variableNames : List String := rootOptions.filterMap OptionSpec.environmentName

/-- The values of the variables that are set. -/
def environment : IO Environment :=
  variableNames.filterMapM fun name => do
    return (← IO.getEnv name).map fun value => (name, value)

/-- Whether a path names a directory: it leads on to itself. -/
def isDirectory (name : String) : IO Bool := do
  try
    let _ ← IO.FS.Handle.mk (name ++ "/.") .read
    return true
  catch _ => return false

/-- The contents of a file that is there; `none` if it is not. -/
def contentOf (name : String) : IO (Option Content) := do
  try
    let data ← IO.FS.readBinFile name
    return some <| match String.fromUTF8? data with
      | none => .other
      | some text =>
        match Store.DatabaseFile.ofText? text with
        | some file => .database file
        | none => .text text
  catch _ => return none

/-- What stands under a path. -/
def load (path : Path) : IO Workspace := do
  match path.text? with
  | none => return []
  | some name =>
    if ← isDirectory name then return [(path, .directory)]
    match ← contentOf name with
    | some content => return [(path, content)]
    | none => return []

/-- The paths that the names in an invocation lead through. -/
def pathsOf (i : Invocation) : List Path :=
  Workspace.databaseStages i.database ++
    match i.command with
    | .backfill _ input => Path.stages (Text.bytes input)
    | _ => []

/-- Writes the files that are no longer what they were. -/
def save (before after : Workspace) : IO Unit := do
  for (path, content) in after do
    if before.get? path ≠ some content then
      match path.text?, content with
      | some name, .database file => IO.FS.writeFile name file.text
      | some name, .text s => IO.FS.writeFile name s
      | _, _ => pure ()

/-- Writes the failure of a command. -/
def report (e : CommandError) : IO Unit := do
  IO.eprintln ("Error: " ++ e.message)
  for cause in e.causes do
    IO.eprintln ("Caused by: " ++ cause)

/-- Carries out an invocation and gives the exit code. -/
def carryOutWithFiles (i : Invocation) : IO UInt32 := do
  let files := (← (pathsOf i).mapM load).flatten
  let result := carryOut i files
  IO.print result.output
  save files result.files
  match result.error with
  | some e => do
    report e
    return 1
  | none => return 0

/-- What is said to somebody whose command line is not carried out. -/
def refusalText : Refusal → String
  | .invalidNumber => "a value is no number of its range"
  | .invalidValue => "a value is missing or not possible"
  | .unknownArgument => "unknown argument"
  | .surplusValue => "an option without value has a value"
  | .missingArgument => "a required argument is missing"
  | .unknownCommand => "unknown command"
  | .repeatedOption => "an option is given twice"
  | .nothingGiven | .missingCommand => "a command is missing"
  | .help => "commands: " ++ String.intercalate ", " commandNames
  | .version => "clientref"

/-- Says why a command line is not carried out and gives the exit code. -/
def refuse (r : Refusal) : IO UInt32 := do
  if r.exitCode = 0 then IO.println (refusalText r) else IO.eprintln ("error: " ++ refusalText r)
  return UInt32.ofNat r.exitCode

/-- Carries out a command line and gives the exit code. -/
def run (words : List String) : IO UInt32 := do
  match invocation (← environment) words with
  | .ok i => carryOutWithFiles i
  | .error r => refuse r

end ReferenceMint.Main

/-- Carries out a command line. -/
def main (words : List String) : IO UInt32 := ReferenceMint.Main.run words
