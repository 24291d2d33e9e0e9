import PlotGraph.CommandLine.Run

/-!
# The program

Reads the files and the variables that a command line may need, runs the command, and writes
out what it leaves behind.
-/

namespace PlotGraph.CommandLine

/-- What stands at a path of the file system, if anything does. -/
def entryAt (p : Path) : IO (Option FileEntry) := do
  try
    return some (.file (← IO.FS.readBinFile p.text).toList)
  catch
    | .noFileOrDirectory .. => return none
    | .inappropriateType .. => return some .directory
    | e => throw e

/-- What stands at the places on a way, as long as it goes through directories. -/
def entriesAlong : List Path → IO (List (Path × FileEntry))
  | [] => return []
  | p :: rest => do
    match ← entryAt p with
    | none => return []
    | some .directory => return (p, .directory) :: (← entriesAlong rest)
    | some (.file bytes) => return [(p, .file bytes)]

/-- The files at some paths, and what stands on the way to them. -/
def filesAt (paths : List Path) : IO Files := do
  return { entries := .ofList (← paths.mapM fun p => entriesAlong p.places).flatten }

def environment : IO ConfigFile.Environment := do
  let found ← variableNames.filterMapM fun name =>
    return (← IO.getEnv name).map fun raw => (name, raw)
  return .ofList found

/-- Write out the files that a command has changed. -/
def saveFiles (before after : Files) : IO Unit := do
  for (p, entry) in after.entries.entries do
    if before.entries.get? p ≠ some entry then
      match entry with
      | .directory => IO.FS.createDirAll p.text
      | .file bytes => IO.FS.writeBinFile p.text ⟨bytes.toArray⟩

/-- Add the lines of the log to its files. -/
def saveLog (log : Log.Setup) : IO Unit := do
  for (p, lines) in log.journal.entries do
    let handle ← IO.FS.Handle.mk p.text .append
    for line in lines do
      handle.putStrLn (Json.line line)

/-- What a fault of a text with markup says. -/
def ShowFault.message : ShowFault → String
  | .unmatched t => "the tag '" ++ t.name ++ "' closes a style that is not open"
  | .nothingToClose => "a tag closes a style, and none is open"
  | .senseless t => "the tag '" ++ t.name ++ "' makes no sense"
  | .argument text => "the action '" ++ text ++ "' cannot be read"
  | .unwritable _ => "a character cannot be written"

/-- What it says that a command has been cut short. -/
def Fault.message : Fault → String
  | .display f => f.message
  | .unshowable => Decimal.unshowableMessage

/-- The message for a fault of a graph that no command reports. -/
def graphFailureMessage : GraphFile.Failure → String
  | .fault p f => GraphFile.loadMessage p (f.message p)
  | .undecodable e => e.message
  | .tooManyDigits n => (Json.ReadError.tooManyDigits n).message
  | .refused _ => "The graph cannot be represented"
  | .inaccessible e => e.message

/-- The message for a fault that no command reports. -/
def Failure.message : Failure → String
  | .graph e => graphFailureMessage e
  | .inaccessible e => e.message

def finish (before : Files) (result : Except Failure Outcome) : IO UInt32 := do
  let ending := endingOf .terminal result
  match result with
  | .ok o =>
    saveFiles before o.files
    saveLog o.log
    IO.print ending.written
    if let some fault := ending.fault then
      IO.eprintln fault.message
  | .error e => IO.eprintln e.message
  return ending.status.toUInt32

def usage : List String :=
  ["Usage: storylogic [-v] [--log DIR] COMMAND",
   "  version",
   "  init-config [PATH] [--force]",
   "  validate GRAPH [--config FILE] [--no-cycles] [--no-dead-code] [--no-reachability]",
   "    [--no-types] [--no-performance] [--max-nodes N] [--max-connections N] [--max-depth N]",
   "    [--json]"]

/-- Tell how the command line is used, if the request calls for it. -/
def Request.explain : Request → IO Unit
  | .help | .invocation { request := .help, .. } => usage.forM IO.println
  | .misuse | .invocation { request := .misuse, .. } => usage.forM IO.eprintln
  | .invocation { request := .command _, .. } => pure ()

end PlotGraph.CommandLine

open PlotGraph.CommandLine in
def main (words : List String) : IO UInt32 := do
  let env ← environment
  let request := Request.ofWords words
  request.explain
  let files ← filesAt (request.paths env)
  finish files (request.run files env)
