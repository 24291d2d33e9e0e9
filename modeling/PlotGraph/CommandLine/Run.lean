import PlotGraph.CommandLine.Console
import PlotGraph.CommandLine.Request
import PlotGraph.Graph.File
import PlotGraph.Json.Writer
import PlotGraph.Log.Setup
import PlotGraph.Options.File
import PlotGraph.Report.Wire
import PlotGraph.Validator.Logged

/-!
# Running commands

A command prints lines with markup or a table, may write a file, and ends with an exit
code: zero for success, one for an invalid graph or a file that is in the way, and two for
everything that keeps a command from being run. Some failures of the file system and of
reading a graph are no part of that and end a command line without an exit code
(`Failure`).
-/

namespace PlotGraph.CommandLine

def versionText : String := "0.1.0"

/-! ### Output -/

/-- What cuts a command short. -/
inductive Fault where
  /-- What is printed cannot be shown. -/
  | display (f : ShowFault)
  /-- A number in an event is too long for a console to show. -/
  | unshowable
  deriving DecidableEq, Repr

/-- What a command leaves behind. -/
structure Outcome where
  exitCode : Nat
  printed : List Printed := []
  /-- The text that goes out as it is. -/
  document : Option String := none
  /-- What has cut the command short before it could print anything. -/
  fault : Option Fault := none
  files : Files
  log : Log.Setup := {}

/-- Why a command line ends without an exit code. -/
inductive Failure where
  | graph (e : GraphFile.Failure)
  | inaccessible (e : Files.Failure)
  deriving DecidableEq, Repr

def styled (style text : String) : String := "[" ++ style ++ "]" ++ text ++ "[/" ++ style ++ "]"

def errorLine (message : String) : Printed := .markup (styled "red" "Error:" ++ " " ++ message)

/-! ### Reports -/

def row (style level code : String) (target : Option String) (message : String) : List String :=
  [styled style level, code, target.getD "", message]

/-- What a finding is about: a node, or else a connection. -/
def targetOf (nodeId connectionId : Option String) : Option String :=
  match nodeId.filter fun s => !s.isEmpty with
  | some id => some id
  | none => connectionId

def rows (r : Report) : List (List String) :=
  r.errors.map (fun d =>
      row "red" d.severity.word d.code (targetOf d.nodeId d.connectionId) d.plainMessage)
    ++ r.warnings.map (fun w =>
      row "yellow" "warning" w.code (targetOf w.nodeId w.connectionId) w.plainMessage)
    ++ r.notes.map (fun n => row "blue" "info" n.code n.nodeId n.message)
    ++ r.suggestions.map (fun s => row "cyan" "suggestion" s.kind.word s.nodeId s.message)

def verdict (r : Report) : Printed :=
  .markup ((if r.valid then styled "green" "✓ Valid" else styled "red" "✗ Invalid")
    ++ " (" ++ r.summary ++ ")")

def tableOf (r : Report) : Table where
  title := "Logic validation"
  columns := ["Level", "Code", "Target", "Message"]
  rows := rows r

/-- A report as it is printed: the table, unless it is empty, and the verdict. -/
def printReport (r : Report) : List Printed :=
  (if (rows r).isEmpty then [] else [.table (tableOf r)]) ++ [verdict r]

def document (r : Report) : String := Json.pretty r.toValue ++ "\n"

/-! ### Commands -/

def tellVersion (files : Files) (log : Log.Setup) : Outcome :=
  { exitCode := 0, printed := [.markup ("StoryLogic v" ++ versionText)], files, log }

def initConfig (files : Files) (log : Log.Setup) (p : Path) (force : Bool) :
    Except Files.Failure Outcome := do
  if (← files.contains p) && !force then
    return {
      exitCode := 1, files, log
      printed := [errorLine (p.text ++ " already exists (use --force to overwrite)")] }
  else
    return {
      exitCode := 0, log
      files := ← ConfigFile.writeDefault files p
      printed := [.markup
        (styled "green" "✓" ++ " Wrote default config to " ++ styled "bold" p.text)] }

def configVariable : String := "STORYLOGIC_CONFIG"

/-- The configuration file to read: the given one, or that of the environment. -/
def configPath (env : ConfigFile.Environment) (given : Option Path) : Option Path :=
  given <|> (ConfigFile.given? env configVariable).map Path.ofText

/-- The options in force before anything replaces them: those of the configuration file, or
of the default file if it exists, or else the defaults. -/
def loadOptions (files : Files) (env : ConfigFile.Environment) (given : Option Path) :
    Except ConfigFile.Failure Options := do
  match configPath env given with
  | some p => ConfigFile.load files env p
  | none =>
    let p := Path.ofText defaultConfigName
    if ← (files.contains p).mapError .inaccessible then ConfigFile.load files env p
    else return {}

def validateEvent (p : Path) (o : Options) : Log.Event where
  logger := "storylogic.cli"
  level := .debug
  message := "cli_validate"
  fields := [("graph_file", .str p.text), ("options", o.toValue)]

/-- Whether the event that precedes a validation can be shown: its limits are the only numbers of
a command line that may be too long for that. -/
def isAnnounced (o : Options) : Bool := Limit.all.all fun l => Decimal.isShowable (o.limit l)

/-- Whether a validation is cut short, as its first event is shown on the console and cannot be. -/
def isCutShort (log : Log.Setup) (o : Options) : Bool :=
  log.isShown "storylogic.cli" Log.Level.debug.number && !isAnnounced o

/-- Log what precedes a validation. An event with a number that is too long is lost. -/
def announce (log : Log.Setup) (p : Path) (o : Options) (g : Graph) : Log.Setup :=
  log.emitAll (GraphFile.loadedEvent p g :: if isAnnounced o then [validateEvent p o] else [])

def report (files : Files) (log : Log.Setup) (v : Validation) (o : Options) (g : Graph) :
    Outcome :=
  let log' := announce log v.graph o g
  if isCutShort log o then { exitCode := 1, fault := some .unshowable, files, log := log' }
  else
    let (result, scope) := Validator.validateIn {} { setup := log' } g o .nothing false
    let r := result.report
    { exitCode := if r.valid then 0 else 1
      printed := if v.asJson then [] else printReport r
      document := if v.asJson then some (document r) else none
      files
      log := scope.setup }

def failed (files : Files) (log : Log.Setup) (message : String) : Outcome :=
  { exitCode := 2, printed := [errorLine message], files, log }

/-- Load the options and the graph, and validate it. A fault that is not reported with the
path of a file is passed on. -/
def validate (files : Files) (env : ConfigFile.Environment) (log : Log.Setup)
    (v : Validation) : Except Failure Outcome :=
  match loadOptions files env v.config with
  | .error (.load e) => .ok (failed files log e.message)
  | .error (.inaccessible e) => .error (.inaccessible e)
  | .ok o =>
    match GraphFile.load files v.graph with
    | .ok g => .ok (report files log v (o.override v.overrides) g)
    | .error (.fault p f) => .ok (failed files log (GraphFile.loadMessage p (f.message p)))
    | .error e => .error (.graph e)

def Command.run (c : Command) (files : Files) (env : ConfigFile.Environment)
    (log : Log.Setup) : Except Failure Outcome :=
  match c with
  | .version => .ok (tellVersion files log)
  | .initConfig p force => (CommandLine.initConfig files log p force).mapError .inaccessible
  | .validate v => CommandLine.validate files env log v

/-- Do what the words after the name of a command ask for. -/
def CommandRequest.run (r : CommandRequest) (files : Files) (env : ConfigFile.Environment)
    (log : Log.Setup) : Except Failure Outcome :=
  match r with
  | .help => .ok { exitCode := 0, files, log }
  | .misuse => .ok { exitCode := 2, files, log }
  | .command c => c.run files env log

/-- The setup of logging that an invocation asks for. -/
def Invocation.setUp (i : Invocation) (files : Files) :
    Except Files.Failure (Log.Setup × Files) :=
  match i.logDir with
  | none => .ok (({} : Log.Setup).toConsole i.verbosity, files)
  | some dir => ({} : Log.Setup).toFile files i.verbosity dir

/-- Set up logging, and do what the words after the name of the command ask for. -/
def Invocation.run (i : Invocation) (files : Files) (env : ConfigFile.Environment) :
    Except Failure Outcome := do
  let (log, files) ← (i.setUp files).mapError .inaccessible
  i.request.run files env log

def CommandRequest.paths (r : CommandRequest) (env : ConfigFile.Environment) : List Path :=
  match r with
  | .help | .misuse | .command .version => []
  | .command (.initConfig p _) => [p]
  | .command (.validate v) =>
    [v.graph, .ofText defaultConfigName] ++ (configPath env v.config).toList

def Request.paths (r : Request) (env : ConfigFile.Environment) : List Path :=
  match r with
  | .help | .misuse => []
  | .invocation i => (i.logDir.map Log.logFile).toList ++ i.request.paths env

def variableNames : List String := configVariable :: ConfigFile.overrides.map Prod.fst

def Request.run (r : Request) (files : Files) (env : ConfigFile.Environment) :
    Except Failure Outcome :=
  match r with
  | .help => .ok { exitCode := 0, files }
  | .misuse => .ok { exitCode := 2, files }
  | .invocation i => i.run files env

/-! ### The end of a command line -/

/-- How a command line ends: the exit status, what it has written, and what has cut it short. -/
structure Ending where
  status : Nat
  written : String := ""
  fault : Option Fault := none
  deriving DecidableEq

/-- Show one thing after the other on a console, up to the first that cannot be shown. -/
def Console.displayAll (c : Console) : List Printed → String × Option ShowFault
  | [] => ("", none)
  | p :: rest =>
    match c.display p with
    | .error f => ("", some f)
    | .ok text =>
      let (more, fault) := c.displayAll rest
      (text ++ more, fault)

def Console.writeAny (c : Console) : Option String → Except ShowFault String
  | none => .ok ""
  | some text => c.write text

/-- How a command ends on a console. What cuts it short makes its exit status one. -/
def Outcome.ending (o : Outcome) (c : Console) : Ending :=
  match o.fault with
  | some f => { status := 1, fault := some f }
  | none =>
    match c.displayAll o.printed with
    | (shown, some f) => { status := 1, written := shown, fault := some (.display f) }
    | (shown, none) =>
      match c.writeAny o.document with
      | .error f => { status := 1, written := shown, fault := some (.display f) }
      | .ok text => { status := o.exitCode, written := shown ++ text }

/-- How a command line ends on a console. Where it ends without an exit code, the status is
one. -/
def endingOf (c : Console) : Except Failure Outcome → Ending
  | .error _ => { status := 1 }
  | .ok o => o.ending c

end PlotGraph.CommandLine
