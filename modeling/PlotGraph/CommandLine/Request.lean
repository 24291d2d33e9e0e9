import PlotGraph.CommandLine.Arguments
import PlotGraph.Files
import PlotGraph.Options

/-!
# Requests on the command line

There are three commands: to tell the version, to write a configuration file, and to
validate a graph. Before the command stand the options that concern logging. Asking for
help comes before all else that is wrong with operands and values.

A command line is read in two steps. Once the command is known by its name, logging is set
up; only then do the words after the name count, so that an invocation may still turn out
to ask for help or to misuse its command.
-/

namespace PlotGraph.CommandLine

/-- The name of the configuration file that is read and written by default. -/
def defaultConfigName : String := "storylogic.yaml"

/-! ### Commands -/

/-- What is asked of a validation: the graph, where the options are, what replaces them, and
whether the report is wanted as JSON. -/
structure Validation where
  graph : Path
  config : Option Path := none
  overrides : Options.Overrides := {}
  asJson : Bool := false

inductive Command where
  | version
  | initConfig (path : Path) (force : Bool)
  | validate (v : Validation)

/-- What the words after the name of a command ask for. -/
inductive CommandRequest where
  | help
  | misuse
  | command (c : Command)

/-- A known command with the options before it. -/
structure Invocation where
  verbosity : Nat := 0
  logDir : Option Path := none
  request : CommandRequest

inductive Request where
  | help
  | misuse
  | invocation (i : Invocation)

/-! ### Options -/

inductive CommonOption where
  | help
  | verbose
  | log
  deriving DecidableEq

def CommonOption.forms : List (OptionForm CommonOption) :=
  [⟨.help, ["--help"], false⟩, ⟨.verbose, ["-v", "--verbose"], false⟩, ⟨.log, ["--log"], true⟩]

/-- The options of the command that writes a configuration file. -/
inductive InitOption where
  | help
  | force
  deriving DecidableEq

/-- The forms of the options of the command that writes a configuration file. -/
def InitOption.forms : List (OptionForm InitOption) :=
  [⟨.help, ["--help"], false⟩, ⟨.force, ["--force", "-f"], false⟩]

inductive ValidationOption where
  | help
  | config
  | off (s : Switch)
  | limit (l : Limit)
  | json
  deriving DecidableEq

def ValidationOption.forms : List (OptionForm ValidationOption) :=
  [⟨.help, ["--help"], false⟩, ⟨.config, ["--config", "-c"], true⟩,
   ⟨.off .circularDependencies, ["--no-cycles"], false⟩,
   ⟨.off .deadCode, ["--no-dead-code"], false⟩,
   ⟨.off .reachability, ["--no-reachability"], false⟩,
   ⟨.off .typeCompatibility, ["--no-types"], false⟩,
   ⟨.off .performance, ["--no-performance"], false⟩,
   ⟨.limit .nodeCount, ["--max-nodes"], true⟩,
   ⟨.limit .connectionCount, ["--max-connections"], true⟩,
   ⟨.limit .depth, ["--max-depth"], true⟩,
   ⟨.json, ["--json"], false⟩]

/-! ### Reading a command line -/

def limitsAreIntegers (a : Arguments ValidationOption) : Bool :=
  Limit.all.all fun l => (a.last? (.limit l)).all fun v => (Decimal.readInt? v.toList).isSome

/-- What the options of a validation replace: a switch is only ever turned off. -/
def overridesOf (a : Arguments ValidationOption) : Options.Overrides where
  switches := fun s => if a.has (.off s) then some false else none
  limits := fun l => (a.last? (.limit l)).bind fun v => Decimal.readInt? v.toList

def readVersion (words : List String) : CommandRequest :=
  match Arguments.read [⟨(), ["--help"], false⟩] true words with
  | none => .misuse
  | some a => if a.has () then .help else if a.operands.isEmpty then .command .version else .misuse

def readInit (words : List String) : CommandRequest :=
  match Arguments.read InitOption.forms true words with
  | none => .misuse
  | some a =>
    if a.has .help then .help
    else
      match a.operands with
      | [] => .command (.initConfig (.ofText defaultConfigName) (a.has .force))
      | [path] => .command (.initConfig (.ofText path) (a.has .force))
      | _ => .misuse

def readValidation (words : List String) : CommandRequest :=
  match Arguments.read ValidationOption.forms true words with
  | none => .misuse
  | some a =>
    if a.has .help then .help
    else
      match a.operands, limitsAreIntegers a with
      | [graph], true => .command (.validate {
          graph := .ofText graph
          config := (a.last? .config).map Path.ofText
          overrides := overridesOf a
          asJson := a.has .json })
      | _, _ => .misuse

/-- Read the words after the name of a command, if there is a command of that name. -/
def readCommand? (name : String) (words : List String) : Option CommandRequest :=
  match name with
  | "version" => some (readVersion words)
  | "init-config" => some (readInit words)
  | "validate" => some (readValidation words)
  | _ => none

/-- What operands ask for that start with no command: where they are options after all, they
may ask for help. -/
def readUnknown (operands : List String) : Request :=
  match Arguments.read CommonOption.forms false operands with
  | none => .misuse
  | some a => if a.has .help then .help else .misuse

def Request.ofWords (words : List String) : Request :=
  match Arguments.read CommonOption.forms false words with
  | none => .misuse
  | some a =>
    if a.has .help then .help
    else
      match a.operands with
      | [] => .misuse
      | name :: rest =>
        match readCommand? name rest with
        | none => readUnknown (name :: rest)
        | some request => .invocation {
            verbosity := a.count .verbose
            logDir := (a.last? .log).map Path.ofText
            request }

end PlotGraph.CommandLine
