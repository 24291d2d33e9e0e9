import PlotGraph.Files
import PlotGraph.Log.Event

/-!
# Where log events go

A setup has a level below which nothing is logged, the levels of its handlers, and at most
one open log file. The first handler is the console's; with file logging a second one
writes every event as a line of `logs/debug.jsonl` below a directory.

The journal holds the lines of every log file, by the place where the file is. Configuring
and closing leave it alone, so lines are only ever added, by `emit` and `print`
(`journal_configure`, `journal_close`).

What the console shows has to be fit for it. An event or a message that is not is refused
(`emitFault?`, `printFault?`) and reaches no handler.
-/

namespace PlotGraph.Log

/-- The state of logging. -/
structure Setup where
  /-- Events below this level are dropped. -/
  rootLevel : Int := Level.warning.number
  /-- The levels of the handlers, that of the console first. -/
  handlers : List Int := []
  /-- The level of the event loop's own logger; zero leaves it to the root. -/
  asyncioLevel : Int := 0
  /-- The log file that is open. -/
  file : Option Path := none
  /-- The lines of the log files. -/
  journal : Mapping Path (List Value) := {}
  deriving DecidableEq, Inhabited

inductive SetupError where
  | directoryRequired
  /-- The log file cannot be opened. -/
  | unusable (e : Files.Failure)
  deriving DecidableEq, Repr

def SetupError.message : SetupError → String
  | .directoryRequired => "log_dir is required when log_to_file=True"
  | .unusable e => e.message

def logDirectory (dir : Path) : Path := dir.child "logs"

def logFile (dir : Path) : Path := (logDirectory dir).child "debug.jsonl"

/-- The level of the console: warnings, with more verbosity also information, and then
everything. -/
def consoleLevel (verbosity : Int) : Int :=
  if verbosity = 0 then Level.warning.number
  else if verbosity = 1 then Level.info.number
  else Level.debug.number

namespace Setup

/-- Close the log file, if one is open. -/
def close (s : Setup) : Setup := { s with file := none }

/-- Set up logging anew, to the console alone. -/
def toConsole (s : Setup) (verbosity : Int) : Setup := {
  s with
  rootLevel := if 0 < verbosity then Level.debug.number else Level.warning.number
  handlers := [consoleLevel verbosity]
  asyncioLevel := Level.warning.number
  file := none }

/-- Set up logging anew, to the console and to the file at a place. -/
def toFileAt (s : Setup) (verbosity : Int) (place : Path) : Setup := {
  s with
  rootLevel := Level.debug.number
  handlers := [consoleLevel verbosity, Level.debug.number]
  asyncioLevel := Level.warning.number
  file := some place }

/-- Set up logging anew, to the console and to the log file below a directory. The
directories on the way and the file are made if they are not there. -/
def toFile (s : Setup) (files : Files) (verbosity : Int) (dir : Path) :
    Except Files.Failure (Setup × Files) := do
  let (place, files) ← (← files.ensure (logDirectory dir)).openEnd (logFile dir)
  return (s.toFileAt verbosity place, files)

/-- Set up logging anew. A log file is opened if file logging is wanted, which needs a
directory. -/
def configure (s : Setup) (files : Files) (verbosity : Int) (wantsFile : Bool)
    (dir : Option Path) : Except SetupError (Setup × Files) :=
  match wantsFile, dir with
  | true, none => .error .directoryRequired
  | true, some dir => (s.toFile files verbosity dir).mapError .unusable
  | false, _ => .ok (s.toConsole verbosity, files)

/-- The setup that a refused configuration leaves: one that could not open its file has
closed the last one before. -/
def afterRefusal (s : Setup) : SetupError → Setup
  | .directoryRequired => s
  | .unusable _ => s.close

/-! ### Writing -/

def isAsyncio (logger : String) : Bool :=
  logger == "asyncio" || "asyncio.".toList.isPrefixOf logger.toList

def effectiveLevel (s : Setup) (logger : String) : Int :=
  if isAsyncio logger && s.asyncioLevel != 0 then s.asyncioLevel else s.rootLevel

/-- Whether an event of a level reaches the handlers; level zero never does. -/
def isEnabled (s : Setup) (logger : String) (level : Int) : Bool :=
  0 < level && s.effectiveLevel logger ≤ level

def write (s : Setup) (line : Value) : Setup :=
  match s.file with
  | some path => { s with journal := s.journal.put path ((s.journal.get? path).getD [] ++ [line]) }
  | none => s

def isShown (s : Setup) (logger : String) (level : Int) : Bool :=
  s.isEnabled logger level && s.handlers.head?.any (· ≤ level)

def emitFault? (s : Setup) (e : Event) : Option Event.Fault :=
  match e.reservedFault? with
  | some fault => some fault
  | none => if s.isShown e.logger e.level.number then e.consoleFault? else none

/-- Log an event; one that is refused is not written. -/
def emit (s : Setup) (e : Event) : Setup :=
  if (s.emitFault? e).isNone && s.isEnabled e.logger e.level.number then s.write e.line else s

def emitAll (s : Setup) (es : List Event) : Setup := es.foldl emit s

/-- Why a plain message is refused, if it is. One that is not shown is not looked at. -/
def printFault? (s : Setup) (m : Message) : Option Template.Fault :=
  match m.line with
  | .error fault => if s.isShown m.logger m.level then some fault else none
  | .ok _ => none

/-- Log a plain message; one whose arguments do not fit is not written. -/
def print (s : Setup) (m : Message) : Setup :=
  if s.isEnabled m.logger m.level && Level.debug.number ≤ m.level then
    match m.line with
    | .ok line => s.write line
    | .error _ => s
  else s

/-- The lines of all log files, one file after the other. -/
def lines (s : Setup) : List Value := s.journal.values.flatten

/-- The lines stay when the file is closed. -/
theorem journal_close (s : Setup) : s.close.journal = s.journal := rfl

/-- They stay when a file is opened. -/
theorem journal_toFile {s : Setup} {files : Files} {verbosity : Int} {dir : Path}
    {r : Setup × Files} (h : s.toFile files verbosity dir = .ok r) :
    r.1.journal = s.journal := by
  simp only [toFile, bind, Except.bind, pure, Except.pure] at h
  split at h
  · cases h
  · split at h
    · cases h
    · cases h; rfl

/-- They stay when logging is set up anew. -/
theorem journal_configure {s : Setup} {files : Files} {verbosity : Int} {wantsFile : Bool}
    {dir : Option Path} {r : Setup × Files}
    (h : s.configure files verbosity wantsFile dir = .ok r) : r.1.journal = s.journal := by
  unfold configure at h
  split at h
  · cases h
  · next dir =>
    cases hf : s.toFile files verbosity dir with
    | error e => rw [hf] at h; cases h
    | ok r' => rw [hf] at h; cases h; exact journal_toFile hf
  · cases h; rfl

end Setup
end PlotGraph.Log
