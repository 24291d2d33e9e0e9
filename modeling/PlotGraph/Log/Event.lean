import PlotGraph.Log.Template

/-!
# Log events

What is logged: structured events with named fields, and plain messages with arguments.
An event becomes one line, an object that starts with the level, the logger and the
message. The fields follow under their own names; a field that is named like the logger or
the message replaces it, and fields named like the level or the time are left out.

Some names are reserved for the parts of the event itself, and a console can show certain
fields only if they are texts (`Event.Fault`). The integers in an event are taken to be short
enough to be written in digits (`Decimal.isShowable`).
-/

namespace PlotGraph.Log

/-! ### Levels -/

inductive Level where
  | debug
  | info
  | warning
  | error
  | critical
  deriving DecidableEq, Repr

def Level.number : Level → Int
  | .debug => 10
  | .info => 20
  | .warning => 30
  | .error => 40
  | .critical => 50

def Level.name : Level → String
  | .debug => "DEBUG"
  | .info => "INFO"
  | .warning => "WARNING"
  | .error => "ERROR"
  | .critical => "CRITICAL"

def Level.all : List Level := [.debug, .info, .warning, .error, .critical]

/-- The name of a level number; numbers between the named levels have a name made of them. -/
def levelName (number : Int) : String :=
  match Level.all.find? (·.number == number) with
  | some l => l.name
  | none => "Level " ++ Decimal.ofInt number

/-! ### Events -/

/-- A structured event. -/
structure Event where
  logger : String
  level : Level
  message : String
  fields : List (String × Value) := []
  deriving DecidableEq

def Event.names (e : Event) : List String := e.fields.map Prod.fst

/-- Bind fields that an event has unless it names them itself; they stand behind its own. -/
def Event.bind (context : List (String × Value)) (e : Event) : Event :=
  { e with fields := e.fields ++ context.filter fun f => !e.names.contains f.1 }

/-- The name of a logger on a line; the one without a name is the root. -/
def loggerName (name : String) : String := if name.isEmpty then "root" else name

/-- The names of fields that never reach a line. -/
def droppedFields : List String := ["level", "timestamp"]

def Event.line (e : Event) : Value :=
  let head : List (String × Value) :=
    [("level", .str e.level.name), ("logger", .str (loggerName e.logger)),
     ("message", .str e.message)]
  .obj ((e.fields.filter fun f => !droppedFields.contains f.1).foldl
    (fun fs f => Pairs.put f.1 f.2 fs) head)

/-- Why an event is refused; the name is that of a field. -/
inductive Event.Fault where
  | reserved (name : String)
  | notText (name : String)
  deriving DecidableEq, Repr

/-- The names of the parts of an event, which no field may have. -/
def reservedFields : List String := ["self", "method_name", "event"]

/-- The first field with a reserved name, as a fault. -/
def Event.reservedFault? (e : Event) : Option Event.Fault :=
  (e.fields.find? fun f => reservedFields.contains f.1).map fun f => .reserved f.1

/-- Whether a field is left out, null or a text. -/
def Event.isTextOrNull (e : Event) (name : String) : Bool :=
  match Pairs.lookup name e.fields with
  | none | some .null | some (.str _) => true
  | some _ => false

/-- The fields that a console shows as they are, below the others: a trace, and the text of
an exception. -/
def textFields : List String := ["stack", "exception"]

/-- The field that keeps an event from being shown on a console, as a fault. -/
def Event.consoleFault? (e : Event) : Option Event.Fault :=
  (textFields.find? fun name => !e.isTextOrNull name).map .notText

/-! ### Plain messages -/

/-- A message whose place-holders its arguments fill. -/
structure Message where
  logger : String
  level : Int
  text : String
  args : List Value := []
  deriving DecidableEq

/-- The text of a message: place-holders are filled only if there are arguments. -/
def Message.filled (m : Message) : Except Template.Fault String :=
  if m.args.isEmpty then .ok m.text else Template.fill m.text m.args

def Message.line (m : Message) : Except Template.Fault Value := do
  return .obj [("level", .str (levelName m.level)), ("logger", .str (loggerName m.logger)),
    ("message", .str (← m.filled))]

end PlotGraph.Log
