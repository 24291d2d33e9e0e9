import PlotGraph.Number.Decimal
import PlotGraph.Text.Quoted
import PlotGraph.Value.Text

/-!
# Options of a validation run

Five switches say which passes run, and four limits say when a graph is too large, too
wide or too deep. Options are read from a mapping in which each may stand under either of
two names. Values are taken as they are or read from text; a null value and a name that is
not known are passed over, and of several values for one option the last counts.

What is read always has limits that are not negative; `override` takes its values
unchecked, and `mergedEntries` even values of other kinds, for a listing of the options.
-/

namespace PlotGraph

/-! ### The options -/

/-- The passes that can be switched off. -/
inductive Switch where
  | circularDependencies
  | deadCode
  | reachability
  | typeCompatibility
  | performance
  deriving DecidableEq, Repr

/-- The measures that are limited. -/
inductive Limit where
  | nodeCount
  | connectionCount
  | depth
  | branches
  deriving DecidableEq, Repr

/-- The options of a run. -/
structure Options where
  checkCircularDependencies : Bool := true
  checkDeadCode : Bool := true
  checkReachability : Bool := true
  checkTypeCompatibility : Bool := true
  checkPerformance : Bool := true
  maxNodeCount : Int := 1000
  maxConnectionCount : Int := 2000
  maxDepth : Int := 50
  maxBranches : Int := 10
  deriving DecidableEq, Repr, Inhabited

namespace Options

def switch (o : Options) : Switch → Bool
  | .circularDependencies => o.checkCircularDependencies
  | .deadCode => o.checkDeadCode
  | .reachability => o.checkReachability
  | .typeCompatibility => o.checkTypeCompatibility
  | .performance => o.checkPerformance

def setSwitch (o : Options) (s : Switch) (b : Bool) : Options :=
  match s with
  | .circularDependencies => { o with checkCircularDependencies := b }
  | .deadCode => { o with checkDeadCode := b }
  | .reachability => { o with checkReachability := b }
  | .typeCompatibility => { o with checkTypeCompatibility := b }
  | .performance => { o with checkPerformance := b }

def limit (o : Options) : Limit → Int
  | .nodeCount => o.maxNodeCount
  | .connectionCount => o.maxConnectionCount
  | .depth => o.maxDepth
  | .branches => o.maxBranches

def setLimit (o : Options) (l : Limit) (i : Int) : Options :=
  match l with
  | .nodeCount => { o with maxNodeCount := i }
  | .connectionCount => { o with maxConnectionCount := i }
  | .depth => { o with maxDepth := i }
  | .branches => { o with maxBranches := i }

end Options

/-! ### Names -/

def Switch.all : List Switch :=
  [.circularDependencies, .deadCode, .reachability, .typeCompatibility, .performance]

def Limit.all : List Limit := [.nodeCount, .connectionCount, .depth, .branches]

def Switch.name : Switch → String
  | .circularDependencies => "check_circular_dependencies"
  | .deadCode => "check_dead_code"
  | .reachability => "check_reachability"
  | .typeCompatibility => "check_type_compatibility"
  | .performance => "check_performance"

def Switch.editorName : Switch → String
  | .circularDependencies => "checkCircularDependencies"
  | .deadCode => "checkDeadCode"
  | .reachability => "checkReachability"
  | .typeCompatibility => "checkTypeCompatibility"
  | .performance => "checkPerformance"

def Limit.name : Limit → String
  | .nodeCount => "max_node_count"
  | .connectionCount => "max_connection_count"
  | .depth => "max_depth"
  | .branches => "max_branches"

def Limit.editorName : Limit → String
  | .nodeCount => "maxNodeCount"
  | .connectionCount => "maxConnectionCount"
  | .depth => "maxDepth"
  | .branches => "maxBranches"

/-- An option: a switch or a limit. -/
inductive OptionKey where
  | switch (s : Switch)
  | limit (l : Limit)
  deriving DecidableEq, Repr

/-- The option with a name, in either spelling. -/
def OptionKey.ofName? (name : String) : Option OptionKey :=
  match Switch.all.find? fun s => s.name == name || s.editorName == name with
  | some s => some (.switch s)
  | none =>
    (Limit.all.find? fun l => l.name == name || l.editorName == name).map OptionKey.limit

/-! ### Values of options -/

/-- What is given for an option. -/
inductive Setting where
  | absent
  | truth (b : Bool)
  | number (i : Int)
  | word (s : String)
  /-- Something else, as it is shown; none if it holds an integer too long for that. -/
  | other (shown : Option String)
  deriving DecidableEq, Repr

/-- An integer as it is shown in messages, if it is not too long. -/
def shownInteger? (i : Int) : Option String :=
  if Decimal.isShowable i then some (Decimal.ofInt i) else none

/-- A setting as it is shown in messages, if it can be shown. -/
def Setting.shown? : Setting → Option String
  | .absent => some "None"
  | .truth b => some (if b then "True" else "False")
  | .number i => shownInteger? i
  | .word s => some (Text.quoted s)
  | .other shown => shown

def Setting.ofValue : Value → Setting
  | .null => .absent
  | .bool b => .truth b
  | .int i => .number i
  | .str s => .word s
  | v => .other (if v.isShowable then some v.shown else none)

/-- Why a setting is refused; the name is the one it was given under. -/
inductive OptionError where
  | notTruth (name : String) (setting : Setting)
  | notInteger (name : String) (setting : Setting)
  | negative (name : String) (value : Int)
  deriving DecidableEq, Repr

/-- The end of a message that shows a value; about one that cannot be shown there is nothing
else to say. -/
def withShown (start : String) : Option String → String
  | some shown => start ++ ", got " ++ shown
  | none => Decimal.unshowableMessage

def OptionError.message : OptionError → String
  | .notTruth name setting => withShown (name ++ " must be true or false") setting.shown?
  | .notInteger name setting => withShown (name ++ " must be an integer") setting.shown?
  | .negative name value => withShown (name ++ " must not be negative") (shownInteger? value)

def truthWords : List (String × Bool) :=
  [("true", true), ("yes", true), ("on", true), ("false", false), ("no", false), ("off", false)]

/-- The truth value of a word, in any case and with white space around it. -/
def truthOfWord? (s : String) : Option Bool :=
  Pairs.lookup (String.ofList ((Text.strip s.toList).map Char.toLower)) truthWords

def Setting.truth? : Setting → Option Bool
  | .truth b => some b
  | .word s => truthOfWord? s
  | _ => none

def Setting.integer? : Setting → Option Int
  | .number i => some i
  | .word s => Decimal.readInt? (Text.strip s.toList)
  | _ => none

namespace Options

/-- Set an option to what is given for it under a name. -/
def assign (o : Options) (name : String) (key : OptionKey) (setting : Setting) :
    Except OptionError Options :=
  match key with
  | .switch s =>
    match setting.truth? with
    | some b => .ok (o.setSwitch s b)
    | none => .error (.notTruth name setting)
  | .limit l =>
    match setting.integer? with
    | some i => if i < 0 then .error (.negative name i) else .ok (o.setLimit l i)
    | none => .error (.notInteger name setting)

/-- Take in one entry of a mapping. -/
def take (o : Options) (name : String) (setting : Setting) : Except OptionError Options :=
  match OptionKey.ofName? name, setting with
  | none, _ | _, .absent => .ok o
  | some key, setting => o.assign name key setting

/-- Take in the entries of a mapping one after the other. -/
def takeAll (o : Options) : List (String × Setting) → Except OptionError Options
  | [] => .ok o
  | (name, setting) :: rest => do (← o.take name setting).takeAll rest

/-- The options that a mapping gives; the others keep their defaults. -/
def ofSettings (settings : List (String × Setting)) : Except OptionError Options :=
  takeAll {} settings

def ofFields (fields : List (String × Value)) : Except OptionError Options :=
  ofSettings (fields.map fun (name, v) => (name, Setting.ofValue v))

/-! ### Overriding -/

/-- Values that replace those of some options. -/
structure Overrides where
  switches : Switch → Option Bool := fun _ => none
  limits : Limit → Option Int := fun _ => none

/-- Replace the options for which a value is given, unchecked. -/
def override (o : Options) (r : Overrides) : Options :=
  let o := Switch.all.foldl (fun o s => (r.switches s).elim o (o.setSwitch s)) o
  Limit.all.foldl (fun o l => (r.limits l).elim o (o.setLimit l)) o

/-! ### Listing -/

def entries (o : Options) : List (String × Value) :=
  Switch.all.map (fun s => (s.name, .bool (o.switch s)))
    ++ Limit.all.map (fun l => (l.name, .int (o.limit l)))

def toValue (o : Options) : Value := .obj o.entries

/-! ### Replacing values in the listing -/

/-- Why values cannot take the place of those in the listing. -/
inductive MergeError where
  /-- A value stands under the name that the options themselves have in a merge. -/
  | reserved
  | unknown (name : String)
  deriving DecidableEq, Repr

/-- The message for values that cannot take the place of those in the listing. -/
def MergeError.message : MergeError → String
  | .reserved => "ValidationOptions.merged() got multiple values for argument 'self'"
  | .unknown name =>
    "ValidationOptions.__init__() got an unexpected keyword argument '" ++ name ++ "'"

/-- The listing with values of any kind in the place of its own, under the names that it has.
A null value replaces nothing. -/
def mergedEntries (o : Options) (given : List (String × Value)) :
    Except MergeError (List (String × Value)) :=
  let values := given.filter fun f => f.2 != .null
  if given.any (·.1 == "self") then .error .reserved
  else
    match values.find? fun f => (Pairs.lookup f.1 o.entries).isNone with
    | some f => .error (.unknown f.1)
    | none => .ok (values.foldl (fun fs f => Pairs.put f.1 f.2 fs) o.entries)

end Options
end PlotGraph
