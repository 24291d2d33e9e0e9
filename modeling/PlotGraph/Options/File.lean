import PlotGraph.Files
import PlotGraph.Options
import PlotGraph.Text.Lines
import PlotGraph.Yaml.Document

/-!
# Options from files and the environment

A configuration file is a YAML document: a mapping of options, or one that holds such a
mapping under the name `validation`. Three limits can be overridden by variables of the
environment, which take precedence over the file; a variable that is empty counts as unset.

Whatever is wrong is reported with the path of the file.
-/

namespace PlotGraph
namespace ConfigFile

/-! ### What can be wrong -/

/-- Why options cannot be loaded. -/
inductive Reason where
  | unopened (e : Files.OpenError)
  | undecodable (e : Text.Utf8.DecodeError)
  | document (fault : Yaml.Fault)
  | empty
  | notAMapping
  | sectionNotAMapping
  | environment (name raw : String)
  | option (e : OptionError)
  deriving DecidableEq, Repr

def Reason.message (p : Path) : Reason → String
  | .unopened e => e.message p
  | .undecodable e => e.message
  | .document fault => fault.message?.getD "The document is not well-formed"
  | .empty => "Empty file"
  | .notAMapping => "Expected a mapping at the top level"
  | .sectionNotAMapping => "'validation' must be a mapping"
  | .environment name raw => name ++ " must be an integer, got " ++ Text.quoted raw
  | .option e => e.message

def loadMessage (p : Path) (reason : String) : String :=
  "Failed to load validation config at " ++ p.text ++ ": " ++ reason

/-- The failure to load options from a file. -/
structure LoadError where
  path : Path
  reason : Reason
  deriving DecidableEq, Repr

def LoadError.message (e : LoadError) : String := loadMessage e.path (e.reason.message e.path)

/-- Why loading options failed: as is reported with the path of the file, or as it was found
where the path cannot be followed. -/
inductive Failure where
  | load (e : LoadError)
  | inaccessible (e : Files.Failure)
  deriving DecidableEq, Repr

/-! ### The environment -/

/-- The variables of the environment. -/
abbrev Environment := Mapping String String

/-- The variables that override limits, in the order in which they are looked up. -/
def overrides : List (String × Limit) :=
  [("STORYLOGIC_MAX_NODE_COUNT", .nodeCount),
   ("STORYLOGIC_MAX_CONNECTION_COUNT", .connectionCount),
   ("STORYLOGIC_MAX_DEPTH", .depth)]

def given? (env : Environment) (name : String) : Option String :=
  match env.get? name with
  | some raw => if raw.isEmpty then none else some raw
  | none => none

def applyVariables (env : Environment) (settings : Mapping String Setting) :
    List (String × Limit) → Except Reason (Mapping String Setting)
  | [] => .ok settings
  | (name, l) :: rest =>
    match given? env name with
    | none => applyVariables env settings rest
    | some raw =>
      match Decimal.readInt? raw.toList with
      | some i => applyVariables env (settings.put l.name (.number i)) rest
      | none => .error (.environment name raw)

def ofSettings (env : Environment) (settings : Mapping String Setting) :
    Except Reason Options := do
  let settings ← applyVariables env settings overrides
  (Options.ofSettings settings.entries).mapError .option

/-! ### Documents -/

def settingOf : Yaml.Datum → Setting
  | .null => .absent
  | .bool b => .truth b
  | .int i => .number i
  | .text s => .word s
  | d => .other (if d.isShowable then some d.shown else none)

/-- The settings among the entries of a mapping: those whose keys are texts. -/
def settingsOf (entries : List (Yaml.Datum × Yaml.Datum)) : Mapping String Setting :=
  .ofList (entries.filterMap fun (key, v) =>
    match key with
    | .text name => some (name, settingOf v)
    | _ => none)

def sectionOf (document : Yaml.Datum) : Except Reason (List (Yaml.Datum × Yaml.Datum)) :=
  match document with
  | .null => .error .empty
  | .mapping _ entries =>
    match document.field? "validation" with
    | none | some (.whole _) => .ok entries
    | some (.mapping _ inner) => .ok inner
    | some _ => .error .sectionNotAMapping
  | _ => .error .notAMapping

def ofDocument (env : Environment) (document : Yaml.Datum) : Except Reason Options := do
  ofSettings env (settingsOf (← sectionOf document))

/-! ### Files -/

def ofBytes (env : Environment) (bytes : List UInt8) : Except Reason Options := do
  let cs ← (Text.Utf8.decodePieces bytes).mapError .undecodable
  ofDocument env (← (Yaml.read (Text.Lines.normalize cs)).mapError .document)

def load (files : Files) (env : Environment) (p : Path) : Except Failure Options := do
  let opened ← (files.read p).mapError .inaccessible
  let options : Except Reason Options := do ofBytes env (← opened.mapError .unopened)
  options.mapError fun reason => .load ⟨p, reason⟩

def optionLine (name : String) (v : Value) : String :=
  let written := match v with
    | .bool b => if b then "true" else "false"
    | v => v.text
  "  " ++ name ++ ": " ++ written ++ "\n"

def text (o : Options) : String :=
  "validation:\n" ++ String.join (o.entries.map fun (name, v) => optionLine name v)

def writeDefault (files : Files) (p : Path) : Except Files.Failure Files :=
  files.writeText p (text {})

end ConfigFile
end PlotGraph
