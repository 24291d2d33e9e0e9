import PlotGraph.Files
import PlotGraph.Graph.Reading
import PlotGraph.Json.Reader
import PlotGraph.Log.Event
import PlotGraph.Text.Lines

/-!
# Graphs from files

A graph file is a JSON document: the graph itself, or an object that holds it under the
name `graph`. A file that is missing or malformed, or holds something else, is reported
together with its path (`GraphFile.Fault`). Some faults are reported as they are found,
without the path: bytes that are no text, a number with too many digits, coordinates past
the floating-point range, and a path that cannot be followed.
-/

namespace PlotGraph
namespace GraphFile

/-! ### What can be wrong -/

/-- What is wrong with a graph file as such. -/
inductive Fault where
  | unopened (e : Files.OpenError)
  | malformed (problem : Json.Problem) (place : Json.Place)
  | notAnObject (kind : String)
  deriving DecidableEq, Repr

def Fault.message (p : Path) : Fault → String
  | .unopened e => e.message p
  | .malformed problem place => problem.message ++ ": " ++ place.message
  | .notAnObject kind => "Expected a JSON object, got " ++ kind

/-- The message for a graph that cannot be loaded for the given reason. -/
def loadMessage (p : Path) (reason : String) : String :=
  "Failed to load logic graph at " ++ p.text ++ ": " ++ reason

/-- Why loading a graph failed. -/
inductive Failure where
  /-- The file at this path is at fault. -/
  | fault (path : Path) (fault : Fault)
  /-- The file is not a text. -/
  | undecodable (e : Text.Utf8.DecodeError)
  /-- A number has too many digits. -/
  | tooManyDigits (count : Nat)
  /-- The graph cannot be represented. -/
  | refused (e : ReadError)
  /-- It cannot be told whether there is a file. -/
  | inaccessible (e : Files.Failure)
  deriving DecidableEq, Repr

/-! ### Loading -/

/-- The graph that a document holds: the one under the name `graph`, if that is an object. -/
def unwrap (document : Value) : Value :=
  match document.field? "graph" with
  | some (.obj fields) => .obj fields
  | _ => document

def readDocument (p : Path) (cs : List Char) : Except Failure Value :=
  match Json.parse cs with
  | .ok v => .ok v
  | .error (.malformed problem place) => .error (.fault p (.malformed problem place))
  | .error (.tooManyDigits count) => .error (.tooManyDigits count)

def readGraph (p : Path) (document : Value) : Except Failure Graph :=
  let v := unwrap document
  if v.isObject then (Graph.ofValue v).mapError .refused
  else .error (.fault p (.notAnObject v.kindWord))

def load (files : Files) (p : Path) : Except Failure Graph := do
  let opened ← (files.read p).mapError .inaccessible
  let bytes ← opened.mapError fun e => .fault p (.unopened e)
  let cs ← (Text.Utf8.decode bytes).mapError .undecodable
  readGraph p (← readDocument p (Text.Lines.normalize cs))

def loadedEvent (p : Path) (g : Graph) : Log.Event where
  logger := "storylogic.graph.io"
  level := .debug
  message := "graph_loaded"
  fields := [("path", .str p.text), ("graph_id", .str g.id),
    ("nodes", .int g.nodes.size), ("connections", .int g.connections.size)]

end GraphFile
end PlotGraph
