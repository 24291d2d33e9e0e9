import PlotGraph.Check.Node
import PlotGraph.Check.Structure
import PlotGraph.Check.Suggestion
import PlotGraph.Log.Event

/-!
# The built-in passes

A run goes through the stages in a fixed order; five of them can be switched off. Each
stage is a function of the graph and the options that gives a partial report, and logs
what it has to say about its own work.
-/

namespace PlotGraph

/-- A built-in pass. -/
inductive Stage where
  | outline
  | nodes
  | connections
  | circularDependencies
  | deadCode
  | reachability
  | typeCompatibility
  | performance
  | suggestions
  deriving DecidableEq, Repr

namespace Stage

/-- All stages, in the order in which they run. -/
def all : List Stage :=
  [.outline, .nodes, .connections, .circularDependencies, .deadCode, .reachability,
   .typeCompatibility, .performance, .suggestions]

def name : Stage → String
  | .outline => "structure"
  | .nodes => "nodes"
  | .connections => "connections"
  | .circularDependencies => "circular_dependencies"
  | .deadCode => "dead_code"
  | .reachability => "reachability"
  | .typeCompatibility => "type_compatibility"
  | .performance => "performance"
  | .suggestions => "suggestions"

def switch? : Stage → Option Switch
  | .circularDependencies => some .circularDependencies
  | .deadCode => some .deadCode
  | .reachability => some .reachability
  | .typeCompatibility => some .typeCompatibility
  | .performance => some .performance
  | .outline | .nodes | .connections | .suggestions => none

def isEnabled (o : Options) (s : Stage) : Bool :=
  match s.switch? with
  | some switch => o.switch switch
  | none => true

def enabled (o : Options) : List Stage := all.filter (isEnabled o)

def report (g : Graph) (o : Options) : Stage → Report
  | .outline => g.checkStructure
  | .nodes => g.checkNodes
  | .connections => g.checkConnections
  | .circularDependencies => g.checkCycles
  | .deadCode => g.checkDeadCode
  | .reachability => g.checkExits
  | .typeCompatibility => g.checkTypes
  | .performance => g.checkPerformance o
  | .suggestions => g.suggest

end Stage

def countField (name : String) (count : Nat) : String × Value := (name, .int count)

def Graph.cycleSearchEvent (g : Graph) (cycles : Nat) : Log.Event where
  logger := "storylogic.graph.algorithms"
  level := .debug
  message := "cycle_search_complete"
  fields := [countField "nodes" g.nodes.size, countField "cycles" cycles]

/-- What a stage logs of its own, given what it has found. -/
def Stage.events (g : Graph) (found : Report) : Stage → List Log.Event
  | .circularDependencies => [g.cycleSearchEvent found.errors.length]
  | _ => []

end PlotGraph
