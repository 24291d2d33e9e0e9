import PlotGraph.Log.Scope
import PlotGraph.Validator.Run

/-!
# Validation runs that are logged

The events of a run have the id of the graph. It is bound for the length of the run, so that what
is logged afterwards does not have it.
-/

namespace PlotGraph

/-- The fields that every event of a run has: the id of its graph. -/
def RunState.context (graphId : String) : List (String × Value) := [("graph_id", .str graphId)]

/-- Validate a graph and log what there is to log, with the field of the run bound to it. -/
def Validator.validateIn (v : Validator) (scope : Log.Scope) (g : Graph) (o : Options)
    (watch : Watch) (tokenCancelled : Bool) : RunResult × Log.Scope :=
  scope.within (RunState.context g.id) fun inner =>
    let result := v.validate g o watch tokenCancelled
    (result, inner.emitAll result.events)

end PlotGraph
