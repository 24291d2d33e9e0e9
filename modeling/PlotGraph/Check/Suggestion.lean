import PlotGraph.Graph.Index
import PlotGraph.Report

/-!
# Suggestions

Two improvements that an author may make: to join an action with the one it leads to, and
to document a large graph with comments.
-/

namespace PlotGraph

/-- The number of nodes above which a graph should carry comments. -/
def commentThreshold : Nat := 20

/-- Whether a node only hands the flow of the story on. -/
def Node.isFlowAction (n : Node) : Bool := flowTags.contains n.tag

namespace Graph

/-- Whether the only connection that leaves a key leads to an action. -/
def leadsToAction (g : Graph) (index : Mapping String (List Connection)) (key : String) : Bool :=
  match (index.get? key).getD [] with
  | [c] => ((g.node? c.target).map (·.isFlowAction)).getD false
  | _ => false

/-- The suggestion to join the action under a key with the next one. -/
def joinSuggestion (key : String) : Suggestion where
  kind := .simplification
  message := "These sequential action blocks could be combined into one"
  nodeId := some key
  action := some "Combine sequential actions"

def commentSuggestion : Suggestion where
  kind := .bestPractice
  message := "Consider adding comment blocks to document your complex logic flow"
  action := some "Add documentation comments"

/-- Suggest to join every action whose only connection leads to another one. -/
def suggestJoins (g : Graph) : Report :=
  let index := g.outgoing
  { suggestions := (g.nodes.entries.filter fun (key, n) =>
      n.isFlowAction && g.leadsToAction index key).map fun (key, _) => joinSuggestion key }

/-- Suggest comments for a large graph that has none. -/
def suggestComments (g : Graph) : Report :=
  .when (commentThreshold < g.nodes.size && (g.nodesTagged [NodeKind.comment.tag]).isEmpty) <|
    .ofSuggestion commentSuggestion

def suggest (g : Graph) : Report := .concat [g.suggestJoins, g.suggestComments]

end Graph
end PlotGraph
