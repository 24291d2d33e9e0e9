import PlotGraph.Graph.Walk

/-!
# Reachability

The nodes that can be reached from some roots, found with a stack of nodes that wait to be
expanded. A node may wait several times; it is expanded the first time it is taken.
-/

namespace PlotGraph

namespace Graph

/-- Expand the nodes that wait; `reached` holds those that have been expanded. -/
def expand (g : Graph) (edgesOf : String → List g.Edge) (reached : List String) :
    (waiting : List g.Key) → List String
  | [] => reached
  | key :: waiting =>
    if key.val ∈ reached then expand g edgesOf reached waiting
    else
      let targets := (edgesOf key.val).map Edge.target
      let reached' := key.val :: reached
      expand g edgesOf reached'
        ((targets.filter fun t => !reached'.contains t.val).reverse ++ waiting)
termination_by waiting => (g.unvisited reached, waiting.length)
decreasing_by
  · exact Prod.Lex.right _ (by simp)
  · exact Prod.Lex.left _ _ (unvisited_cons_lt key.property (by assumption))

/-- The keys of the nodes that can be reached from the roots, themselves included. -/
def reachableFrom (g : Graph) (roots : List String) : List String :=
  let index := g.outgoing
  g.expand (g.edgesFrom index) [] (g.presentKeys roots).reverse

end Graph
end PlotGraph
