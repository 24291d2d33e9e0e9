import PlotGraph.Graph.Search

/-!
# The longest path

The number of nodes on the longest path from some roots. The connections that close a
cycle are left out, which makes the reachable part acyclic; then the nodes, taken in the
reverse of the order in which a depth-first search leaves them, hand their depth on to the
nodes they lead to.
-/

namespace PlotGraph

/-- The pairs of nodes whose connections close a cycle. -/
def Search.backEdges {g : Graph} (s : Search g) : List (String × String) :=
  s.cycles.map fun c => (c.closing.source, c.closing.target)

namespace Graph

/-- Hand the depth of a node on along its edges that close no cycle. -/
def relax (g : Graph) (edgesOf : String → List g.Edge) (back : List (String × String))
    (depths : Mapping String Nat) (node : String) : Mapping String Nat :=
  let here := (depths.get? node).getD 1
  (edgesOf node).foldl (fun ds e =>
    let target := e.target.val
    if back.contains (node, target) then ds
    else ds.put target (max ((ds.get? target).getD 0) (here + 1))) depths

/-- The depth of every node that can be reached from the roots: the most nodes on a path
to it that closes no cycle. -/
def depths (g : Graph) (roots : List g.Key) : Mapping String Nat :=
  let s := g.search roots
  let index := g.outgoing
  s.finished.foldl (g.relax (g.edgesFrom index) s.backEdges)
    (.ofList (roots.map fun r => (r.val, 1)))

/-- The number of nodes on the longest path from a root; zero if no root exists. -/
def longestPathDepth (g : Graph) (roots : List String) : Nat :=
  ((g.depths (g.presentKeys roots)).values).foldl max 0

end Graph
end PlotGraph
