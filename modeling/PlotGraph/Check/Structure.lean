import PlotGraph.Check.Connection
import PlotGraph.Graph.Depth
import PlotGraph.Graph.Reach
import PlotGraph.Options

/-!
# Checking a whole graph

The passes that look at the graph as a whole: its id and its entry points, circular
dependencies, dead code, exit points, the rule for wires that leave a condition, and the
limits on size, width and depth. Each is a function of the graph that gives a partial
report.
-/

namespace PlotGraph
namespace Graph

/-! ### Identity and entry points -/

def checkId (g : Graph) : Report :=
  .when g.id.isEmpty <| .ofDefect {
    code := "MISSING_GRAPH_ID"
    message := "Logic graph is missing an ID"
    plainMessage := "The logic flow is missing an identifier"
    severity := .critical }

def emptyWarning : Warning where
  code := "EMPTY_GRAPH"
  message := "Logic graph has no nodes"
  plainMessage := "The logic flow is empty"
  suggestion := some "Add some logic blocks to create your flow"

/-- The warning for a graph without a start node. -/
def noEntryWarning : Warning where
  code := "NO_ENTRY_POINT"
  message := "Logic graph has no entry point"
  plainMessage := "Your logic flow doesn't have a starting point"
  suggestion := some "Add an entry node to define where your logic begins"

def manyEntriesWarning (starts : List String) : Warning where
  code := "MULTIPLE_ENTRY_POINTS"
  message := "Logic graph has multiple entry points: " ++ ", ".intercalate starts
  plainMessage := "Your logic flow has more than one starting point"
  suggestion := some "Consider having a single entry point for clearer logic"

/-- A graph should have nodes, and exactly one of them should be a start node. -/
def checkEntries (g : Graph) : Report :=
  if g.nodes.isEmpty then .ofWarning emptyWarning
  else
    match g.startKeys with
    | [] => .ofWarning noEntryWarning
    | [_] => {}
    | starts => .ofWarning (manyEntriesWarning starts)

def checkStructure (g : Graph) : Report := .concat [g.checkId, g.checkEntries]

/-! ### Circular dependencies -/

def cycleDefect (g : Graph) (c : Cycle) : Defect where
  code := "CIRCULAR_DEPENDENCY"
  message := "Circular dependency detected: " ++ g.pathText c.path
  plainMessage :=
    "Your logic has a circular reference: these blocks form a loop: " ++ g.pathText c.path
  nodeId := some c.closing.source
  connectionId := anchor c.closing.id
  fix := some { description := "Break the circular reference by removing one of the connections" }

def checkCycles (g : Graph) : Report := { errors := g.findCycles.map g.cycleDefect }

/-! ### Dead code -/

def unreachableWarning (key : String) (n : Node) : Warning where
  code := "UNREACHABLE_NODE"
  message := "Node " ++ n.displayName ++ " is unreachable"
  plainMessage := "The logic block \"" ++ n.displayName ++ "\" can never be reached"
  nodeId := some key
  suggestion := some "Connect this block to your logic flow or remove it"

/-- The nodes that no start node reaches; start nodes and comments do not count. -/
def deadNodes (g : Graph) : List (String × Node) :=
  let reachable := g.reachableFrom g.startKeys
  g.nodes.entries.filter fun (key, n) =>
    !reachable.contains key && !(n.hasKind .start || n.hasKind .comment)

/-- Report dead code, if the graph has a start node. -/
def checkDeadCode (g : Graph) : Report :=
  if g.startKeys.isEmpty then {}
  else { warnings := g.deadNodes.map fun (key, n) => unreachableWarning key n }

/-! ### Exit points -/

/-- Note that a graph with nodes has no end node. -/
def checkExits (g : Graph) : Report :=
  .when (!g.nodes.isEmpty && (g.nodesTagged [NodeKind.finish.tag]).isEmpty) <| .ofNote {
    code := "NO_EXIT_POINTS"
    message := "Logic graph has no explicit exit points" }

/-! ### Wire types -/

/-- Apply the rule for wires that leave a condition to every connection. -/
def checkTypes (g : Graph) : Report :=
  .concat (g.wires.map fun c => c.checkWire g Connection.typeCode)

/-! ### Size, width and depth -/

def nodeCountWarning (count : Nat) (limit : Int) : Warning where
  code := "TOO_MANY_NODES"
  message := "Graph has " ++ Decimal.ofNat count ++ " nodes, recommended maximum is "
    ++ Decimal.ofInt limit
  plainMessage := "Your logic flow is very complex with " ++ Decimal.ofNat count
    ++ " blocks. This might be slow."
  suggestion := some "Consider breaking this into smaller, reusable logic flows"

def connectionCountWarning (count : Nat) (limit : Int) : Warning where
  code := "TOO_MANY_CONNECTIONS"
  message := "Graph has " ++ Decimal.ofNat count ++ " connections, recommended maximum is "
    ++ Decimal.ofInt limit
  plainMessage := "Your logic has " ++ Decimal.ofNat count
    ++ " connections. This might affect performance."
  suggestion := some "Simplify your logic flow or break it into smaller pieces"

/-- The warning for a node with more outgoing connections than the limit. -/
def branchesWarning (g : Graph) (key : String) (count : Nat) : Warning where
  code := "TOO_MANY_BRANCHES"
  message := "Node " ++ g.nameAt key ++ " has " ++ Decimal.ofNat count ++ " outgoing connections"
  plainMessage := "The block \"" ++ g.nameAt key ++ "\" branches into " ++ Decimal.ofNat count
    ++ " different paths"
  nodeId := some key
  suggestion := some "Consider simplifying or using a different structure"

/-- The warning for a path longer than the limit. -/
def depthWarning (depth : Nat) (limit : Int) : Warning where
  code := "MAX_DEPTH_EXCEEDED"
  message := "Longest path from an entry point visits " ++ Decimal.ofNat depth
    ++ " nodes, recommended maximum is " ++ Decimal.ofInt limit
  plainMessage := "Your logic flow runs " ++ Decimal.ofNat depth
    ++ " blocks deep. Long chains are hard to follow and slow to run."
  suggestion := some "Split long chains into separate logic flows"

def checkNodeCount (g : Graph) (o : Options) : Report :=
  .when (o.maxNodeCount < g.nodes.size) <|
    .ofWarning (nodeCountWarning g.nodes.size o.maxNodeCount)

def checkConnectionCount (g : Graph) (o : Options) : Report :=
  .when (o.maxConnectionCount < g.connections.size) <|
    .ofWarning (connectionCountWarning g.connections.size o.maxConnectionCount)

/-- Check the number of connections that leave each source. -/
def checkBranches (g : Graph) (o : Options) : Report where
  warnings := (g.outgoing.entries.filter fun e => o.maxBranches < e.2.length).map
    fun (key, cs) => g.branchesWarning key cs.length

def checkDepth (g : Graph) (o : Options) : Report :=
  let depth := g.longestPathDepth g.startKeys
  .when (o.maxDepth < depth) <| .ofWarning (depthWarning depth o.maxDepth)

def checkPerformance (g : Graph) (o : Options) : Report :=
  .concat [g.checkNodeCount o, g.checkConnectionCount o, g.checkBranches o, g.checkDepth o]

end Graph
end PlotGraph
