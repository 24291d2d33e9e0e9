import PlotGraph.Graph.Index
import PlotGraph.Report

/-!
# Checking a connection

A connection needs an id and two existing ends. It may not lead back to the node it
leaves, nor repeat another connection with the same ends and ports. A wire that leaves a
condition has to carry a truth value; this rule is reported under two codes, with two
wordings of one finding.
-/

namespace PlotGraph
namespace Connection

/-! ### Wires that leave a condition -/

def wireCode : String := "CONDITION_CONNECTION_TYPE"

def typeCode : String := "TYPE_MISMATCH"

/-- Whether the connection leaves a condition without carrying a truth value. -/
def mismatches (c : Connection) (source : Node) : Bool :=
  source.hasKind .condition &&
    match c.wireType with
    | some t => !conditionWireTypes.contains t
    | none => true

/-- The wording of the finding for a code; the code of the type check has its own. -/
def wireWarning (c : Connection) (code : String) : Warning :=
  if code = typeCode then
    { code := code
      message := "Condition node should use conditional or boolean connection"
      plainMessage := "A condition block should use \"if true/false\" type connections"
      connectionId := anchor c.id
      suggestion := some "Change connection type to conditional or boolean" }
  else
    { code := code
      message := "Connection from condition node should be boolean or condition type"
      plainMessage := "This connection from a condition should use boolean type"
      connectionId := anchor c.id
      suggestion := some "Change connection type to boolean or condition" }

/-- The warning for a wire that leaves a condition without carrying a truth value. -/
def wireMismatch? (c : Connection) (source : Node) (code : String) : Option Warning :=
  if c.mismatches source then some (c.wireWarning code) else none

/-! ### The parts of the check -/

def checkId (c : Connection) : Report :=
  .when c.id.isEmpty <| .ofDefect {
    code := "MISSING_CONNECTION_ID"
    message := "Connection is missing an ID"
    plainMessage := "A connection between logic blocks is missing an identifier" }

def checkSource (c : Connection) (g : Graph) : Report :=
  .when (!g.hasNode c.source) <| .ofDefect {
    code := "INVALID_SOURCE_NODE"
    message := "Connection source node " ++ c.source ++ " does not exist"
    plainMessage := "This connection starts from a logic block that doesn't exist"
    connectionId := anchor c.id }

def checkTarget (c : Connection) (g : Graph) : Report :=
  .when (!g.hasNode c.target) <| .ofDefect {
    code := "INVALID_TARGET_NODE"
    message := "Connection target node " ++ c.target ++ " does not exist"
    plainMessage := "This connection leads to a logic block that doesn't exist"
    connectionId := anchor c.id }

/-- A connection may not lead back to the node it leaves. -/
def checkSelfLoop (c : Connection) : Report :=
  .when c.isSelfLoop <| .ofDefect {
    code := "SELF_CONNECTION"
    message := "Node cannot connect to itself"
    plainMessage := "A logic block cannot connect to itself"
    nodeId := some c.source
    connectionId := anchor c.id }

def checkDuplicate (c : Connection) (counts : Mapping EdgeKey Nat) : Report :=
  .when (1 < (counts.get? c.edgeKey).getD 0) <| .ofWarning {
    code := "DUPLICATE_CONNECTION"
    message := "Duplicate connection detected"
    plainMessage := "These two logic blocks are connected multiple times in the same way"
    connectionId := anchor c.id
    suggestion := some "Remove duplicate connections" }

/-- The warning of the rule for wires that leave a condition, where both ends exist. -/
def wireFinding? (c : Connection) (g : Graph) (code : String) : Option Warning :=
  match g.node? c.source with
  | some source => if g.hasNode c.target then c.wireMismatch? source code else none
  | none => none

/-- Apply the rule for wires that leave a condition. -/
def checkWire (c : Connection) (g : Graph) (code : String) : Report :=
  match c.wireFinding? g code with
  | some w => .ofWarning w
  | none => {}

/-- Check a connection, given the number of connections with the same ends and ports. -/
def check (c : Connection) (g : Graph) (counts : Mapping EdgeKey Nat) : Report :=
  .concat [c.checkId, c.checkSource g, c.checkTarget g, c.checkSelfLoop,
    c.checkDuplicate counts, c.checkWire g wireCode]

end Connection

def Graph.checkConnections (g : Graph) : Report :=
  let counts := g.edgeCounts
  .concat (g.wires.map (·.check g counts))

end PlotGraph
