import PlotGraph.Graph.Index
import PlotGraph.Report

/-!
# Checking a node

A node needs an id, a tag that is known, the content its category asks for, a position,
and a connection. Loops and gates have no content to check, and neither have terminal
nodes and comments; start nodes and comments may stand alone.
-/

namespace PlotGraph
namespace Node

/-! ### Content -/

/-- A condition needs a condition or a configuration. -/
def checkCondition (n : Node) : Report :=
  .when (!n.condition.isGiven && n.config.isEmpty) <| .ofDefect {
    code := "MISSING_CONDITION"
    message := "Condition node is missing a condition"
    plainMessage := "This condition block doesn't have a condition set"
    nodeId := anchor n.id
    fix := some { description := "Add a condition to this block" } }

def checkAction (n : Node) : Report :=
  .when n.config.isEmpty <| .ofWarning {
    code := "MISSING_ACTION"
    message := "Action node is missing configuration"
    plainMessage := "This action block doesn't specify what action to perform"
    nodeId := anchor n.id
    suggestion := some "Define what this block should do" }

/-- Whether a setting of the configuration has a value that counts as given. -/
def configures (n : Node) (setting : String) : Bool :=
  match n.config.get? setting with
  | some v => v.isGiven
  | none => false

def checkVariable (n : Node) : Report :=
  .when (!n.configures "variableId") <| .ofDefect {
    code := "MISSING_VARIABLE"
    message := "Variable node is missing a variable reference"
    plainMessage := "This variable block doesn't reference any variable"
    nodeId := anchor n.id }

def checkEvent (n : Node) : Report :=
  .when (!n.configures "eventType") <| .ofWarning {
    code := "MISSING_EVENT_TYPE"
    message := "Event node is missing an event type"
    plainMessage := "This event block doesn't specify what event to handle"
    nodeId := anchor n.id }

def checkCustom (n : Node) : Report :=
  .ofNote {
    code := "CUSTOM_NODE"
    message := "Custom node type: " ++ n.displayName
    nodeId := anchor n.id }

def checkContent (n : Node) : Category → Report
  | .condition => n.checkCondition
  | .action => n.checkAction
  | .variable => n.checkVariable
  | .event => n.checkEvent
  | .custom => n.checkCustom
  | .sequence | .parallel | .terminal | .comment => {}

/-! ### Identity, place and connection -/

def checkId (n : Node) : Report :=
  .when n.id.isEmpty <| .ofDefect {
    code := "MISSING_NODE_ID"
    message := "Logic node is missing an ID"
    plainMessage := "This logic block is missing an identifier"
    severity := .critical }

/-- A node needs a tag that is known, and the content that goes with it. -/
def checkTag (n : Node) : Report :=
  if n.tag.isEmpty then
    .ofDefect {
      code := "MISSING_NODE_TYPE"
      message := "Logic node is missing a type"
      plainMessage := "This logic block doesn't have a type specified"
      severity := .critical
      nodeId := anchor n.id }
  else
    match Category.ofTag? n.tag with
    | some category => n.checkContent category
    | none => .ofWarning {
        code := "UNKNOWN_NODE_TYPE"
        message := "Unknown node type: " ++ n.tag
        plainMessage := "This logic block type '" ++ n.tag ++ "' is not recognized"
        nodeId := anchor n.id
        suggestion := some "Check if the node type is correctly specified" }

def checkPosition (n : Node) : Report :=
  .when n.position.isNone <| .ofWarning {
    code := "INVALID_NODE_POSITION"
    message := "Node has invalid position"
    plainMessage := "This logic block is not properly positioned on the canvas"
    nodeId := anchor n.id }

def mayStandAlone (n : Node) : Bool := n.hasKind .start || n.hasKind .comment

/-- A node needs a connection at its id, unless it may stand alone. -/
def checkConnected (n : Node) (incident : Mapping String Nat) : Report :=
  .when ((incident.get? n.id).getD 0 == 0 && !n.mayStandAlone) <| .ofWarning {
    code := "ISOLATED_NODE"
    message := "Node is not connected to any other nodes"
    plainMessage := "This logic block is not connected to anything"
    nodeId := anchor n.id
    suggestion := some "Connect this block to your logic flow or remove it" }

/-- Check a node, given the number of connections at every id. -/
def check (n : Node) (incident : Mapping String Nat) : Report :=
  .concat [n.checkId, n.checkTag, n.checkPosition, n.checkConnected incident]

end Node

def Graph.checkNodes (g : Graph) : Report :=
  let incident := g.incident
  .concat (g.nodes.values.map (·.check incident))

end PlotGraph
