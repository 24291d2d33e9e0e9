import PlotGraph.Graph.Kind
import PlotGraph.Value

/-!
# Graphs of plot logic

A graph is the snapshot of nodes and wires that an editor hands over. It may be faulty in
many ways (missing ids, unknown tags, wires that lead nowhere): a `Graph` holds all of
that, so that it can be reported.

Nodes and connections stand under the keys of a mapping. A connection names its ends by
such keys; the id that a node carries itself may be another one.
-/

namespace PlotGraph

/-- The place of a node on the editor's canvas. -/
structure Position where
  x : Binary64
  y : Binary64
  deriving DecidableEq, Repr

/-- A unit of logic. Missing texts are empty, and a missing condition is null. -/
structure Node where
  id : String := ""
  tag : String := ""
  label : Option String := none
  position : Option Position := none
  config : Mapping String Value := {}
  condition : Value := .null
  deriving DecidableEq, Inhabited

/-- The name of a node in messages: its label, or its id where it has none. -/
def Node.displayName (n : Node) : String :=
  match n.label with
  | some label => if label.isEmpty then n.id else label
  | none => n.id

def Node.hasKind (n : Node) (k : NodeKind) : Bool := n.tag == k.tag

/-- A wire from a port of one node to a port of another. -/
structure Connection where
  id : String := ""
  source : String := ""
  target : String := ""
  sourcePort : Option String := none
  targetPort : Option String := none
  wireType : Option String := none
  deriving DecidableEq, Repr, Inhabited

/-- The ends of a connection with their ports: connections that agree in all four are
duplicates. -/
structure EdgeKey where
  source : String
  target : String
  sourcePort : Option String
  targetPort : Option String
  deriving DecidableEq, Repr

namespace Connection

/-- Whether a connection leads back to the node it leaves. -/
def isSelfLoop (c : Connection) : Bool := !c.source.isEmpty && c.source == c.target

/-- The ends of a connection with their ports. -/
def edgeKey (c : Connection) : EdgeKey := ⟨c.source, c.target, c.sourcePort, c.targetPort⟩

end Connection

/-- A snapshot of nodes and connections. -/
structure Graph where
  id : String := ""
  name : Option String := none
  nodes : Mapping String Node := {}
  connections : Mapping String Connection := {}
  deriving DecidableEq, Inhabited

namespace Graph

/-- The node that a connection's end names, if it exists. -/
def node? (g : Graph) (key : String) : Option Node := g.nodes.get? key

def hasNode (g : Graph) (key : String) : Bool := g.nodes.contains key

def wires (g : Graph) : List Connection := g.connections.values

def nodesTagged (g : Graph) (tags : List String) : List Node :=
  g.nodes.values.filter fun n => tags.contains n.tag

def startKeys (g : Graph) : List String :=
  (g.nodes.entries.filter fun e => e.2.hasKind .start).map Prod.fst

/-- The name of what stands under a key; a key without a node stands for itself. -/
def nameAt (g : Graph) (key : String) : String :=
  match g.node? key with
  | some n => n.displayName
  | none => key

/-- The names of the nodes on a path, joined by arrows. -/
def pathText (g : Graph) (keys : List String) : String :=
  " → ".intercalate (keys.map g.nameAt)

end Graph
end PlotGraph
