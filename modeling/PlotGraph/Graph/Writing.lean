import PlotGraph.Graph.Basic

/-!
# Writing graphs as values

A graph is written with the editor's names. Fields of a node or a connection that have no
value are left out; what stands inside a configuration or a condition is kept as it is.
-/

namespace PlotGraph

open Value (optionalField optionalText)

def Position.toValue (p : Position) : Value := .obj [("x", .float p.x), ("y", .float p.y)]

def Node.toValue (n : Node) : Value :=
  .obj ([("id", .str n.id), ("type", .str n.tag)]
    ++ optionalText "label" n.label
    ++ optionalField "position" (n.position.map (·.toValue))
    ++ [("config", .obj n.config.entries)]
    ++ (if n.condition = .null then [] else [("condition", n.condition)]))

def Connection.toValue (c : Connection) : Value :=
  .obj ([("id", .str c.id), ("sourceNodeId", .str c.source), ("targetNodeId", .str c.target)]
    ++ optionalText "sourcePortId" c.sourcePort
    ++ optionalText "targetPortId" c.targetPort
    ++ optionalText "type" c.wireType)

def Graph.toValue (g : Graph) : Value :=
  .obj ([("id", .str g.id)]
    ++ optionalText "name" g.name
    ++ [("nodes", .obj (g.nodes.entries.map fun (k, n) => (k, n.toValue))),
        ("connections", .obj (g.connections.entries.map fun (k, c) => (k, c.toValue)))])

end PlotGraph
