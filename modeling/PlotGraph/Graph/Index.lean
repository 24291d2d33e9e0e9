import PlotGraph.Graph.Basic

/-!
# Connections by their ends

Three indexes of the connections of a graph, each built in one pass over them:

* `outgoing` lists the connections of every source, in order;
* `incident` counts the connections that touch a key, one with both ends there once;
* `edgeCounts` counts the connections that share their ends and ports.

Keys stand in the order in which they are first seen. Dangling connections count like all
others.
-/

namespace PlotGraph

def Mapping.increment {κ : Type} [DecidableEq κ] (m : Mapping κ Nat) (key : κ) : Mapping κ Nat :=
  m.put key ((m.get? key).getD 0 + 1)

def Mapping.append {κ α : Type} [DecidableEq κ] (m : Mapping κ (List α)) (key : κ) (item : α) :
    Mapping κ (List α) :=
  m.put key ((m.get? key).getD [] ++ [item])

namespace Graph

/-- The connections that leave each source, in order. -/
def outgoing (g : Graph) : Mapping String (List Connection) :=
  g.wires.foldl (fun m c => m.append c.source c) {}

def countEnds (m : Mapping String Nat) (c : Connection) : Mapping String Nat :=
  let m := m.increment c.source
  if c.target = c.source then m else m.increment c.target

/-- The number of connections that touch each key. -/
def incident (g : Graph) : Mapping String Nat := g.wires.foldl countEnds {}

/-- The number of connections with the same ends and ports. -/
def edgeCounts (g : Graph) : Mapping EdgeKey Nat :=
  g.wires.foldl (fun m c => m.increment c.edgeKey) {}

def outgoingAt (g : Graph) (key : String) : List Connection := (g.outgoing.get? key).getD []

def incidentAt (g : Graph) (key : String) : Nat := (g.incident.get? key).getD 0

end Graph
end PlotGraph
