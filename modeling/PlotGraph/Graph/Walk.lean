import PlotGraph.Graph.Index

/-!
# Edges that can be followed

A search follows the connections that lead to an existing node and are no self-loops. An
`Edge` is such a connection, so the node it leads to is a key of the graph; this is what
bounds every search.

`Graph.unvisited` measures what a search has still to find. It grows smaller with every
new key (`unvisited_cons_lt`).
-/

namespace PlotGraph

namespace Graph

/-- Whether a search follows a connection. -/
def Walkable (g : Graph) (c : Connection) : Prop :=
  g.hasNode c.target = true ∧ c.isSelfLoop = false

instance (g : Graph) (c : Connection) : Decidable (g.Walkable c) :=
  inferInstanceAs (Decidable (_ ∧ _))

/-- A key under which a node stands. -/
abbrev Key (g : Graph) := { key : String // g.hasNode key = true }

/-- A connection that a search follows. -/
abbrev Edge (g : Graph) := { c : Connection // g.Walkable c }

def Edge.target {g : Graph} (e : g.Edge) : g.Key := ⟨e.val.target, e.property.1⟩

/-- The connections of a list that a search follows. -/
def edges (g : Graph) (cs : List Connection) : List g.Edge :=
  cs.filterMap fun c => if h : g.Walkable c then some ⟨c, h⟩ else none

/-- The edges that leave a key, by an index of the outgoing connections. -/
def edgesFrom (g : Graph) (index : Mapping String (List Connection)) (key : String) :
    List g.Edge :=
  g.edges ((index.get? key).getD [])

/-- The keys of a list under which a node stands. -/
def presentKeys (g : Graph) (keys : List String) : List g.Key :=
  keys.filterMap fun k => if h : g.hasNode k = true then some ⟨k, h⟩ else none

/-! ### What is left to visit -/

/-- The number of nodes that are not among the visited ones. -/
def unvisited (g : Graph) (visited : List String) : Nat :=
  (g.nodes.keys.filter fun k => !visited.contains k).length

/-- A list that loses one of its members under a stronger filter becomes shorter. -/
theorem length_filter_lt {α : Type} {p q : α → Bool} {l : List α} {a : α}
    (hpq : ∀ x, p x = true → q x = true) (ha : a ∈ l) (hp : p a = false) (hq : q a = true) :
    (l.filter p).length < (l.filter q).length := by
  induction l with
  | nil => simp at ha
  | cons x xs ih =>
    have hle : (xs.filter p).length ≤ (xs.filter q).length := by
      rw [← List.countP_eq_length_filter, ← List.countP_eq_length_filter]
      exact List.countP_mono_left fun x _ h => hpq x h
    rcases List.mem_cons.mp ha with rfl | hmem
    · simp only [List.filter_cons, hp, hq]
      simp
      omega
    · have := ih hmem
      by_cases hx : p x = true
      · simp [hx, hpq x hx, this]
      · by_cases hx' : q x = true
        · simp [hx, hx']
          omega
        · simp [hx, hx', this]

/-- To visit a new key leaves less to visit. -/
theorem unvisited_cons_lt {g : Graph} {visited : List String} {key : String}
    (hkey : g.hasNode key = true) (hnew : key ∉ visited) :
    g.unvisited (key :: visited) < g.unvisited visited := by
  refine length_filter_lt ?_ ((Mapping.contains_iff g.nodes key).mp hkey) ?_ ?_
  · intro x h
    simp at h ⊢
    exact h.2
  · simp
  · simpa using hnew

end Graph
end PlotGraph
