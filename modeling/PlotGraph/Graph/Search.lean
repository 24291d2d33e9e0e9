import PlotGraph.Graph.Walk

/-!
# Depth-first search

A `Search` is the state of a depth-first search with an explicit stack: the path from the
root to the node in hand, and for every node of the path the edges that are still to be
followed. `step` follows one edge or leaves one node, `explore` starts at a root that has
not been visited, and `Graph.search` explores from several roots in turn.

The state also keeps what the search has found:

* an edge into a node of the path closes a cycle, which is recorded once for each path;
* a node that is left is finished, and the nodes are kept in the reverse of the order in
  which they are finished.

A search ends because every step either visits a node that was unvisited, or uses up an
edge or a frame (`step_decreases`).
-/

namespace PlotGraph

/-- A closed path, with the first node repeated at its end, and the connection that closes
it. -/
structure Cycle where
  path : List String
  closing : Connection
  deriving DecidableEq, Repr

/-- The state of a depth-first search. -/
structure Search (g : Graph) where
  /-- The nodes that have been reached. -/
  visited : List String := []
  /-- The nodes of the path, as a set. -/
  onStack : List String := []
  /-- The path from the root to the node in hand, that node first. -/
  path : List String := []
  /-- For each node of the path, the edges still to be followed. -/
  frames : List (List g.Edge) := []
  /-- The cycles found so far. -/
  cycles : List Cycle := []
  /-- The nodes that have been left, the last one first. -/
  finished : List String := []

namespace Search

variable {g : Graph}

/-! ### One step -/

/-- The closed path from a node of the path to the node in hand and back. -/
def closedPath (path : List String) (target : String) : List String :=
  target :: (path.takeWhile (· != target)).reverse ++ [target]

/-- Record the cycle that a connection closes, unless its path is recorded already. -/
def recordCycle (s : Search g) (c : Connection) : Search g :=
  let path := closedPath s.path c.target
  if s.cycles.any (·.path == path) then s else { s with cycles := s.cycles ++ [⟨path, c⟩] }

/-- Go to a node, with the edges that leave it. -/
def enter (s : Search g) (key : String) (es : List g.Edge) : Search g :=
  { s with
    visited := key :: s.visited
    onStack := key :: s.onStack
    path := key :: s.path
    frames := es :: s.frames }

/-- Leave the node in hand, whose edges have all been followed. -/
def leave (s : Search g) : Search g :=
  match s.path with
  | [] => { s with frames := s.frames.tail }
  | node :: path =>
    { s with
      onStack := s.onStack.erase node
      path := path
      frames := s.frames.tail
      finished := node :: s.finished }

def follow (s : Search g) (edgesOf : String → List g.Edge) (e : g.Edge) : Search g :=
  if s.onStack.contains e.target.val then s.recordCycle e.val
  else if s.visited.contains e.target.val then s
  else s.enter e.target.val (edgesOf e.target.val)

/-- Follow the next edge of the node in hand, or leave it where none is left. -/
def step (edgesOf : String → List g.Edge) (s : Search g) : Search g :=
  match s.frames with
  | [] => s
  | [] :: _ => s.leave
  | (e :: es) :: frames => follow { s with frames := es :: frames } edgesOf e

/-! ### The measure -/

/-- The edges and frames that are left to use up. -/
def pending (s : Search g) : Nat := s.frames.foldr (fun es n => es.length + 1 + n) 0

theorem recordCycle_visited (s : Search g) (c : Connection) :
    (s.recordCycle c).visited = s.visited := by
  simp only [recordCycle]
  split <;> rfl

theorem recordCycle_frames (s : Search g) (c : Connection) :
    (s.recordCycle c).frames = s.frames := by
  simp only [recordCycle]
  split <;> rfl

theorem leave_visited (s : Search g) : s.leave.visited = s.visited := by
  simp only [leave]
  split <;> rfl

theorem leave_frames (s : Search g) : s.leave.frames = s.frames.tail := by
  simp only [leave]
  split <;> rfl

/-- A step visits a node that was unvisited, or leaves less to use up. -/
theorem step_decreases (edgesOf : String → List g.Edge) (s : Search g) (h : s.frames ≠ []) :
    Prod.Lex (· < ·) (· < ·)
      (g.unvisited (s.step edgesOf).visited, (s.step edgesOf).pending)
      (g.unvisited s.visited, s.pending) := by
  match hf : s.frames with
  | [] => exact absurd hf h
  | [] :: rest =>
    have hs : s.step edgesOf = s.leave := by simp [step, hf]
    rw [hs, leave_visited]
    refine Prod.Lex.right _ ?_
    simp [pending, leave_frames, hf]
  | (e :: es) :: rest =>
    have hs : s.step edgesOf = follow { s with frames := es :: rest } edgesOf e := by
      simp [step, hf]
    rw [hs, follow]
    split
    · rw [recordCycle_visited]
      refine Prod.Lex.right _ ?_
      simp only [pending, recordCycle_frames, hf, List.foldr_cons, List.length_cons]
      omega
    · split
      · refine Prod.Lex.right _ ?_
        simp only [pending, hf, List.foldr_cons, List.length_cons]
        omega
      · next hv =>
        refine Prod.Lex.left _ _ ?_
        exact Graph.unvisited_cons_lt e.target.property (by simpa using hv)

/-! ### Whole searches -/

/-- Take steps until the stack is empty. -/
def run (edgesOf : String → List g.Edge) (s : Search g) : Search g :=
  if s.frames = [] then s else run edgesOf (s.step edgesOf)
termination_by (g.unvisited s.visited, s.pending)
decreasing_by exact step_decreases edgesOf s (by assumption)

/-- Search from a root, unless it has been visited. -/
def explore (edgesOf : String → List g.Edge) (s : Search g) (root : String) : Search g :=
  if s.visited.contains root then s
  else run edgesOf ({ s with path := [], frames := [] }.enter root (edgesOf root))

end Search

namespace Graph

def search (g : Graph) (roots : List g.Key) : Search g :=
  let index := g.outgoing
  roots.foldl (fun s root => s.explore (g.edgesFrom index) root.val) {}

/-- The cycles of a graph, each found by a search from all nodes in order. -/
def findCycles (g : Graph) : List Cycle := (g.search (g.presentKeys g.nodes.keys)).cycles

end Graph
end PlotGraph
