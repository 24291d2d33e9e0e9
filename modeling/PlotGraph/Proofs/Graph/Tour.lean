import PlotGraph.Proofs.Graph.Search
import PlotGraph.Proofs.Loop

/-!
# A search turn by turn

A search from several roots goes round two loops: the outer one takes the next root, the inner
one follows an edge of the node in hand or leaves that node. A `Tour` is such a search on its
way, and `Tour.next` is one turn of these loops, a step of `Search.step` while there is a frame
and a new root otherwise. A tour from some roots ends where `Graph.search` ends
(`Graph.exists_ends_tour`); it needs no bound on its turns for that.

`Tour.Moves` lists what a turn can do, with the conditions under which it does it. All that is
known of the states of a tour is shown along it; the main statement is what they have in common
(`Graph.tour_keeps_path`).
-/

namespace PlotGraph

/-! ### Turns -/

/-- What a search does in one turn of its loops. -/
inductive Turn (g : Graph) where
  /-- It passes over a root that has been visited. -/
  | skip (root : String)
  /-- It starts at a root. -/
  | start (root : String)
  /-- It takes an edge from the node in hand back to a node of the path. -/
  | back (node : String) (e : g.Edge)
  /-- It takes an edge from the node in hand to a node that has been left. -/
  | pass (node : String) (e : g.Edge)
  /-- It takes an edge from the node in hand to a new node, and goes there. -/
  | go (node : String) (e : g.Edge)
  /-- It leaves the node in hand. -/
  | leave (node : String)

/-- A search from several roots on its way: the roots to which it has not come yet, and what it
has found so far. -/
structure Tour (g : Graph) where
  waiting : List g.Key
  search : Search g := {}

namespace Tour

variable {g : Graph}

/-- What is done at a node: its next edge is taken, or it is left where there is none. -/
def turnAt (s : Search g) (node : String) : List g.Edge → Turn g
  | [] => .leave node
  | e :: _ =>
    if s.onStack.contains e.target.val then .back node e
    else if s.visited.contains e.target.val then .pass node e
    else .go node e

/-- One turn of the loops. There is none where the last node of the path is looked up in vain,
and none where no root is left. -/
def next (t : Tour g) : Option (Turn g × Tour g) :=
  let s := t.search
  match s.frames, s.path, t.waiting with
  | [], _, [] => none
  | [], _, root :: waiting =>
    if s.visited.contains root.val then some (.skip root.val, ⟨waiting, s⟩)
    else some (.start root.val,
      ⟨waiting, { s with path := [], frames := [] }.enter root.val (g.edgesAt root.val)⟩)
  | frame :: _, node :: _, waiting =>
    some (turnAt s node frame, ⟨waiting, s.step g.edgesAt⟩)
  | _ :: _, [], _ => none

/-- The turns of a tour, each with what it needs and what it makes of the tour. -/
inductive Moves : Tour g → Turn g → Tour g → Prop
  | skip {s : Search g} {root : g.Key} {waiting : List g.Key} (hframes : s.frames = [])
      (hold : root.val ∈ s.visited) :
      Moves ⟨root :: waiting, s⟩ (.skip root.val) ⟨waiting, s⟩
  | start {s : Search g} {root : g.Key} {waiting : List g.Key} (hframes : s.frames = [])
      (hnew : root.val ∉ s.visited) :
      Moves ⟨root :: waiting, s⟩ (.start root.val)
        ⟨waiting, { s with path := [], frames := [] }.enter root.val (g.edgesAt root.val)⟩
  | back {s : Search g} {waiting : List g.Key} {node : String} {path : List String}
      {e : g.Edge} {es : List g.Edge} {frames : List (List g.Edge)}
      (hpath : s.path = node :: path) (hframes : s.frames = (e :: es) :: frames)
      (hstack : e.target.val ∈ s.onStack) :
      Moves ⟨waiting, s⟩ (.back node e)
        ⟨waiting, Search.recordCycle { s with frames := es :: frames } e.val⟩
  | pass {s : Search g} {waiting : List g.Key} {node : String} {path : List String}
      {e : g.Edge} {es : List g.Edge} {frames : List (List g.Edge)}
      (hpath : s.path = node :: path) (hframes : s.frames = (e :: es) :: frames)
      (hstack : e.target.val ∉ s.onStack) (hold : e.target.val ∈ s.visited) :
      Moves ⟨waiting, s⟩ (.pass node e) ⟨waiting, { s with frames := es :: frames }⟩
  | go {s : Search g} {waiting : List g.Key} {node : String} {path : List String}
      {e : g.Edge} {es : List g.Edge} {frames : List (List g.Edge)}
      (hpath : s.path = node :: path) (hframes : s.frames = (e :: es) :: frames)
      (hstack : e.target.val ∉ s.onStack) (hnew : e.target.val ∉ s.visited) :
      Moves ⟨waiting, s⟩ (.go node e) ⟨waiting, Search.enter { s with frames := es :: frames }
        e.target.val (g.edgesAt e.target.val)⟩
  | leave {s : Search g} {waiting : List g.Key} {node : String} {path : List String}
      {frames : List (List g.Edge)}
      (hpath : s.path = node :: path) (hframes : s.frames = [] :: frames) :
      Moves ⟨waiting, s⟩ (.leave node) ⟨waiting, s.leave⟩

/-- The turn at the end of the path moves the tour as a step of the search. -/
theorem moves_turnAt {s : Search g} {waiting : List g.Key} {node : String} {path : List String}
    {frame : List g.Edge} {frames : List (List g.Edge)} (hpath : s.path = node :: path)
    (hframes : s.frames = frame :: frames) :
    Moves ⟨waiting, s⟩ (turnAt s node frame) ⟨waiting, s.step g.edgesAt⟩ := by
  cases frame with
  | nil =>
      rw [Search.step, hframes, turnAt]
      exact .leave hpath hframes
  | cons e es =>
      rw [Search.step, hframes, turnAt]
      dsimp only
      rw [Search.follow]
      dsimp only
      split
      · next hstack =>
          exact .back hpath hframes (List.contains_iff_mem.mp hstack)
      · next hstack =>
          have hstack' : e.target.val ∉ s.onStack := by simpa using hstack
          split
          · next hold => exact .pass hpath hframes hstack' (List.contains_iff_mem.mp hold)
          · next hnew => exact .go hpath hframes hstack' (by simpa using hnew)

/-- The turn that is taken next moves the tour. -/
theorem moves_of_next {t u : Tour g} {turn : Turn g} (h : t.next = some (turn, u)) :
    t.Moves turn u := by
  obtain ⟨waiting, s⟩ := t
  cases hframes : s.frames with
  | nil =>
      cases waiting with
      | nil =>
          simp only [next, hframes] at h
          cases h
      | cons root waiting =>
          simp only [next, hframes] at h
          split at h
          · next hold =>
              cases h
              exact .skip hframes (List.contains_iff_mem.mp hold)
          · next hnew =>
              cases h
              exact .start hframes (by simpa using hnew)
  | cons frame frames =>
      cases hpath : s.path with
      | nil =>
          simp only [next, hframes, hpath] at h
          cases h
      | cons node path =>
          simp only [next, hframes, hpath] at h
          cases h
          exact moves_turnAt hpath hframes

/-- In a turn of the inner loop the search takes a step. -/
theorem eq_step_of_next {t u : Tour g} {turn : Turn g} (h : t.next = some (turn, u))
    (hframes : t.search.frames ≠ []) : u = ⟨t.waiting, t.search.step g.edgesAt⟩ := by
  cases hcons : t.search.frames with
  | nil => exact absurd hcons hframes
  | cons frame frames =>
      cases hpath : t.search.path with
      | nil =>
          simp only [next, hcons, hpath] at h
          cases h
      | cons node path =>
          simp only [next, hcons, hpath] at h
          cases h
          rfl

/-- In a turn of the outer loop the next root is passed over or entered. -/
theorem root_of_next {t u : Tour g} {turn : Turn g} (h : t.next = some (turn, u))
    (hframes : t.search.frames = []) : ∃ root waiting, t.waiting = root :: waiting ∧
      (root.val ∈ t.search.visited ∧ u = ⟨waiting, t.search⟩ ∨
        root.val ∉ t.search.visited ∧ u = ⟨waiting,
          { t.search with path := [], frames := [] }.enter root.val (g.edgesAt root.val)⟩) := by
  cases moves_of_next h with
  | skip _ hold => exact ⟨_, _, rfl, Or.inl ⟨hold, rfl⟩⟩
  | start _ hnew => exact ⟨_, _, rfl, Or.inr ⟨hnew, rfl⟩⟩
  | back _ hcons | pass _ hcons | go _ hcons | leave _ hcons =>
      rw [hframes] at hcons
      cases hcons

/-! ### The states of a tour -/

/-- A tour that comes about: its search does, from roots to which those that wait belong. -/
structure Occurs (roots : List String) (t : Tour g) : Prop where
  search : t.search.Occurs roots
  waiting : ∀ k ∈ t.waiting, k.val ∈ roots

/-- After a turn the tour is still at a state of the search. -/
theorem Occurs.next {roots : List String} {t u : Tour g} {turn : Turn g} (h : t.Occurs roots)
    (hnext : t.next = some (turn, u)) : u.Occurs roots := by
  by_cases hframes : t.search.frames = []
  · obtain ⟨root, waiting, hwaiting, hturn⟩ := root_of_next hnext hframes
    have hroots := h.waiting
    rw [hwaiting] at hroots
    obtain ⟨hroot, hrest⟩ := List.forall_mem_cons.mp hroots
    rcases hturn with ⟨-, rfl⟩ | ⟨hnew, rfl⟩
    · exact ⟨h.search, hrest⟩
    · refine ⟨?_, hrest⟩
      rw [h.search.inv.reset_eq hframes]
      exact h.search.enter root hframes hroot hnew
  · rw [eq_step_of_next hnext hframes]
    exact ⟨h.search.step hframes, h.waiting⟩

/-- While there is a frame, a turn is taken: the last node of the path is never looked up in
vain. -/
theorem Occurs.frames_eq_nil {roots : List String} {t : Tour g} (h : t.Occurs roots)
    (hnext : t.next = none) : t.search.frames = [] ∧ t.waiting = [] := by
  cases hframes : t.search.frames with
  | nil =>
      refine ⟨rfl, ?_⟩
      cases hwaiting : t.waiting with
      | nil => rfl
      | cons root waiting =>
          simp only [Tour.next, hframes, hwaiting] at hnext
          split at hnext
          · cases hnext
          · cases hnext
  | cons frame frames =>
      obtain ⟨node, path, hpath, -⟩ := h.search.inv.exists_path hframes
      simp only [Tour.next, hframes, hpath] at hnext
      cases hnext

/-! ### The end of a tour -/

/-- What a tour comes to: the search that follows from where it is. -/
def rest (t : Tour g) : Search g :=
  t.waiting.foldl (fun s root => s.explore g.edgesAt root.val) (t.search.run g.edgesAt)

/-- A search without frames is at its end. -/
theorem run_of_frames {s : Search g} (h : s.frames = []) : s.run g.edgesAt = s := by
  rw [Search.run, if_pos h]

/-- A turn changes nothing of what the tour comes to. -/
theorem rest_of_next {t u : Tour g} {turn : Turn g} (h : t.next = some (turn, u)) :
    u.rest = t.rest := by
  by_cases hframes : t.search.frames = []
  · obtain ⟨root, waiting, hwaiting, hturn⟩ := root_of_next h hframes
    rw [rest.eq_def t, hwaiting, List.foldl_cons, run_of_frames hframes, Search.explore]
    rcases hturn with ⟨hold, rfl⟩ | ⟨hnew, rfl⟩
    · rw [if_pos (by simpa using hold), rest, run_of_frames hframes]
    · rw [if_neg (by simpa using hnew), rest]
  · rw [eq_step_of_next h hframes, rest, rest, Search.run.eq_def g.edgesAt t.search,
      if_neg hframes]

/-- The order that turns go down in: the roots that wait, then the nodes that have not been
visited, then the edges and frames that are left. -/
def Below : Tour g → Tour g → Prop :=
  InvImage (Prod.Lex (· < ·) (Prod.Lex (· < ·) (· < ·))) fun t =>
    (t.waiting.length, g.unvisited t.search.visited, t.search.pending)

/-- There is no end to going below. -/
theorem wellFounded_below : WellFounded (Below (g := g)) :=
  InvImage.wf _ (WellFounded.prod_lex Nat.lt_wfRel.wf
    (WellFounded.prod_lex Nat.lt_wfRel.wf Nat.lt_wfRel.wf))

/-- Every turn leads below. -/
theorem below_of_next {t u : Tour g} {turn : Turn g} (h : t.next = some (turn, u)) :
    u.Below t := by
  by_cases hframes : t.search.frames = []
  · obtain ⟨root, waiting, hwaiting, hturn⟩ := root_of_next h hframes
    have hlt : waiting.length < t.waiting.length := by
      rw [hwaiting]
      exact Nat.lt_succ_self _
    rcases hturn with ⟨-, rfl⟩ | ⟨-, rfl⟩
    · exact Prod.Lex.left _ _ hlt
    · exact Prod.Lex.left _ _ hlt
  · rw [eq_step_of_next h hframes]
    exact Prod.Lex.right _ (Search.step_decreases g.edgesAt t.search hframes)

end Tour

namespace Graph

variable {g : Graph} {roots : List String}

/-- The tour of a graph from those of the roots that exist. The search for cycles is the tour
from all keys of nodes, and the depth is found on the tour from its roots. -/
def tour (g : Graph) (roots : List String) : Tour g := { waiting := g.presentKeys roots }

/-- A tour begins at a state of the search. -/
theorem tour_occurs (g : Graph) (roots : List String) :
    (g.tour roots).Occurs ((g.presentKeys roots).map Subtype.val) :=
  ⟨.start, fun _ hk => List.mem_map_of_mem hk⟩

/-- Whatever number of turns a tour takes, it comes about. -/
theorem occurs_after (g : Graph) (roots : List String) (n : Nat) :
    (Loop.after Tour.next (g.tour roots) n).2.Occurs ((g.presentKeys roots).map Subtype.val) :=
  Loop.after_induction (p := fun _ (t : Tour g) => t.Occurs _) (g.tour_occurs roots)
    (fun _ _ _ _ h hnext => h.next hnext) n

/-- Turns leave alone where the tour leads. -/
theorem rest_after (g : Graph) (roots : List String) (n : Nat) :
    (Loop.after Tour.next (g.tour roots) n).2.rest = (g.tour roots).rest :=
  Loop.after_induction (p := fun _ (t : Tour g) => t.rest = (g.tour roots).rest) rfl
    (fun _ _ _ _ h hnext => (Tour.rest_of_next hnext).trans h) n

/-- A tour leads where the search does. -/
theorem rest_tour (g : Graph) (roots : List String) :
    (g.tour roots).rest = g.search (g.presentKeys roots) := by
  rw [Tour.rest, tour, Tour.run_of_frames rfl]
  rfl

/-- Where no turn is left to take, the search is the one that the roots give. -/
theorem search_of_after {n : Nat}
    (hnext : (Loop.after Tour.next (g.tour roots) n).2.next = none) :
    g.search (g.presentKeys roots) = (Loop.after Tour.next (g.tour roots) n).2.search := by
  obtain ⟨hframes, hwaiting⟩ := (g.occurs_after roots n).frames_eq_nil hnext
  rw [← rest_tour, ← g.rest_after roots n, Tour.rest, hwaiting, Tour.run_of_frames hframes,
    List.foldl_nil]

/-- A tour ends, with the search that its roots give. -/
theorem exists_ends_tour (g : Graph) (roots : List String) :
    ∃ log, Loop.Ends Tour.next (g.tour roots) log ⟨[], g.search (g.presentKeys roots)⟩ := by
  obtain ⟨log, t, hends⟩ := Loop.exists_ends Tour.wellFounded_below
    (fun _ _ _ hnext => Tour.below_of_next hnext) (g.tour roots)
  have hoccurs := g.occurs_after roots log.length
  have hsearch := @search_of_after g roots log.length
  rw [hends.after_length] at hoccurs hsearch
  obtain ⟨-, hwaiting⟩ := hoccurs.frames_eq_nil hends.next_eq_none
  rw [hsearch hends.next_eq_none, ← hwaiting]
  exact ⟨log, hends⟩

end Graph

/-! ### What every turn keeps -/

namespace Search

variable {g : Graph} {roots : List String} {s : Search g}

/-- Whatever a node that has been left is joined to has been visited. -/
theorem Inv.mem_visited_of_joined (h : Inv roots none s) {u v : String} (hu : u ∈ s.visited)
    (hleft : u ∉ s.path) (huv : g.Joined u v) : v ∈ s.visited := by
  rw [h.visited] at hu ⊢
  obtain ⟨e, he, rfl⟩ := (Graph.joined_iff (h.present u hu)).mp huv
  rcases h.edges u hu e he with (hback | hbefore) | ⟨es, hzip, -⟩ | ⟨-, htaken⟩
  · obtain ⟨c, hc, heq⟩ := List.mem_map.mp hback
    obtain ⟨rfl, htarget⟩ := Prod.mk.inj heq
    rw [← htarget]
    rcases h.backward c hc with hsame | hbefore
    · rw [hsame]
      exact hu
    · exact hbefore.subset (by simp)
  · exact hbefore.subset (by simp)
  · exact absurd (List.of_mem_zip hzip).1 hleft
  · cases htaken

theorem idxOf?_append_cons {before after : List String} {v : String} (h : v ∉ before) :
    (before ++ v :: after).idxOf? v = some before.length := by
  induction before with
  | nil => rw [List.nil_append, List.idxOf?_cons, if_pos (beq_self_eq_true v), List.length_nil]
  | cons u before ih =>
      obtain ⟨hu, hbefore⟩ := not_or.mp (mt List.mem_cons.mpr h)
      rw [List.cons_append, List.idxOf?_cons, if_neg (by simpa using Ne.symm hu), ih hbefore]
      rfl

/-- A node of the path is found on it, and the closed path is what stands there from its
position on. -/
theorem exists_idxOf?_path {path : List String} {v : String} (hnodup : path.Nodup)
    (h : v ∈ path) : ∃ i, path.reverse.idxOf? v = some i ∧
      closedPath path v = path.reverse.drop i ++ [v] := by
  obtain ⟨above, below, rfl, hclosed⟩ := closedPath_eq h
  have hbelow : v ∉ below.reverse := by
    rw [List.mem_reverse]
    exact (List.nodup_cons.mp (List.nodup_append.mp hnodup).2.1).1
  have hreverse : (above ++ v :: below).reverse = below.reverse ++ v :: above.reverse := by
    simp
  refine ⟨below.reverse.length, ?_, ?_⟩
  · rw [hreverse, idxOf?_append_cons hbelow]
  · rw [hreverse, List.drop_left, hclosed]

/-- The node in hand is known while there is a frame, and it is where the edges of the frame
begin. -/
theorem Inv.exists_head (h : Inv roots none s) {frame : List g.Edge}
    {frames : List (List g.Edge)} (hframes : s.frames = frame :: frames) :
    ∃ node, s.path.head? = some node ∧ ∀ e ∈ frame, e.val.source = node := by
  obtain ⟨node, path, hpath, hsuffix, -⟩ := h.exists_path hframes
  refine ⟨node, by rw [hpath, List.head?_cons], ?_⟩
  intro e he
  exact (Graph.mem_edgesAt.mp (hsuffix.subset he)).2

end Search

namespace Graph

/-- **The path of a search is always in order.** A search from any roots comes, turn by turn, to
what `Graph.search` gives. In whatever turn it is, the path repeats no node, the stack holds the
same nodes, and all of them have been visited; there is a frame for each; each node of the path,
from the root on, is joined to the next one; and what a node that has been left is joined to has
been visited. So the node in hand is there while a frame is left, and is where the edges of that
frame begin; every node of the stack is found on the path, and what stands there from its position
on is the closed path; and nothing is on the stack when the search takes the next root. -/
theorem tour_keeps_path (g : Graph) (roots : List String) :
    (∃ log, Loop.Ends Tour.next (g.tour roots) log ⟨[], g.search (g.presentKeys roots)⟩) ∧
    ∀ n, let s := (Loop.after Tour.next (g.tour roots) n).2.search
      s.path.Nodup ∧
      (∀ v, v ∈ s.onStack ↔ v ∈ s.path) ∧
      (∀ v ∈ s.onStack, v ∈ s.visited) ∧
      s.frames.length = s.path.length ∧
      s.path.reverse.IsChain g.Joined ∧
      (∀ u ∈ s.visited, u ∉ s.path → ∀ v, g.Joined u v → v ∈ s.visited) ∧
      (∀ frame frames, s.frames = frame :: frames →
        ∃ node, s.path.head? = some node ∧ ∀ e ∈ frame, e.val.source = node) ∧
      (∀ v ∈ s.onStack, ∃ i, s.path.reverse.idxOf? v = some i ∧
        Search.closedPath s.path v = s.path.reverse.drop i ++ [v]) ∧
      (s.frames = [] → s.onStack = []) := by
  refine ⟨g.exists_ends_tour roots, ?_⟩
  intro n s
  have h := (g.occurs_after roots n).search.inv
  have hnodup : s.path.Nodup := List.nodup_reverse.mp (List.nodup_append.mp h.nodup).1
  have hstack : ∀ v, v ∈ s.onStack ↔ v ∈ s.path := fun v => by rw [h.onStack]
  refine ⟨hnodup, hstack, ?_, h.frames.length_eq.symm, ?_, ?_, ?_, ?_, ?_⟩
  · intro v hv
    exact (h.visited v).mpr (Search.mem_order_of_path ((hstack v).mp hv))
  · exact List.isChain_reverse.mpr h.linked
  · intro u hu hleft v huv
    exact h.mem_visited_of_joined hu hleft huv
  · intro frame frames hframes
    exact h.exists_head hframes
  · intro v hv
    exact Search.exists_idxOf?_path hnodup ((hstack v).mp hv)
  · intro hframes
    rw [h.onStack, h.path_eq_nil hframes]

end Graph
end PlotGraph
