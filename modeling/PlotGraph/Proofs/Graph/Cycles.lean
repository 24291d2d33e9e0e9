import PlotGraph.Check.Structure
import PlotGraph.Proofs.Graph.Tour

/-!
# Cycles are found

The search for cycles starts from every node, so that every edge of the graph has a place in
its order of the nodes. An edge that leads on in the order makes its target stand behind its
source; a closed walk cannot do so all the way round, and therefore one of its connections
is the closing connection of a recorded cycle. In turn every recorded cycle is a closed walk
(`Cycle.Genuine.exists_closedWalk`), so none is recorded exactly if there is none.

What is recorded is a simple cycle of the graph (`findCycles_simple`).
-/

namespace PlotGraph

/-! ### Closing connections -/

namespace Search

variable {g : Graph} {roots : List String} {s : Search g}

/-- The back edges are the closing connections of the cycles. -/
theorem mem_backEdges {u v : String} :
    (u, v) ∈ s.backEdges ↔ ∃ c ∈ s.cycles, c.closing.source = u ∧ c.closing.target = v := by
  simp only [backEdges, List.mem_map, Prod.mk.injEq]

/-- A closed walk through finished nodes has a connection that closes a recorded cycle. -/
theorem Completed.exists_backEdge (h : Completed roots s) {walk : List Connection}
    (hwalk : g.ClosedWalk walk) (hfinished : ∀ c ∈ walk, c.source ∈ s.finished) :
    ∃ c ∈ walk, (c.source, c.target) ∈ s.backEdges := by
  -- positions in the order cannot grow all the way round
  obtain ⟨c, hc, hnot⟩ := hwalk.exists_not_grows fun v => s.finished.idxOf v
  refine ⟨c, hc, ?_⟩
  rcases h.edges c.source (hfinished c hc) c.target (hwalk.joins c hc).joined with hback | hsub
  · exact hback
  · exact absurd (Graph.idxOf_lt_of_sublist h.nodup hsub) hnot

end Search

/-- A genuine cycle is a closed walk. -/
theorem Cycle.Genuine.exists_closedWalk {g : Graph} {c : Cycle} (h : c.Genuine g) :
    ∃ walk, g.ClosedWalk walk := by
  have hfirst := h.first
  have hlast := h.last
  have hlinked := h.linked
  cases hpath : c.path.dropLast with
  | nil =>
      rw [hpath] at hfirst
      cases hfirst
  | cons v vs =>
      rw [hpath] at hfirst hlast hlinked
      obtain ⟨walk, hne, hjoins, hchain, hhead, hend⟩ :=
        Graph.exists_walk h.closing v vs hlinked hlast
      refine ⟨walk, hne, hjoins, hchain, ?_⟩
      rw [hend, hhead]
      exact (Option.some.inj hfirst).symm

/-- The nodes of a cycle exist. -/
theorem Cycle.Genuine.hasNode {g : Graph} {c : Cycle} (h : c.Genuine g) :
    ∀ v ∈ c.path.dropLast, g.hasNode v = true := by
  have hpath : g.PathFrom [c.closing.target] c.path.dropLast :=
    ⟨⟨c.closing.target, h.first, List.mem_cons_self, h.closing.target⟩, h.linked⟩
  refine hpath.forall_mem (p := fun v => g.hasNode v = true) ?_ ?_
  · exact fun r _ hr => hr
  · exact fun u v _ huv => huv.hasNode

namespace Graph

/-- Without closed walks a search records no cycles. -/
theorem Acyclic.cycles_eq_nil {g : Graph} (hg : g.Acyclic) {roots : List String}
    {s : Search g} (h : s.Completed roots) : s.cycles = [] := by
  cases hcycles : s.cycles with
  | nil => rfl
  | cons c rest =>
      have hc : c ∈ s.cycles := by
        rw [hcycles]
        exact List.mem_cons_self
      obtain ⟨walk, hwalk⟩ := (h.genuine c hc).exists_closedWalk
      exact absurd hwalk (hg walk)

/-! ### The search from all nodes -/

/-- A search from all nodes finishes every node. -/
theorem mem_finished_of_hasNode {g : Graph} {key : String} (h : g.hasNode key = true) :
    key ∈ (g.search (g.presentKeys g.nodes.keys)).finished := by
  apply (g.search_completed (g.presentKeys g.nodes.keys)).roots_mem
  exact mem_map_presentKeys.mpr ⟨(g.nodes.contains_iff key).mp h, h⟩

/-- Every closed walk has a connection with the ends of one that closes a cycle found. -/
theorem exists_closing {g : Graph} {walk : List Connection} (hwalk : g.ClosedWalk walk) :
    ∃ c ∈ walk, ∃ cycle ∈ g.findCycles,
      cycle.closing.source = c.source ∧ cycle.closing.target = c.target := by
  have hdone := g.search_completed (g.presentKeys g.nodes.keys)
  obtain ⟨c, hc, hback⟩ := hdone.exists_backEdge hwalk fun c hc =>
    mem_finished_of_hasNode (hwalk.joins c hc).source
  exact ⟨c, hc, Search.mem_backEdges.mp hback⟩

/-- No cycle is found exactly if there is no closed walk. -/
theorem findCycles_eq_nil_iff (g : Graph) : g.findCycles = [] ↔ g.Acyclic := by
  constructor
  · intro hnil walk hwalk
    obtain ⟨-, -, cycle, hcycle, -⟩ := exists_closing hwalk
    rw [hnil] at hcycle
    cases hcycle
  · intro hg
    exact hg.cycles_eq_nil (g.search_completed (g.presentKeys g.nodes.keys))

/-- The check has no errors exactly if the graph has no cycles. -/
theorem checkCycles_errors_eq_nil_iff (g : Graph) : g.checkCycles.errors = [] ↔ g.Acyclic := by
  rw [← findCycles_eq_nil_iff]
  exact List.map_eq_nil_iff

/-- **No circular dependency goes unreported.** The closing connections of the cycles found
meet every closed walk, whatever the order, the components and the parallel or dangling
connections of the graph. So no cycle is found exactly if there is no closed walk, and the
check for circular dependencies reports a defect exactly if there is one. -/
theorem findCycles_meets_closedWalks (g : Graph) :
    (∀ walk, g.ClosedWalk walk → ∃ c ∈ walk, ∃ cycle ∈ g.findCycles,
      cycle.closing.source = c.source ∧ cycle.closing.target = c.target) ∧
    (g.findCycles = [] ↔ g.Acyclic) ∧
    (g.checkCycles.errors ≠ [] ↔ ∃ walk, g.ClosedWalk walk) := by
  refine ⟨fun walk hwalk => exists_closing hwalk, findCycles_eq_nil_iff g, ?_⟩
  rw [Ne, checkCycles_errors_eq_nil_iff, Acyclic, not_forall_not]

/-- Two nodes that lead to each other behind a third one, with a parallel connection and
one that leads nowhere. -/
def loopBehindStart : Graph where
  id := "g"
  nodes := .ofList (["start", "left", "right"].map fun key =>
    (key, { id := key, config := .empty }))
  connections := .ofList [("1", { id := "1", source := "right", target := "left" }),
    ("2", { id := "2", source := "start", target := "left" }),
    ("3", { id := "3", source := "left", target := "right" }),
    ("4", { id := "4", source := "left", target := "right" }),
    ("5", { id := "5", source := "left", target := "nowhere" })]

/-- The walk through the parallel connection meets a closing connection as well. -/
theorem loopBehindStart_meets_closing :
    ∃ c ∈ [{ id := "4", source := "left", target := "right" },
        { id := "1", source := "right", target := "left" : Connection }],
      ∃ cycle ∈ loopBehindStart.findCycles,
        cycle.closing.source = c.source ∧ cycle.closing.target = c.target := by
  refine (findCycles_meets_closedWalks loopBehindStart).1 _ ⟨by simp, ?_, ?_, rfl⟩
  · intro c hc
    rcases List.mem_pair.mp hc with rfl | rfl
    · exact ⟨by decide, by decide, by decide, by decide⟩
    · exact ⟨by decide, by decide, by decide, by decide⟩
  · exact List.isChain_pair.mpr rfl

/-! ### What is found -/

/-- **Every cycle found is a simple cycle of the graph.** Its path goes through distinct keys
of nodes and then back to the first of them. Each of these is joined to the next by a
connection of the graph that is no self-loop, and so is the last to the first by the closing
connection. -/
theorem findCycles_simple (g : Graph) (c : Cycle) (hc : c ∈ g.findCycles) :
    ∃ (first last : String) (nodes : List String),
      c.path = nodes ++ [first] ∧ nodes.head? = some first ∧ nodes.getLast? = some last ∧
      nodes.Nodup ∧ (∀ v ∈ nodes, v ∈ g.nodes.keys) ∧
      nodes.IsChain (fun u v =>
        ∃ d ∈ g.wires, d.isSelfLoop = false ∧ d.source = u ∧ d.target = v) ∧
      c.closing ∈ g.wires ∧ c.closing.isSelfLoop = false ∧
      c.closing.source = last ∧ c.closing.target = first := by
  have h := (g.search_completed (g.presentKeys g.nodes.keys)).genuine c hc
  refine ⟨c.closing.target, c.closing.source, c.path.dropLast, h.path_eq, h.first, h.last,
    h.nodup, ?_, ?_, h.closing.mem, h.closing.not_loop, rfl, rfl⟩
  · intro v hv
    exact (g.nodes.contains_iff v).mp (h.hasNode v hv)
  · refine h.linked.imp ?_
    rintro u v ⟨d, hd, hsource, htarget⟩
    exact ⟨d, hd.mem, hd.not_loop, hsource, htarget⟩

/-- The loop behind the first node is found without the way that leads to it. -/
theorem loopBehindStart_simple :
    ⟨["left", "right", "left"], { id := "1", source := "right", target := "left" }⟩ ∈
      loopBehindStart.findCycles ∧
    ∃ (first last : String) (nodes : List String),
      ["left", "right", "left"] = nodes ++ [first] ∧ nodes.head? = some first ∧
      nodes.getLast? = some last ∧ nodes.Nodup ∧
      (∀ v ∈ nodes, v ∈ loopBehindStart.nodes.keys) ∧
      nodes.IsChain (fun u v =>
        ∃ d ∈ loopBehindStart.wires, d.isSelfLoop = false ∧ d.source = u ∧ d.target = v) ∧
      "right" = last ∧ "left" = first := by
  have hc : ⟨["left", "right", "left"], { id := "1", source := "right", target := "left" }⟩ ∈
      loopBehindStart.findCycles := by
    have hfound : loopBehindStart.findCycles = [⟨["left", "right", "left"],
        { id := "1", source := "right", target := "left" }⟩] := by
      rw [findCycles, search_of_after (n := 10) rfl]
      rfl
    rw [hfound]
    exact List.mem_cons_self
  obtain ⟨first, last, nodes, hpath, hhead, hlast, hnodup, hkeys, hlinked, -, -, hs, ht⟩ :=
    findCycles_simple loopBehindStart _ hc
  exact ⟨hc, first, last, nodes, hpath, hhead, hlast, hnodup, hkeys, hlinked, hs, ht⟩

end Graph
end PlotGraph
