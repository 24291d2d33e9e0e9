import PlotGraph.Proofs.Graph.Depth
import PlotGraph.Proofs.Graph.Turns

/-!
# The order in which nodes are left

A search leaves a node when all its edges have been taken. The nodes in the order in which they
are left are those that the roots reach, and an edge between them either goes back or leads to a
node that was left before. Read from its end, this order is therefore a topological order of what
remains when the edges back are left out (`Graph.postorder_topological`). It is the order in which
the depths are relaxed.
-/

namespace PlotGraph

/-- An order of distinct nodes in which a relation leads from each node to later ones only. -/
structure IsTopological (leads : String → String → Prop) (order : List String) : Prop where
  nodup : order.Nodup
  leads_on : ∀ u ∈ order, ∀ v, leads u v → [u, v].Sublist order

namespace Search

variable {g : Graph} {roots : List String} {s : Search g}

/-- When a search is over, what it has finished is in the order of its forward steps. -/
theorem Completed.isTopological (h : Completed roots s) : IsTopological s.Forward s.finished :=
  ⟨h.nodup, fun _ hu _ huv => h.sublist_of_forward hu huv⟩

/-- An edge goes back or leads on, and not both. -/
theorem Completed.xor_backEdge (h : Completed roots s) {u v : String} (hu : u ∈ s.finished)
    (huv : g.Joined u v) : Xor ((u, v) ∈ s.backEdges) ([u, v].Sublist s.finished) := by
  by_cases hback : (u, v) ∈ s.backEdges
  · refine Or.inl ⟨hback, fun hsub => ?_⟩
    exact (h.forward_of_sublist huv hsub).2 hback
  · exact Or.inr ⟨h.sublist_of_forward hu ⟨huv, hback⟩, hback⟩

end Search

namespace Graph

variable {g : Graph} {roots : List String}

/-- The nodes that are left are those that the roots reach. -/
theorem mem_finished_iff {v : String} :
    v ∈ (g.search (g.presentKeys roots)).finished ↔ v ∈ g.reachableFrom roots := by
  rw [mem_reachableFrom_iff]
  refine ⟨fun hv => ?_, mem_finished_of_reachable⟩
  obtain ⟨path, hpath⟩ := (g.search_completed (g.presentKeys roots)).exists_forwardPath hv
  exact ⟨path, pathFrom_of_forwardPath hpath, hpath.ends⟩

/-- **The nodes are left in a topological order, from its end on.** When the search from some roots
is over, the nodes that it has left, in the order of its turns, are those that the roots reach, each
of them once; and its back edges are the pairs that it noted where an edge led back from the last
node of the path to the path. For every connection that joins a node which has been left to another
one, either their pair is a back edge, or the other one was left before, and not both. So no closed
walk in the part that is reached does without a back edge, and read from its end the order is a
topological one for all other connections. -/
theorem postorder_topological (g : Graph) (roots : List String) :
    let s := g.search (g.presentKeys roots)
    let postorder := s.finished.reverse
    (∃ log, Loop.Ends Tour.next (g.tour roots) log ⟨[], s⟩ ∧
      log.filterMap Turn.left? = postorder ∧
      ∀ p, p ∈ log.filterMap Turn.noted? ↔ p ∈ s.backEdges) ∧
    postorder.Nodup ∧
    (∀ v, v ∈ postorder ↔ v ∈ g.reachableFrom roots) ∧
    (∀ c, g.Joins c → c.source ∈ postorder →
      Xor ((c.source, c.target) ∈ s.backEdges) ([c.target, c.source].Sublist postorder)) ∧
    (∀ walk, g.ClosedWalk walk → (∀ c ∈ walk, c.source ∈ postorder) →
      ∃ c ∈ walk, (c.source, c.target) ∈ s.backEdges) ∧
    IsTopological (fun u v => g.Joined u v ∧ (u, v) ∉ s.backEdges) postorder.reverse := by
  intro s postorder
  have hdone := g.search_completed (g.presentKeys roots)
  have hmem : ∀ v, v ∈ postorder ↔ v ∈ s.finished := fun v => List.mem_reverse
  refine ⟨?_, List.nodup_reverse.mpr hdone.nodup, ?_, ?_, ?_, ?_⟩
  · obtain ⟨log, hends⟩ := g.exists_ends_tour roots
    have haccounts := g.accounts_after roots log.length
    rw [hends.after_length] at haccounts
    exact ⟨log, hends, haccounts.left, fun p => (haccounts.noted p).symm⟩
  · intro v
    rw [hmem]
    exact mem_finished_iff
  · intro c hc hsource
    have hxor := hdone.xor_backEdge ((hmem _).mp hsource) hc.joined
    rw [← List.reverse_sublist] at hxor
    exact hxor
  · intro walk hwalk hfinished
    exact hdone.exists_backEdge hwalk fun c hc => (hmem _).mp (hfinished c hc)
  · rw [List.reverse_reverse]
    exact hdone.isTopological

example : (loopBehindStart.search (loopBehindStart.presentKeys ["start"])).finished =
    ["start", "left", "right"] := by
  rw [search_of_after (n := 8) rfl]
  rfl

end Graph
end PlotGraph
