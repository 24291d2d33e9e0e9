import PlotGraph.Proofs.Check.Connection
import PlotGraph.Proofs.Graph.Cycles

/-!
# Connections from a node to itself

A connection that leads back to the node it leaves is a defect of its own, and the search for
cycles is to pass over it. Both go by `Connection.isSelfLoop`, which takes a connection with
empty ends for one without ends. A node may stand under the empty key, though. A connection
from it to itself is then no defect, and it closes a cycle with a single node
(`Graph.selfLoops_and_cycles`).
-/

namespace PlotGraph
namespace Connection

theorem isSelfLoop_iff (c : Connection) :
    c.isSelfLoop = true ↔ c.source = c.target ∧ c.source ≠ "" := by
  simp [isSelfLoop, and_comm]

/-- A connection from a key to itself is an error, unless the key is empty. -/
theorem filter_errors_check (c : Connection) (g : Graph) (counts : Mapping EdgeKey Nat) :
    ((c.check g counts).errors.filter fun d => d.code = "SELF_CONNECTION").map
      (fun d => (d.nodeId, d.connectionId)) =
      if c.source = c.target ∧ c.source ≠ "" then [(some c.source, anchor c.id)] else [] := by
  obtain ⟨-, -, -, hloop⟩ := c.filter_errors_check_eq g counts
  rw [hloop, checkSelfLoop, Report.errors_when_ofDefect, apply_ite (List.map _)]
  simp only [isSelfLoop_iff]
  rfl

end Connection

/-! ### Cycles with a single node -/

/-- A list without repetitions that begins and ends with the same item has no other one. -/
theorem eq_singleton_of_nodup {l : List String} {v : String} (hnodup : l.Nodup)
    (hfirst : l.head? = some v) (hlast : l.getLast? = some v) : l = [v] := by
  cases l with
  | nil => cases hfirst
  | cons u rest =>
      obtain rfl : u = v := Option.some.inj hfirst
      cases rest with
      | nil => rfl
      | cons w ws =>
          rw [List.getLast?_cons_cons] at hlast
          exact absurd (List.mem_of_getLast? hlast) (List.nodup_cons.mp hnodup).1

namespace Cycle.Genuine

variable {g : Graph} {c : Cycle}

/-- A cycle that a self-loop closes stays at the empty key. -/
theorem eq_empty_of_ends_eq (h : c.Genuine g) (hends : c.closing.source = c.closing.target) :
    c.closing.target = "" := by
  by_contra hne
  have hloop := c.closing.isSelfLoop_iff.mpr ⟨hends, hends ▸ hne⟩
  rw [h.closing.not_loop] at hloop
  cases hloop

/-- A cycle that closes where it starts is the loop at the empty key. -/
theorem path_of_ends_eq (h : c.Genuine g) (hends : c.closing.source = c.closing.target) :
    c.path = ["", ""] := by
  have hinit : c.path.dropLast = [c.closing.target] :=
    eq_singleton_of_nodup h.nodup h.first (hends ▸ h.last)
  rw [h.path_eq, hinit, h.eq_empty_of_ends_eq hends]
  rfl

/-- Any other cycle goes through both ends of the connection that closes it. -/
theorem exists_ne (h : c.Genuine g) (hends : c.closing.source ≠ c.closing.target) :
    ∃ u ∈ c.path, ∃ v ∈ c.path, u ≠ v := by
  refine ⟨c.closing.source, ?_, c.closing.target, ?_, hends⟩
  · exact List.mem_of_mem_dropLast (List.mem_of_getLast? h.last)
  · exact List.mem_of_mem_dropLast (List.mem_of_head? h.first)

/-- The ends of the closing connection can be read off a path that stays at the empty key. -/
theorem ends_of_path (h : c.Genuine g) (hpath : c.path = ["", ""]) :
    c.closing.source = "" ∧ c.closing.target = "" := by
  have hfirst := h.first
  have hlast := h.last
  rw [hpath] at hfirst hlast
  exact ⟨(Option.some.inj hlast).symm, (Option.some.inj hfirst).symm⟩

end Cycle.Genuine

namespace Graph

/-- A node stands under the empty key, and a connection joins it to itself. -/
def HasEmptyLoop (g : Graph) : Prop :=
  g.hasNode "" = true ∧ ∃ c ∈ g.wires, c.source = "" ∧ c.target = ""

instance (g : Graph) : Decidable g.HasEmptyLoop :=
  inferInstanceAs (Decidable (g.hasNode "" = true ∧ ∃ c ∈ g.wires, c.source = "" ∧ c.target = ""))

/-- Whatever is found is a cycle of the graph. -/
theorem genuine_of_mem_findCycles {g : Graph} {c : Cycle} (h : c ∈ g.findCycles) :
    c.Genuine g :=
  (g.search_completed (g.presentKeys g.nodes.keys)).genuine c h

/-- A loop at the empty key is a closed walk by itself. -/
theorem exists_cycle_of_hasEmptyLoop {g : Graph} (h : g.HasEmptyLoop) :
    ∃ cycle ∈ g.findCycles, cycle.path = ["", ""] := by
  obtain ⟨hnode, c, hc, hsource, htarget⟩ := h
  have hjoins : g.Joins c := by
    refine ⟨hc, hsource ▸ hnode, htarget ▸ hnode, ?_⟩
    rw [Connection.isSelfLoop, hsource]
    rfl
  have hwalk : g.ClosedWalk [c] := by
    refine ⟨List.cons_ne_nil _ _, ?_, List.isChain_singleton c, htarget.trans hsource.symm⟩
    intro d hd
    rw [List.mem_singleton.mp hd]
    exact hjoins
  obtain ⟨d, hd, cycle, hcycle, hs, ht⟩ := exists_closing hwalk
  obtain rfl := List.mem_singleton.mp hd
  refine ⟨cycle, hcycle, (genuine_of_mem_findCycles hcycle).path_of_ends_eq ?_⟩
  rw [hs, ht, hsource, htarget]

/-- The cycle at the empty key is found exactly if there is a loop there. -/
theorem exists_empty_cycle_iff (g : Graph) :
    (∃ cycle ∈ g.findCycles, cycle.path = ["", ""]) ↔ g.HasEmptyLoop := by
  constructor
  · rintro ⟨cycle, hcycle, hpath⟩
    have h := genuine_of_mem_findCycles hcycle
    obtain ⟨hsource, htarget⟩ := h.ends_of_path hpath
    exact ⟨hsource ▸ h.closing.source, cycle.closing, h.closing.mem, hsource, htarget⟩
  · exact exists_cycle_of_hasEmptyLoop

/-! ### The defects of a graph -/

/-- The defects are those of the self-loops with ends that are not empty, one for each. -/
theorem selfConnection_errors (g : Graph) :
    (g.checkConnections.errors.filter fun d => d.code = "SELF_CONNECTION").map
      (fun d => (d.nodeId, d.connectionId)) =
      (g.wires.filter fun c => c.source = c.target ∧ c.source ≠ "").map
        fun c => (some c.source, anchor c.id) := by
  rw [checkConnections, Report.errors_concat]
  exact Report.map_filter_flatMap_of_subjects fun c _ => c.filter_errors_check g g.edgeCounts

/-- Self-loops are defects of their own, and the search for cycles passes over them. -/
structure SelfLoopsApart (g : Graph) : Prop where
  reported : ∀ c ∈ g.wires, c.source = c.target → g.hasNode c.source = true →
    ((c.check g g.edgeCounts).errors.filter fun d => d.code = "SELF_CONNECTION").length = 1
  not_closing : ∀ c ∈ g.wires, c.source = c.target → g.hasNode c.source = true →
    ∀ cycle ∈ g.findCycles, cycle.closing ≠ c
  distinct : ∀ cycle ∈ g.findCycles, ∃ u ∈ cycle.path, ∃ v ∈ cycle.path, u ≠ v

/-- Each self-loop is one error, unless the key is empty. -/
theorem length_selfConnection_errors (g : Graph) (c : Connection) :
    ((c.check g g.edgeCounts).errors.filter fun d => d.code = "SELF_CONNECTION").length =
      if c.source = c.target ∧ c.source ≠ "" then 1 else 0 := by
  have hlength := congrArg List.length (c.filter_errors_check g g.edgeCounts)
  rw [List.length_map] at hlength
  rw [hlength]
  split <;> rfl

/-- Self-loops are kept apart from cycles exactly if there is none at the empty key. -/
theorem selfLoopsApart_iff (g : Graph) : g.SelfLoopsApart ↔ ¬ g.HasEmptyLoop := by
  constructor
  · rintro h ⟨hnode, c, hc, hsource, htarget⟩
    have hone := h.reported c hc (hsource.trans htarget.symm) (hsource ▸ hnode)
    rw [length_selfConnection_errors, if_neg (fun hloop => hloop.2 hsource)] at hone
    cases hone
  · intro h
    have hne : ∀ c ∈ g.wires, c.source = c.target → g.hasNode c.source = true →
        c.source ≠ "" :=
      fun c hc hends hnode hempty =>
        h ⟨hempty ▸ hnode, c, hc, hempty, hends.symm.trans hempty⟩
    have hclosing : ∀ cycle ∈ g.findCycles, cycle.closing.source ≠ cycle.closing.target := by
      intro cycle hcycle hends
      have hgenuine := genuine_of_mem_findCycles hcycle
      exact hne _ hgenuine.closing.mem hends hgenuine.closing.source
        (hends.trans (hgenuine.eq_empty_of_ends_eq hends))
    refine ⟨?_, ?_, ?_⟩
    · intro c hc hends hnode
      rw [length_selfConnection_errors, if_pos ⟨hends, hne c hc hends hnode⟩]
    · rintro c - hends - cycle hcycle rfl
      exact hclosing cycle hcycle hends
    · intro cycle hcycle
      exact (genuine_of_mem_findCycles hcycle).exists_ne (hclosing cycle hcycle)

/-- **Self-loops are told from cycles, except at the empty key.** The check of the connections
finds one defect for each connection that leads from a key other than the empty one to the
same key, and no others with this code. A cycle found goes through two distinct nodes, and a
self-loop does not close it; or a self-loop closes it and it stays at the empty key, which is
found exactly if a node stands there and a connection joins it to itself. So self-loops are
kept apart from cycles in all other graphs and in no such graph. -/
theorem selfLoops_and_cycles (g : Graph) :
    (g.checkConnections.errors.filter fun d => d.code = "SELF_CONNECTION").map
      (fun d => (d.nodeId, d.connectionId)) =
      ((g.wires.filter fun c => c.source = c.target ∧ c.source ≠ "").map
        fun c => (some c.source, anchor c.id)) ∧
    (∀ cycle ∈ g.findCycles,
      (cycle.closing.source ≠ cycle.closing.target ∧
        ∃ u ∈ cycle.path, ∃ v ∈ cycle.path, u ≠ v) ∨
      (cycle.closing.source = cycle.closing.target ∧ cycle.path = ["", ""])) ∧
    ((∃ cycle ∈ g.findCycles, cycle.path = ["", ""]) ↔ g.HasEmptyLoop) ∧
    (g.SelfLoopsApart ↔ ¬ g.HasEmptyLoop) := by
  refine ⟨g.selfConnection_errors, ?_, g.exists_empty_cycle_iff, g.selfLoopsApart_iff⟩
  intro cycle hcycle
  have h := genuine_of_mem_findCycles hcycle
  by_cases hends : cycle.closing.source = cycle.closing.target
  · exact Or.inr ⟨hends, h.path_of_ends_eq hends⟩
  · exact Or.inl ⟨hends, h.exists_ne hends⟩

/-- A start under the empty key, joined to itself. -/
def emptyLoop : Graph where
  id := "g"
  nodes := .ofList [("", { id := "a", tag := "start", config := .empty })]
  connections := .ofList [("c", { id := "c" })]

/-- The loop is found as a cycle. -/
theorem emptyLoop_cycle :
    (∃ cycle ∈ emptyLoop.findCycles, cycle.path = ["", ""]) ∧ ¬ emptyLoop.SelfLoopsApart := by
  obtain ⟨-, -, hcycle, hapart⟩ := selfLoops_and_cycles emptyLoop
  have hloop : emptyLoop.HasEmptyLoop := by decide
  exact ⟨hcycle.mpr hloop, fun h => hapart.mp h hloop⟩

/-- Self-loops are not always kept apart from cycles. -/
theorem not_forall_selfLoopsApart : ¬ ∀ g : Graph, g.SelfLoopsApart := by
  intro h
  have hloop : ¬ emptyLoop.HasEmptyLoop := emptyLoop.selfLoopsApart_iff.mp (h emptyLoop)
  revert hloop
  decide

end Graph
end PlotGraph
