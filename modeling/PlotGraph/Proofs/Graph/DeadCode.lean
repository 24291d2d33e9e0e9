import PlotGraph.Check.Structure
import PlotGraph.Proofs.Graph.Reach
import Mathlib.Logic.Relation

/-!
# Dead code

Which nodes count as reached is said here without any search: those that one comes to from a
root over any number of connections that lead to nodes (`Graph.Reached`). Loops at a node and
connections that come from nowhere make no difference to that, and the search finds exactly
these nodes (`mem_reachableFrom_iff_reached`).

The pass that reports dead code therefore reports the nodes that no start node reaches, comments
apart (`reachableFrom_and_dead_code`).
-/

namespace PlotGraph
namespace Graph

variable {g : Graph} {roots : List String} {u v : String}

/-! ### Reached nodes -/

/-- Some connection leads from one key to another under which a node stands. -/
def Leads (g : Graph) (u v : String) : Prop :=
  ∃ c ∈ g.wires, c.source = u ∧ c.target = v ∧ g.hasNode v = true

/-- One comes to a node from a root that exists. -/
def Reached (g : Graph) (roots : List String) (v : String) : Prop :=
  ∃ r ∈ roots, g.hasNode r = true ∧ Relation.ReflTransGen g.Leads r v

/-- What is joined is led to. -/
theorem Joined.leads (h : g.Joined u v) : g.Leads u v := by
  obtain ⟨c, hc, hsource, htarget⟩ := h
  exact ⟨c, hc.mem, hsource, htarget, htarget ▸ hc.target⟩

/-- A connection that leads from an existing node to a node joins the two, unless it leads back
to where it began. -/
theorem Leads.joined_or_eq (h : g.Leads u v) (hu : g.hasNode u = true) :
    g.Joined u v ∨ u = v := by
  obtain ⟨c, hc, rfl, rfl, htarget⟩ := h
  cases hloop : c.isSelfLoop with
  | false => exact Or.inl ⟨c, ⟨hc, hu, htarget, hloop⟩, rfl, rfl⟩
  | true =>
      rw [Connection.isSelfLoop, Bool.and_eq_true, beq_iff_eq] at hloop
      exact Or.inr hloop.2

theorem Reachable.hasNode (h : g.Reachable roots v) : g.hasNode v = true :=
  h.of_closed (p := fun v => g.hasNode v = true) (fun _ _ hr => hr) fun _ _ _ huv => huv.hasNode

/-- What is reachable is reached. -/
theorem Reachable.reached (h : g.Reachable roots v) : g.Reached roots v := by
  apply h.of_closed
  · intro r hr hnode
    exact ⟨r, hr, hnode, .refl⟩
  · intro u w hu huw
    obtain ⟨r, hr, hnode, hru⟩ := hu
    exact ⟨r, hr, hnode, hru.tail huw.leads⟩

/-- What is reached is reachable, since self-loops can be left out. -/
theorem Reached.reachable (h : g.Reached roots v) : g.Reachable roots v := by
  obtain ⟨r, hr, hnode, hrv⟩ := h
  induction hrv with
  | refl => exact ⟨[r], .single hr hnode, rfl⟩
  | tail _ huv ih =>
      rcases huv.joined_or_eq ih.hasNode with hjoined | rfl
      · exact ih.step hjoined
      · exact ih

/-- The expansion finds exactly what is reached. -/
theorem mem_reachableFrom_iff_reached : v ∈ g.reachableFrom roots ↔ g.Reached roots v :=
  mem_reachableFrom_iff.trans ⟨Reachable.reached, Reached.reachable⟩

theorem Reached.hasNode (h : g.Reached roots v) : g.hasNode v = true := h.reachable.hasNode

/-- What is reached is a root, or something reached leads to it. -/
theorem Reached.mem_or_leads (h : g.Reached roots v) :
    v ∈ roots ∨ ∃ u, g.Reached roots u ∧ g.Leads u v := by
  obtain ⟨r, hr, hnode, hrv⟩ := h
  rcases Relation.ReflTransGen.cases_tail hrv with rfl | ⟨u, hru, huv⟩
  · exact .inl hr
  · exact .inr ⟨u, ⟨r, hr, hnode, hru⟩, huv⟩

/-! ### Nodes that are reported -/

/-- The start keys are the keys of start nodes. -/
theorem mem_startKeys_iff {key : String} :
    key ∈ g.startKeys ↔ ∃ n, (key, n) ∈ g.nodes.entries ∧ n.hasKind .start = true := by
  simp [startKeys]

/-- There are no start keys exactly if there is no start node. -/
theorem startKeys_isEmpty_iff (g : Graph) : g.startKeys.isEmpty = true ↔
    ¬ ∃ e ∈ g.nodes.entries, e.2.hasKind .start = true := by
  simp [startKeys]

/-- A start node reaches itself. -/
theorem reached_startKeys {key : String} {n : Node} (hmem : (key, n) ∈ g.nodes.entries)
    (hstart : n.hasKind .start = true) : g.Reached g.startKeys key := by
  have hkey : key ∈ g.nodes.keys := List.mem_map_of_mem hmem
  exact ⟨key, mem_startKeys_iff.mpr ⟨n, hmem, hstart⟩, (g.nodes.contains_iff key).mpr hkey, .refl⟩

open Classical in
/-- The dead nodes are those that are not reached, but for comments, in order. -/
theorem deadNodes_eq (g : Graph) : g.deadNodes = g.nodes.entries.filter fun e =>
    ¬ g.Reached g.startKeys e.1 ∧ ¬ e.2.hasKind .comment = true := by
  refine List.filter_congr fun e he => ?_
  rw [Bool.eq_iff_iff]
  simp only [Bool.and_eq_true, Bool.not_eq_true', Bool.or_eq_false_iff, List.contains_eq_mem,
    decide_eq_false_iff_not, decide_eq_true_iff, mem_reachableFrom_iff_reached,
    Bool.not_eq_true]
  refine and_congr_right fun hnot => and_iff_right ?_
  -- a start node would have been reached
  by_contra hstart
  exact hnot (reached_startKeys he (by simpa using hstart))

open Classical in
/-- **Exactly the dead code is reported.** A search from some roots finds each node once that
one comes to from them, and no other. If the graph has a start node, there is one warning for
each node that no start node reaches and that is no comment, in the order of the nodes and
anchored at its key; without a start node there is none. Nothing else is reported. -/
theorem reachableFrom_and_dead_code (g : Graph) (roots : List String) :
    ((g.reachableFrom roots).Nodup ∧ ∀ v, v ∈ g.reachableFrom roots ↔ g.Reached roots v) ∧
      (g.checkDeadCode.warnings.map fun w => (w.code, w.nodeId)) =
        (if ∃ e ∈ g.nodes.entries, e.2.hasKind .start = true then
          (g.nodes.entries.filter fun e =>
            ¬ g.Reached g.startKeys e.1 ∧ ¬ e.2.hasKind .comment = true).map fun e =>
              ("UNREACHABLE_NODE", some e.1)
        else []) ∧
      g.checkDeadCode.errors = [] ∧ g.checkDeadCode.notes = [] ∧
        g.checkDeadCode.suggestions = [] := by
  have hstart := g.startKeys_isEmpty_iff
  refine ⟨⟨nodup_reachableFrom g roots, fun v => mem_reachableFrom_iff_reached⟩, ?_⟩
  rw [checkDeadCode]
  by_cases hnone : g.startKeys.isEmpty = true
  · rw [if_pos hnone, if_neg (hstart.mp hnone)]
    exact ⟨rfl, rfl, rfl, rfl⟩
  · rw [if_neg hnone, if_pos (not_not.mp (mt hstart.mpr hnone)), deadNodes_eq]
    exact ⟨List.map_map, rfl, rfl, rfl⟩

end Graph
end PlotGraph
