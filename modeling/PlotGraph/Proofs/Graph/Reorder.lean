import PlotGraph.Proofs.Graph.Depth
import PlotGraph.Proofs.Graph.Index
import Mathlib.Data.List.Perm.Basic

/-!
# Graphs listed in another order

Two graphs may hold the same nodes and the same connections under the same keys, listed in
different orders (`Graph.Reorders`). Whatever is asked of them by key has the same answer:
which node stands under a key, how many connections touch it, which keys are joined, and
therefore what can be reached and whether there are closed walks. Without closed walks even
the depth is the same, although the searches that find it take different ways.
-/

namespace PlotGraph

/-- A mapping reads the same however its entries are ordered. -/
theorem Mapping.get?_of_perm {κ α : Type} [DecidableEq κ] {m m' : Mapping κ α}
    (h : m.entries.Perm m'.entries) (key : κ) : m.get? key = m'.get? key := by
  ext value
  rw [get?_eq_some_iff, get?_eq_some_iff, h.mem_iff]

/-- A mapping with its entries in the opposite order. -/
def Mapping.reversed {κ α : Type} (m : Mapping κ α) : Mapping κ α where
  entries := m.entries.reverse
  nodup := by
    rw [List.map_reverse, List.nodup_reverse]
    exact m.nodup

namespace Graph

theorem hasNode_congr {g g' : Graph} (h : g.node? = g'.node?) : g.hasNode = g'.hasNode :=
  funext fun key => congrArg Option.isSome (congrFun h key)

/-- Two graphs with the same id and the same entries, in whatever orders. -/
structure Reorders (g g' : Graph) : Prop where
  id : g.id = g'.id
  nodes : g.nodes.entries.Perm g'.nodes.entries
  connections : g.connections.entries.Perm g'.connections.entries

/-- A graph with its nodes and connections in the opposite order. -/
def reversed (g : Graph) : Graph :=
  { g with nodes := g.nodes.reversed, connections := g.connections.reversed }

/-- A graph that is turned around is the graph in another order. -/
theorem reorders_reversed (g : Graph) : g.Reorders g.reversed :=
  ⟨rfl, (List.reverse_perm _).symm, (List.reverse_perm _).symm⟩

namespace Reorders

variable {g g' : Graph} {roots roots' : List String}

/-- The first order can be had back. -/
theorem symm (h : g.Reorders g') : g'.Reorders g :=
  ⟨h.id.symm, h.nodes.symm, h.connections.symm⟩

/-! ### Nodes and connections -/

/-- Nodes are found whatever the order. -/
theorem node?_eq (h : g.Reorders g') : g.node? = g'.node? :=
  funext fun key => Mapping.get?_of_perm h.nodes key

theorem hasNode_eq (h : g.Reorders g') : g.hasNode = g'.hasNode := hasNode_congr h.node?_eq

theorem nameAt_eq (h : g.Reorders g') : g.nameAt = g'.nameAt := by
  funext key
  rw [nameAt, nameAt, h.node?_eq]

/-- The nodes are the same in another order. -/
theorem nodes_values_perm (h : g.Reorders g') : g.nodes.values.Perm g'.nodes.values :=
  h.nodes.map Prod.snd

/-- The wires are the same in another order. -/
theorem wires_perm (h : g.Reorders g') : g.wires.Perm g'.wires :=
  h.connections.map Prod.snd

theorem nodes_size_eq (h : g.Reorders g') : g.nodes.size = g'.nodes.size := h.nodes.length_eq

theorem connections_size_eq (h : g.Reorders g') : g.connections.size = g'.connections.size :=
  h.connections.length_eq

theorem nodes_isEmpty_eq (h : g.Reorders g') : g.nodes.isEmpty = g'.nodes.isEmpty :=
  h.nodes.isEmpty_eq

theorem nodesTagged_isEmpty_eq (h : g.Reorders g') (tags : List String) :
    (g.nodesTagged tags).isEmpty = (g'.nodesTagged tags).isEmpty :=
  (h.nodes_values_perm.filter _).isEmpty_eq

/-- The keys of start nodes are the same in another order. -/
theorem startKeys_perm (h : g.Reorders g') : g.startKeys.Perm g'.startKeys :=
  (h.nodes.filter _).map Prod.fst

/-! ### Indexes -/

/-- How often two keys are connected does not depend on the order. -/
theorem edgeCounts_getD_eq (h : g.Reorders g') (key : EdgeKey) :
    (g.edgeCounts.get? key).getD 0 = (g'.edgeCounts.get? key).getD 0 := by
  rw [edgeCounts_getD, edgeCounts_getD, h.wires_perm.countP_eq]

/-- How many connections touch a key does not depend on the order. -/
theorem incident_getD_eq (h : g.Reorders g') (key : String) :
    (g.incident.get? key).getD 0 = (g'.incident.get? key).getD 0 := by
  rw [incident_getD, incident_getD, h.wires_perm.countP_eq]

/-- The connections from a key are the same in another order. -/
theorem outgoing_getD_perm (h : g.Reorders g') (key : String) :
    ((g.outgoing.get? key).getD []).Perm ((g'.outgoing.get? key).getD []) := by
  rw [outgoing_getD, outgoing_getD]
  exact h.wires_perm.filter _

/-- The index lists its keys in the order in which they are first seen, but with the same
numbers of connections. -/
theorem sourceCounts_perm (h : g.Reorders g') : g.sourceCounts.Perm g'.sourceCounts := by
  rw [List.perm_ext_iff_of_nodup g.nodup_sourceCounts g'.nodup_sourceCounts]
  rintro ⟨key, count⟩
  rw [mem_sourceCounts, mem_sourceCounts, h.wires_perm.countP_eq]

/-! ### Paths and closed walks -/

/-- Keys are joined in any order. -/
theorem joined (h : g.Reorders g') {u v : String} (huv : g.Joined u v) : g'.Joined u v := by
  obtain ⟨c, hc, hsource, htarget⟩ := huv
  have hnode := h.hasNode_eq
  exact ⟨c, ⟨h.wires_perm.mem_iff.mp hc.mem, hnode ▸ hc.source, hnode ▸ hc.target, hc.not_loop⟩,
    hsource, htarget⟩

/-- Whether there are cycles does not depend on the order. -/
theorem acyclic_iff (h : g.Reorders g') : g.Acyclic ↔ g'.Acyclic :=
  ⟨fun hg => hg.of_joined fun _ _ => h.symm.joined, fun hg => hg.of_joined fun _ _ => h.joined⟩

/-- A path is one in any order. -/
theorem pathFrom (h : g.Reorders g') (hroots : roots ⊆ roots') {path : List String}
    (hpath : g.PathFrom roots path) : g'.PathFrom roots' path := by
  obtain ⟨r, hr, hmem, hnode⟩ := hpath.starts
  exact ⟨⟨r, hr, hroots hmem, h.hasNode_eq ▸ hnode⟩, hpath.linked.imp fun _ _ => h.joined⟩

/-- What is reached does not depend on the order. -/
theorem mem_reachableFrom_iff (h : g.Reorders g') (hroots : roots.Perm roots') {v : String} :
    v ∈ g.reachableFrom roots ↔ v ∈ g'.reachableFrom roots' := by
  rw [Graph.mem_reachableFrom_iff, Graph.mem_reachableFrom_iff]
  constructor
  · rintro ⟨path, hpath, hlast⟩
    exact ⟨path, h.pathFrom hroots.subset hpath, hlast⟩
  · rintro ⟨path, hpath, hlast⟩
    exact ⟨path, h.symm.pathFrom hroots.symm.subset hpath, hlast⟩

/-- Without closed walks the depth does not depend on the order of the graph or of the
roots. -/
theorem longestPathDepth_eq (h : g.Reorders g') (hroots : roots.Perm roots') (hg : g.Acyclic) :
    g.longestPathDepth roots = g'.longestPathDepth roots' := by
  by_cases hroot : ∃ r ∈ roots, g.hasNode r = true
  · have hroot' : ∃ r ∈ roots', g'.hasNode r = true := by
      obtain ⟨r, hr, hnode⟩ := hroot
      exact ⟨r, hroots.subset hr, h.hasNode_eq ▸ hnode⟩
    have hgreatest := hg.isGreatest_longestPathDepth hroot
    have hgreatest' := (h.acyclic_iff.mp hg).isGreatest_longestPathDepth hroot'
    -- both depths are the greatest length of the same paths
    have hpaths : ∀ path, g.PathFrom roots path ↔ g'.PathFrom roots' path := fun path =>
      ⟨h.pathFrom hroots.subset, h.symm.pathFrom hroots.symm.subset⟩
    simp only [← hpaths] at hgreatest'
    exact hgreatest.unique hgreatest'
  · have hnone : ∀ r ∈ roots, ¬ g.hasNode r = true := fun r hr hnode => hroot ⟨r, hr, hnode⟩
    rw [longestPathDepth_eq_zero hnone, longestPathDepth_eq_zero]
    intro r hr hnode
    exact hnone r (hroots.symm.subset hr) (h.hasNode_eq ▸ hnode)

end Reorders

end Graph
end PlotGraph
