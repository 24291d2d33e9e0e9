import PlotGraph.Proofs.Graph.DeadCode
import PlotGraph.Proofs.Graph.Index
import PlotGraph.Proofs.Validator.Codes

/-!
# Which nodes are reported as isolated

The check for isolated nodes asks how many connections have the id of the node as an end.
Connections name their ends by the keys of the mapping, though, and an entry may carry an id
that is not its key. So a node is judged by the connections at its key, like everywhere else,
where both are ends of connections or neither is (`Graph.isolated_by_own_id`); a node under
another key than its id can be joined to its neighbours and still be called isolated
(`Graph.renamedEnd_isolated`).

A node under its own id that is isolated is dead code too, if there is a start node, and dead code
that is not isolated is touched by some connection (`Graph.isolated_among_dead_code`).
-/

namespace PlotGraph

/-! ### The parts of the check of a node -/

namespace Node

/-- The other checks of a node have nothing to say about isolation. -/
theorem isolated_not_mem_codes (n : Node) :
    ∀ r ∈ [n.checkId, n.checkTag, n.checkPosition], "ISOLATED_NODE" ∉ r.codes := by
  simp only [List.forall_mem_cons, List.not_mem_nil, false_implies, implies_true, and_true]
  refine ⟨Report.not_mem_codes_when (by simp), ?_, Report.not_mem_codes_when (by simp)⟩
  intro h
  have htag := n.codes_checkTag_subset h
  simp [tagCodes] at htag

/-- A node is found isolated by the last part of its check only. -/
theorem filter_warnings_check (n : Node) (incident : Mapping String Nat) :
    ((n.check incident).warnings.filter fun w => w.code = "ISOLATED_NODE") =
      (n.checkConnected incident).warnings := by
  rw [check, Report.warnings_concat]
  show (([n.checkId, n.checkTag, n.checkPosition] ++ [n.checkConnected incident]).flatMap
    (·.warnings)).filter _ = _
  rw [Report.filter_flatMap_of_others _ ?_ (by simp)]
  · apply List.filter_eq_self.mpr
    intro w hw
    rw [checkConnected, Report.mem_warnings_when_ofWarning] at hw
    rw [hw.2]
    rfl
  · intro r hr
    exact Report.filter_warnings_eq_nil_of_not_mem (n.isolated_not_mem_codes r hr)

/-- Start nodes and comments may stand alone. -/
theorem mayStandAlone_iff (n : Node) :
    n.mayStandAlone = true ↔ n.tag = "start" ∨ n.tag = "comment" := by
  simp [mayStandAlone, hasKind, NodeKind.tag]

end Node

namespace Graph

/-! ### Isolated nodes -/

/-- A connection has the key as one of its ends. -/
def Touches (g : Graph) (key : String) : Prop :=
  ∃ c ∈ g.wires, c.source = key ∨ c.target = key

instance (g : Graph) (key : String) : Decidable (g.Touches key) :=
  inferInstanceAs (Decidable (∃ c ∈ g.wires, c.source = key ∨ c.target = key))

/-- A node is neither a start nor a comment, and no connection has the key as an end. -/
def Unconnected (g : Graph) (n : Node) (key : String) : Prop :=
  n.tag ≠ "start" ∧ n.tag ≠ "comment" ∧ ¬ g.Touches key

instance (g : Graph) (n : Node) (key : String) : Decidable (g.Unconnected n key) :=
  inferInstanceAs (Decidable (_ ∧ _ ∧ _))

/-- What the check of the nodes reports for the node under a key. -/
def nodeReport (g : Graph) (key : String) : Report :=
  match g.node? key with
  | some n => n.check g.incident
  | none => {}

/-- The node under a key is reported as isolated. -/
def ReportsIsolated (g : Graph) (key : String) : Prop :=
  ∃ w ∈ (g.nodeReport key).warnings, w.code = "ISOLATED_NODE"

theorem nodeReport_of_node? {g : Graph} {key : String} {n : Node} (h : g.node? key = some n) :
    g.nodeReport key = n.check g.incident := by
  rw [nodeReport, h]

/-- Nodes are reported on one after the other, in the order of their keys. -/
theorem checkNodes_eq_concat (g : Graph) :
    g.checkNodes = .concat (g.nodes.keys.map g.nodeReport) := by
  rw [checkNodes, Mapping.values, Mapping.keys, List.map_map, List.map_map]
  congr 1
  apply List.map_congr_left
  intro e he
  exact (nodeReport_of_node? ((g.nodes.get?_eq_some_iff e.1 e.2).mpr he)).symm

/-- A key has no incident connections exactly if none touches it. -/
theorem incident_getD_eq_zero_iff (g : Graph) (key : String) :
    (g.incident.get? key).getD 0 = 0 ↔ ¬ g.Touches key := by
  rw [incident_getD, List.countP_eq_zero, Touches, not_exists]
  simp only [decide_eq_true_eq, not_and]

/-- An unconnected node is warned of, and no other. -/
theorem warnings_checkConnected (g : Graph) (n : Node) :
    (n.checkConnected g.incident).warnings.map (·.nodeId) =
      if g.Unconnected n n.id then [anchor n.id] else [] := by
  have hiff : ((g.incident.get? n.id).getD 0 == 0 && !n.mayStandAlone) = true ↔
      g.Unconnected n n.id := by
    rw [Bool.and_eq_true, beq_iff_eq, incident_getD_eq_zero_iff, Bool.not_eq_true',
      ← Bool.not_eq_true, n.mayStandAlone_iff, not_or, Unconnected]
    tauto
  rw [Node.checkConnected, Report.when]
  by_cases h : g.Unconnected n n.id
  · rw [if_pos (hiff.mpr h), if_pos h]
    rfl
  · rw [if_neg (mt hiff.mp h), if_neg h]
    rfl

/-- The warning of isolation is the one for an unconnected node. -/
theorem isolated_warnings {g : Graph} {key : String} {n : Node} (h : g.node? key = some n) :
    ((g.nodeReport key).warnings.filter fun w => w.code = "ISOLATED_NODE").map (·.nodeId) =
      if g.Unconnected n n.id then [anchor n.id] else [] := by
  rw [nodeReport_of_node? h, n.filter_warnings_check, warnings_checkConnected]

/-- A node is reported as isolated exactly if it is unconnected under its own id. -/
theorem reportsIsolated_iff {g : Graph} {key : String} {n : Node} (h : g.node? key = some n) :
    g.ReportsIsolated key ↔ g.Unconnected n n.id := by
  have hne : g.ReportsIsolated key ↔ ((g.nodeReport key).warnings.filter
      fun w => w.code = "ISOLATED_NODE").map (·.nodeId) ≠ [] := by
    rw [Ne, List.map_eq_nil_iff, List.filter_eq_nil_iff]
    simp [ReportsIsolated]
  rw [hne, isolated_warnings h]
  split <;> simp [*]

/-- **A node is called isolated by its own id.** The check of the nodes reports one after
another what it finds for each key. The node under a key is reported as isolated once if it
is neither a start nor a comment and no connection has its id as an end, and otherwise not
at all. To ask for connections at the key instead gives the same answer exactly for nodes
that may stand alone and where both the id and the key are ends of connections, or neither. -/
theorem isolated_by_own_id (g : Graph) :
    g.checkNodes = .concat (g.nodes.keys.map g.nodeReport) ∧
    ∀ key n, g.node? key = some n →
      ((g.nodeReport key).warnings.filter fun w => w.code = "ISOLATED_NODE").map (·.nodeId) =
        (if g.Unconnected n n.id then [anchor n.id] else []) ∧
      (g.ReportsIsolated key ↔ g.Unconnected n n.id) ∧
      ((g.ReportsIsolated key ↔ g.Unconnected n key) ↔
        n.tag = "start" ∨ n.tag = "comment" ∨ (g.Touches n.id ↔ g.Touches key)) := by
  refine ⟨g.checkNodes_eq_concat, ?_⟩
  intro key n h
  refine ⟨isolated_warnings h, reportsIsolated_iff h, ?_⟩
  rw [reportsIsolated_iff h, Unconnected, Unconnected]
  tauto

/-- A start and an end that are joined, under keys that are not their ids. -/
def renamedEnd : Graph where
  id := "g"
  nodes := .ofList [("n1", { id := "s", tag := "start", config := .empty }),
    ("n2", { id := "e", tag := "end", config := .empty })]
  connections := .ofList [("c", { id := "c", source := "n1", target := "n2" })]

/-- The end is called isolated by its id, though not by its key. -/
theorem renamedEnd_isolated :
    ((renamedEnd.nodeReport "n2").warnings.filter fun w => w.code = "ISOLATED_NODE").map
      (·.nodeId) = [some "e"] ∧
    ¬ (renamedEnd.ReportsIsolated "n2" ↔
      renamedEnd.Unconnected { id := "e", tag := "end" } "n2") := by
  obtain ⟨hwarnings, -, hkey⟩ :=
    (isolated_by_own_id renamedEnd).2 "n2" { id := "e", tag := "end" } (by decide)
  have hown : renamedEnd.Unconnected { id := "e", tag := "end" } "e" := by decide
  constructor
  · rw [hwarnings, if_pos hown]
    rfl
  · rw [hkey]
    decide

theorem reportsIsolated_renamedEnd : renamedEnd.ReportsIsolated "n2" := by
  have hend : renamedEnd.node? "n2" = some { id := "e", tag := "end" } := by decide
  exact (reportsIsolated_iff hend).mpr (by decide)

/-- Nodes are not judged by the connections at their keys: one that a connection joins to
another node can be called isolated. -/
theorem not_forall_isolated_by_key :
    (¬ ∀ (g : Graph) (key : String) (n : Node), g.node? key = some n →
      (g.ReportsIsolated key ↔ g.Unconnected n key)) ∧
    ¬ ∀ (g : Graph) (key : String), (∃ c ∈ g.wires, (c.source = key ∨ c.target = key) ∧
      c.source ≠ c.target ∧ g.hasNode c.source = true ∧ g.hasNode c.target = true) →
      ¬ g.ReportsIsolated key := by
  constructor
  · intro h
    have hkey := h renamedEnd "n2" { id := "e", tag := "end" } (by decide)
    have hunconnected := hkey.mp reportsIsolated_renamedEnd
    revert hunconnected
    decide
  · intro h
    exact h renamedEnd "n2" (by decide) reportsIsolated_renamedEnd

/-! ### Isolated nodes among the dead code -/

/-- The check for dead code reports the node under a key. -/
def ReportsUnreachable (g : Graph) (key : String) : Prop :=
  ∃ w ∈ g.checkDeadCode.warnings, w.code = "UNREACHABLE_NODE" ∧ w.nodeId = some key

/-- There is a start node. -/
def HasStart (g : Graph) : Prop := ∃ e ∈ g.nodes.entries, e.2.hasKind .start = true

instance (g : Graph) : Decidable g.HasStart :=
  inferInstanceAs (Decidable (∃ e ∈ g.nodes.entries, e.2.hasKind .start = true))

section DeadCode

variable {g : Graph} {key : String} {n : Node}

/-- With a start node, every dead node is warned of. -/
theorem warnings_checkDeadCode (hstart : g.HasStart) :
    g.checkDeadCode.warnings = g.deadNodes.map fun e => unreachableWarning e.1 e.2 := by
  have hsome : ¬ g.startKeys.isEmpty = true := fun h => g.startKeys_isEmpty_iff.mp h hstart
  rw [checkDeadCode, if_neg hsome]

open Classical in
/-- Dead are the nodes that are not reached, but for comments. -/
theorem mem_deadNodes_iff (hnode : g.node? key = some n) :
    (key, n) ∈ g.deadNodes ↔ ¬ g.Reached g.startKeys key ∧ n.tag ≠ "comment" := by
  have hmem : (key, n) ∈ g.nodes.entries := (g.nodes.get?_eq_some_iff key n).mp hnode
  rw [deadNodes_eq, List.mem_filter, decide_eq_true_iff]
  simp [hmem, Node.hasKind, NodeKind.tag]

/-- With a start node, a node is reported as unreachable exactly if it is dead. -/
theorem reportsUnreachable_iff (hstart : g.HasStart) (hnode : g.node? key = some n) :
    g.ReportsUnreachable key ↔ ¬ g.Reached g.startKeys key ∧ n.tag ≠ "comment" := by
  rw [← mem_deadNodes_iff hnode, ReportsUnreachable, warnings_checkDeadCode hstart]
  constructor
  · rintro ⟨w, hw, -, hkey⟩
    obtain ⟨⟨key', n'⟩, he, rfl⟩ := List.mem_map.mp hw
    obtain rfl : key' = key := Option.some.inj hkey
    -- the keys are distinct, so that the entry is the one that was asked for
    have hmem : (key', n') ∈ g.nodes.entries := (List.mem_filter.mp he).1
    cases hnode.symm.trans ((g.nodes.get?_eq_some_iff key' n').mpr hmem)
    exact he
  · intro hdead
    exact ⟨_, List.mem_map_of_mem hdead, rfl, rfl⟩

/-- Some connection touches whatever is reached, but for start nodes. -/
theorem Reached.touches (h : g.Reached g.startKeys key) (hnode : g.node? key = some n)
    (htag : n.tag ≠ "start") : g.Touches key := by
  rcases h.mem_or_leads with hroot | ⟨u, -, c, hc, -, htarget, -⟩
  · obtain ⟨n', hmem, hkind⟩ := mem_startKeys_iff.mp hroot
    cases hnode.symm.trans ((g.nodes.get?_eq_some_iff key n').mpr hmem)
    simp [Node.hasKind, NodeKind.tag, htag] at hkind
  · exact ⟨c, hc, .inr htarget⟩

/-- What is dead and no connection touches is neither a start nor a comment. -/
theorem unconnected_iff_of_dead (hnode : g.node? key = some n)
    (hdead : ¬ g.Reached g.startKeys key ∧ n.tag ≠ "comment") :
    g.Unconnected n key ↔ ¬ g.Touches key := by
  have hstart : n.tag ≠ "start" := by
    intro htag
    have hmem : (key, n) ∈ g.nodes.entries := (g.nodes.get?_eq_some_iff key n).mp hnode
    exact hdead.1 (reached_startKeys hmem (by simp [Node.hasKind, NodeKind.tag, htag]))
  rw [Unconnected, and_iff_right hstart, and_iff_right hdead.2]

/-- The warning of isolation is anchored at the id of the node. -/
theorem nodeId_of_isolated (hnode : g.node? key = some n) {w : Warning}
    (hw : w ∈ (g.nodeReport key).warnings) (hcode : w.code = "ISOLATED_NODE") :
    w.nodeId = anchor n.id := by
  have hmem : w.nodeId ∈ ((g.nodeReport key).warnings.filter
      fun w => w.code = "ISOLATED_NODE").map (·.nodeId) :=
    List.mem_map_of_mem (List.mem_filter.mpr ⟨hw, decide_eq_true hcode⟩)
  rw [isolated_warnings hnode] at hmem
  split at hmem
  · exact List.mem_singleton.mp hmem
  · cases hmem

end DeadCode

/-- **Isolated nodes are dead code.** In a graph with a start node, let a node stand under its own
id. If the check of the nodes reports it as isolated, then the check for dead code reports it too,
and an id that is not empty is the anchor of both warnings. If the check for dead code reports it,
then it is not reported as isolated exactly if some connection has the key as an end, be it one
that leads nowhere. -/
theorem isolated_among_dead_code (g : Graph) (key : String) (n : Node) (hstart : g.HasStart)
    (hnode : g.node? key = some n) (hid : n.id = key) :
    g.checkNodes = .concat (g.nodes.keys.map g.nodeReport) ∧
    (∀ w ∈ (g.nodeReport key).warnings, w.code = "ISOLATED_NODE" →
      ∃ w' ∈ g.checkDeadCode.warnings, w'.code = "UNREACHABLE_NODE" ∧ w'.nodeId = some key ∧
        (n.id ≠ "" → w.nodeId = w'.nodeId)) ∧
    (g.ReportsUnreachable key → (¬ g.ReportsIsolated key ↔ g.Touches key)) := by
  have hisolated : g.ReportsIsolated key ↔ g.Unconnected n key := by
    rw [reportsIsolated_iff hnode, hid]
  refine ⟨g.checkNodes_eq_concat, ?_, ?_⟩
  · intro w hw hcode
    obtain ⟨hstartTag, hcomment, huntouched⟩ := hisolated.mp ⟨w, hw, hcode⟩
    have hdead : g.ReportsUnreachable key := by
      rw [reportsUnreachable_iff hstart hnode]
      exact ⟨fun hreached => huntouched (hreached.touches hnode hstartTag), hcomment⟩
    obtain ⟨w', hw', hcode', hkey⟩ := hdead
    refine ⟨w', hw', hcode', hkey, fun hne => ?_⟩
    rw [nodeId_of_isolated hnode hw hcode, hkey, ← hid, anchor, if_neg]
    exact fun hempty => hne (String.isEmpty_iff.mp hempty)
  · intro hreported
    have hdead := (reportsUnreachable_iff hstart hnode).mp hreported
    rw [hisolated, unconnected_iff_of_dead hnode hdead, not_not]

/-- A start node, a node that nothing touches, and one that a connection from nowhere leads to. -/
def strays : Graph where
  id := "g"
  nodes := .ofList [("s", { id := "s", tag := "start", config := .empty }),
    ("lone", { id := "lone", tag := "action", config := .empty }),
    ("tail", { id := "tail", tag := "end", config := .empty })]
  connections := .ofList [("c", { id := "c", source := "ghost", target := "tail" })]

theorem not_reached_tail : ¬ strays.Reached strays.startKeys "tail" := by
  intro h
  rcases h.mem_or_leads with hroot | ⟨u, hu, c, hc, hsource, -, -⟩
  · revert hroot
    decide
  · -- the only connection begins where no node is
    obtain rfl : u = "ghost" := by
      cases List.mem_singleton.mp hc
      exact hsource.symm
    exact absurd hu.hasNode (by decide)

/-- Both nodes are dead code, but only the first is isolated. -/
theorem strays_reports :
    strays.HasStart ∧
    strays.ReportsIsolated "lone" ∧ strays.ReportsUnreachable "lone" ∧
    strays.ReportsUnreachable "tail" ∧ strays.Touches "tail" ∧
    ¬ strays.ReportsIsolated "tail" := by
  have hstart : strays.HasStart := by decide
  have hlone : strays.node? "lone" = some { id := "lone", tag := "action" } := by decide
  have htail : strays.node? "tail" = some { id := "tail", tag := "end" } := by decide
  have hisolated : strays.ReportsIsolated "lone" := (reportsIsolated_iff hlone).mpr (by decide)
  obtain ⟨-, hboth, -⟩ := isolated_among_dead_code strays "lone" _ hstart hlone rfl
  obtain ⟨w, hw, hcode⟩ := hisolated
  obtain ⟨w', hw', hcode', hkey, -⟩ := hboth w hw hcode
  have hdead : strays.ReportsUnreachable "tail" :=
    (reportsUnreachable_iff hstart htail).mpr ⟨not_reached_tail, by decide⟩
  have htouches : strays.Touches "tail" := by decide
  obtain ⟨-, -, honly⟩ := isolated_among_dead_code strays "tail" _ hstart htail rfl
  exact ⟨hstart, ⟨w, hw, hcode⟩, ⟨w', hw', hcode', hkey⟩, hdead, htouches,
    (honly hdead).mpr htouches⟩

end Graph
end PlotGraph
