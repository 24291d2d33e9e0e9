import PlotGraph.Proofs.Check.Limits
import PlotGraph.Proofs.Graph.Reorder
import PlotGraph.Proofs.Validator.Codes
import PlotGraph.Proofs.Validator.Validity

/-!
# Reports on graphs listed in another order

The order in which a graph lists its nodes and connections decides the order of the findings,
but hardly ever what is found. Three findings are the exception: which cycles are reported
follows the way of the search, the depth of a cyclic graph depends on them, and the message
about several start nodes names them in order. Apart from these (`Report.orderFree`), graphs
that differ in order only have the same findings (`Graph.validate_reordered`); and whether there
is a cycle is found alike, as is the depth of a graph without one.
-/

namespace PlotGraph

/-! ### Reports with the same findings -/

/-- A warning whose message names the start nodes, reduced to its code. -/
def Warning.orderFree (w : Warning) : Warning :=
  if w.code = "MULTIPLE_ENTRY_POINTS" then
    { code := w.code, message := "", plainMessage := "" }
  else w

namespace Report

/-- What of a report does not depend on the order of a graph: not which cycles are reported,
nor the depth, nor the order in which start nodes are named. -/
def orderFree (r : Report) : Report :=
  { r with
    errors := r.errors.filter fun d => d.code ≠ "CIRCULAR_DEPENDENCY"
    warnings := (r.warnings.filter fun w => w.code ≠ "MAX_DEPTH_EXCEEDED").map Warning.orderFree }

/-- The same findings, each as often, in whatever orders. -/
structure SameFindings (r r' : Report) : Prop where
  errors : r.errors.Perm r'.errors
  warnings : r.warnings.Perm r'.warnings
  notes : r.notes.Perm r'.notes
  suggestions : r.suggestions.Perm r'.suggestions

namespace SameFindings

theorem refl (r : Report) : r.SameFindings r :=
  ⟨.refl _, .refl _, .refl _, .refl _⟩

theorem of_eq {r r' : Report} (h : r = r') : r.SameFindings r' := h ▸ refl r

/-- Reports with the same findings have the same ones when the order is left aside in them. -/
theorem orderFree {r r' : Report} (h : r.SameFindings r') :
    r.orderFree.SameFindings r'.orderFree :=
  ⟨h.errors.filter _, (h.warnings.filter _).map _, h.notes, h.suggestions⟩

/-- To merge reports with the same findings gives the same findings. -/
theorem merge {r r' s s' : Report} (hr : r.SameFindings r') (hs : s.SameFindings s') :
    (r.merge s).SameFindings (r'.merge s') :=
  ⟨hr.errors.append hs.errors, hr.warnings.append hs.warnings, hr.notes.append hs.notes,
    hr.suggestions.append hs.suggestions⟩

/-- Reports of the same parts, in whatever order the parts stand. -/
theorem concat_map {α : Type} {parts parts' : List α} {f f' : α → Report}
    (hparts : parts.Perm parts') (h : ∀ a ∈ parts, (f a).SameFindings (f' a)) :
    (concat (parts.map f)).SameFindings (concat (parts'.map f')) := by
  have hperm : ∀ {β : Type} (list : Report → List β), list {} = [] →
      (∀ r other, list (r.merge other) = list r ++ list other) →
      (∀ a ∈ parts, (list (f a)).Perm (list (f' a))) →
      (list (concat (parts.map f))).Perm (list (concat (parts'.map f'))) := by
    intro β list hempty hmerge hlist
    rw [concat_eq_flatMap list hempty hmerge, concat_eq_flatMap list hempty hmerge,
      List.flatMap_map, List.flatMap_map]
    exact hparts.flatMap hlist
  refine ⟨?_, ?_, ?_, ?_⟩
  · exact hperm (·.errors) rfl (fun _ _ => rfl) fun a ha => (h a ha).errors
  · exact hperm (·.warnings) rfl (fun _ _ => rfl) fun a ha => (h a ha).warnings
  · exact hperm (·.notes) rfl (fun _ _ => rfl) fun a ha => (h a ha).notes
  · exact hperm (·.suggestions) rfl (fun _ _ => rfl) fun a ha => (h a ha).suggestions

end SameFindings

/-- The order can be left aside before reports are merged or afterwards. -/
theorem orderFree_merge (r other : Report) :
    (r.merge other).orderFree = r.orderFree.merge other.orderFree := by
  simp only [orderFree, merge, List.filter_append, List.map_append]

/-- The order can be left aside in each of several reports. -/
theorem orderFree_concat (rs : List Report) :
    (concat rs).orderFree = concat (rs.map orderFree) := by
  have hfold : ∀ r : Report, (rs.foldl merge r).orderFree =
      (rs.map orderFree).foldl merge r.orderFree := by
    induction rs with
    | nil => exact fun r => rfl
    | cons r' rest ih =>
        intro r
        rw [List.foldl_cons, ih, orderFree_merge, List.map_cons, List.foldl_cons]
  exact hfold {}

/-- There is no defect if none is left and none was a circular dependency. -/
theorem errors_eq_nil_iff (r : Report) : r.errors = [] ↔
    r.orderFree.errors = [] ∧ ¬ ∃ d ∈ r.errors, d.code = "CIRCULAR_DEPENDENCY" := by
  constructor
  · intro h
    simp [orderFree, h]
  · rintro ⟨hfree, hcircular⟩
    refine List.eq_nil_iff_forall_not_mem.mpr fun d hd => ?_
    have hnot := List.filter_eq_nil_iff.mp hfree d hd
    simp only [decide_eq_true_eq, not_not] at hnot
    exact hcircular ⟨d, hd, hnot⟩

end Report

/-! ### Passes -/

/-- A list has more than one order only if it has two members. -/
theorem eq_or_two_of_perm {α : Type} {l l' : List α} (h : l.Perm l') :
    l = l' ∨ ∃ a b rest a' b' rest', l = a :: b :: rest ∧ l' = a' :: b' :: rest' :=
  match l, l', h with
  | [], _, h => Or.inl (List.nil_perm.mp h).symm
  | [_], _, h => Or.inl (List.singleton_perm.mp h)
  | _ :: _ :: _, [], h => absurd h.length_eq (by simp)
  | _ :: _ :: _, [_], h => absurd h.length_eq (by simp)
  | a :: b :: rest, a' :: b' :: rest', _ => Or.inr ⟨a, b, rest, a', b', rest', rfl, rfl⟩

/-- The checks of a node look at no counts but its own. -/
theorem Node.check_congr {n : Node} {incident incident' : Mapping String Nat}
    (h : (incident.get? n.id).getD 0 = (incident'.get? n.id).getD 0) :
    n.check incident = n.check incident' := by
  rw [check, check, checkConnected, checkConnected, h]

namespace Connection

/-- The check of a wire looks at nothing of the graph but its nodes. -/
theorem checkWire_congr {c : Connection} {g g' : Graph} (hnode : g.node? = g'.node?)
    (code : String) : c.checkWire g code = c.checkWire g' code := by
  rw [checkWire, checkWire, wireFinding?, wireFinding?, hnode, Graph.hasNode_congr hnode]

/-- The checks of a connection look at its nodes and at its own count. -/
theorem check_congr {c : Connection} {g g' : Graph} {counts counts' : Mapping EdgeKey Nat}
    (hnode : g.node? = g'.node?)
    (hcounts : (counts.get? c.edgeKey).getD 0 = (counts'.get? c.edgeKey).getD 0) :
    c.check g counts = c.check g' counts' := by
  simp only [check, checkSource, checkTarget, checkDuplicate, Graph.hasNode_congr hnode, hcounts,
    checkWire_congr hnode]

end Connection

namespace Graph

/-- With the order left aside, the warning about several entries does not tell which they are. -/
theorem orderFree_manyEntries (starts : List String) :
    (Report.ofWarning (manyEntriesWarning starts)).orderFree =
      .ofWarning { code := "MULTIPLE_ENTRY_POINTS", message := "", plainMessage := "" } := by
  simp [Report.orderFree, Report.ofWarning, manyEntriesWarning, Warning.orderFree]

/-- Which cycles are reported is left open. -/
theorem orderFree_checkCycles (g : Graph) : g.checkCycles.orderFree = {} := by
  simp [Report.orderFree, checkCycles, cycleDefect]

/-- The depth is left open. -/
theorem orderFree_checkDepth (g : Graph) (o : Options) : (g.checkDepth o).orderFree = {} := by
  rw [checkDepth, Report.when]
  split
  · simp [Report.orderFree, Report.ofWarning, depthWarning]
  · rfl

namespace Reorders

variable {g g' : Graph}

/-- The entries are the same in another order. -/
theorem checkEntries_sameFindings (h : g.Reorders g') :
    g.checkEntries.orderFree.SameFindings g'.checkEntries.orderFree := by
  rw [checkEntries, checkEntries, h.nodes_isEmpty_eq]
  split
  · exact .refl _
  · -- a single start node is the same in both graphs, of several only the order differs
    rcases eq_or_two_of_perm h.startKeys_perm with hs | ⟨a, b, rest, a', b', rest', hs, hs'⟩
    · rw [hs]
      exact .refl _
    · rw [hs, hs']
      exact .of_eq ((orderFree_manyEntries _).trans (orderFree_manyEntries _).symm)

/-- The structure of the graph does not depend on the order. -/
theorem checkStructure_sameFindings (h : g.Reorders g') :
    g.checkStructure.orderFree.SameFindings g'.checkStructure.orderFree := by
  have hid : g.checkId = g'.checkId := by rw [checkId, checkId, h.id]
  rw [checkStructure, checkStructure, hid, Report.orderFree_concat, Report.orderFree_concat]
  exact ((Report.SameFindings.refl {}).merge (.refl _)).merge h.checkEntries_sameFindings

/-- Nor do the findings about nodes. -/
theorem checkNodes_sameFindings (h : g.Reorders g') :
    g.checkNodes.SameFindings g'.checkNodes :=
  .concat_map h.nodes_values_perm fun n _ => .of_eq (Node.check_congr (h.incident_getD_eq n.id))

/-- Nor do the findings about connections. -/
theorem checkConnections_sameFindings (h : g.Reorders g') :
    g.checkConnections.SameFindings g'.checkConnections :=
  .concat_map h.wires_perm fun c _ =>
    .of_eq (Connection.check_congr h.node?_eq (h.edgeCounts_getD_eq c.edgeKey))

/-- What is dead does not depend on the order. -/
theorem checkDeadCode_sameFindings (h : g.Reorders g') :
    g.checkDeadCode.SameFindings g'.checkDeadCode := by
  have hreach : ∀ key, (g.reachableFrom g.startKeys).contains key =
      (g'.reachableFrom g'.startKeys).contains key := by
    intro key
    rw [Bool.eq_iff_iff, List.contains_iff_mem, List.contains_iff_mem,
      h.mem_reachableFrom_iff h.startKeys_perm]
  have hdead : g.deadNodes.Perm g'.deadNodes := by
    simp only [deadNodes, hreach]
    exact h.nodes.filter _
  rw [checkDeadCode, checkDeadCode, h.startKeys_perm.isEmpty_eq]
  split
  · exact .refl _
  · exact ⟨.refl _, hdead.map _, .refl _, .refl _⟩

theorem checkExits_eq (h : g.Reorders g') : g.checkExits = g'.checkExits := by
  rw [checkExits, checkExits, h.nodes_isEmpty_eq, h.nodesTagged_isEmpty_eq]

/-- The types of connected nodes do not depend on the order. -/
theorem checkTypes_sameFindings (h : g.Reorders g') :
    g.checkTypes.SameFindings g'.checkTypes :=
  .concat_map h.wires_perm fun _ _ => .of_eq (Connection.checkWire_congr h.node?_eq _)

theorem checkNodeCount_eq (h : g.Reorders g') (o : Options) :
    g.checkNodeCount o = g'.checkNodeCount o := by
  rw [checkNodeCount, checkNodeCount, h.nodes_size_eq]

theorem checkConnectionCount_eq (h : g.Reorders g') (o : Options) :
    g.checkConnectionCount o = g'.checkConnectionCount o := by
  rw [checkConnectionCount, checkConnectionCount, h.connections_size_eq]

theorem branchesWarning_eq (h : g.Reorders g') (key : String) (count : Nat) :
    g.branchesWarning key count = g'.branchesWarning key count := by
  rw [branchesWarning, branchesWarning, h.nameAt_eq]

/-- The numbers of branches do not depend on the order. -/
theorem checkBranches_sameFindings (h : g.Reorders g') (o : Options) :
    (g.checkBranches o).SameFindings (g'.checkBranches o) := by
  refine ⟨.refl _, ?_, .refl _, .refl _⟩
  -- the warnings speak of numbers only; the connections themselves stand in another order
  rw [warnings_checkBranches, warnings_checkBranches]
  simp only [h.branchesWarning_eq]
  exact (h.sourceCounts_perm.filter _).map _

/-- Of the limits only the depth depends on the order. -/
theorem checkPerformance_sameFindings (h : g.Reorders g') (o : Options) :
    (g.checkPerformance o).orderFree.SameFindings (g'.checkPerformance o).orderFree := by
  rw [checkPerformance, checkPerformance, h.checkNodeCount_eq, h.checkConnectionCount_eq,
    Report.orderFree_concat, Report.orderFree_concat]
  -- the two sizes, then the branches, then the depth
  exact ((((Report.SameFindings.refl {}).merge (.refl _)).merge (.refl _)).merge
    (h.checkBranches_sameFindings o).orderFree).merge
      (.of_eq ((orderFree_checkDepth g o).trans (orderFree_checkDepth g' o).symm))

theorem leadsToAction_eq (h : g.Reorders g') (key : String) :
    g.leadsToAction g.outgoing key = g'.leadsToAction g'.outgoing key := by
  rw [leadsToAction, leadsToAction, h.node?_eq]
  -- a key that two connections leave leads to no action, whichever of them is the first
  rcases eq_or_two_of_perm (h.outgoing_getD_perm key) with hs | ⟨a, b, rest, a', b', rest', hs, hs'⟩
  · rw [hs]
  · rw [hs, hs']

/-- What can be joined does not depend on the order. -/
theorem suggestJoins_sameFindings (h : g.Reorders g') :
    g.suggestJoins.SameFindings g'.suggestJoins := by
  refine ⟨.refl _, .refl _, .refl _, ?_⟩
  simp only [suggestJoins, h.leadsToAction_eq]
  exact (h.nodes.filter _).map _

/-- The suggestions do not depend on the order. -/
theorem suggest_sameFindings (h : g.Reorders g') : g.suggest.SameFindings g'.suggest := by
  have hcomments : g.suggestComments = g'.suggestComments := by
    rw [suggestComments, suggestComments, h.nodes_size_eq, h.nodesTagged_isEmpty_eq]
  rw [suggest, suggest, hcomments]
  exact ((Report.SameFindings.refl {}).merge h.suggestJoins_sameFindings).merge (.refl _)

/-- A pass has the same findings, but for what is left open. -/
theorem report_sameFindings (h : g.Reorders g') (o : Options) (stage : Stage) :
    (stage.report g o).orderFree.SameFindings (stage.report g' o).orderFree := by
  cases stage with
  | outline => exact h.checkStructure_sameFindings
  | nodes => exact h.checkNodes_sameFindings.orderFree
  | connections => exact h.checkConnections_sameFindings.orderFree
  | circularDependencies =>
      exact .of_eq ((orderFree_checkCycles g).trans (orderFree_checkCycles g').symm)
  | deadCode => exact h.checkDeadCode_sameFindings.orderFree
  | reachability => exact .of_eq (congrArg Report.orderFree h.checkExits_eq)
  | typeCompatibility => exact h.checkTypes_sameFindings.orderFree
  | performance => exact h.checkPerformance_sameFindings o
  | suggestions => exact h.suggest_sameFindings.orderFree

/-- All stages together find the same, with the order left aside. -/
theorem findings_sameFindings (h : g.Reorders g') (o : Options) :
    (g.findings o).orderFree.SameFindings (g'.findings o).orderFree := by
  rw [findings, findings, Report.orderFree_concat, Report.orderFree_concat, List.map_map,
    List.map_map]
  exact .concat_map (.refl _) fun stage _ => h.report_sameFindings o stage

end Reorders

/-! ### What is left open -/

variable {g g' : Graph} {o : Options}

/-- A circular dependency is reported exactly if it is looked for and there is a closed
walk. -/
theorem exists_circular_iff :
    (∃ d ∈ (g.findings o).errors, d.code = "CIRCULAR_DEPENDENCY") ↔
      o.checkCircularDependencies = true ∧ ¬ g.Acyclic := by
  rw [findings, Report.errors_concat, List.flatMap_map]
  constructor
  · rintro ⟨d, hd, hcode⟩
    obtain ⟨stage, henabled, hd⟩ := List.mem_flatMap.mp hd
    -- the code says which pass has reported it
    have hmem : d.code ∈ stage.codes :=
      stage.codes_report_subset g o (Report.mem_codes_of_mem_errors hd)
    obtain rfl : stage = .circularDependencies :=
      Stage.eq_of_mem_codes hmem (hcode ▸ List.mem_singleton_self _)
    refine ⟨Stage.mem_enabled.mp henabled, fun hg => ?_⟩
    have hnil : (Stage.circularDependencies.report g o).errors = [] :=
      Stage.errors_report_eq_nil_iff.mpr hg
    rw [hnil] at hd
    cases hd
  · rintro ⟨henabled, hg⟩
    obtain ⟨d, hd⟩ := List.exists_mem_of_ne_nil _ (mt g.checkCycles_errors_eq_nil_iff.mp hg)
    refine ⟨d, List.mem_flatMap.mpr ⟨.circularDependencies, Stage.mem_enabled.mpr henabled, hd⟩, ?_⟩
    obtain ⟨c, -, rfl⟩ := List.mem_map.mp hd
    rfl

/-- Of all passes only that of the limits reports the depth. -/
theorem filter_depth_report (stage : Stage) :
    ((stage.report g o).warnings.filter fun w => w.code = "MAX_DEPTH_EXCEEDED") =
      if stage = .performance then (g.checkDepth o).warnings else [] := by
  split
  · next h =>
      subst h
      exact g.filter_warnings_checkPerformance o .depth
  · next h =>
      apply Report.filter_warnings_eq_nil
      intro w hw hcode
      have hmem : w.code ∈ stage.codes :=
        stage.codes_report_subset g o (Report.mem_codes_of_mem_warnings hw)
      rw [hcode] at hmem
      exact h (Stage.eq_of_mem_codes hmem (by decide))

/-- In a graph without cycles the depth does not depend on the order either. -/
theorem Reorders.filter_depth_findings_eq (h : g.Reorders g') (hg : g.Acyclic) :
    ((g.findings o).warnings.filter fun w => w.code = "MAX_DEPTH_EXCEEDED") =
      (g'.findings o).warnings.filter fun w => w.code = "MAX_DEPTH_EXCEEDED" := by
  have hdepth : g.checkDepth o = g'.checkDepth o := by
    rw [checkDepth, checkDepth, h.longestPathDepth_eq h.startKeys_perm hg]
  simp only [findings, Report.warnings_concat, List.flatMap_map, List.filter_flatMap,
    filter_depth_report, hdepth]

/-! ### Whole runs -/

/-- **The order of a graph does not matter.** Runs without custom validators on two graphs that
list the same nodes and connections in different orders agree on validity. They have the same
findings, each as often, if circular dependencies and the depth are left out and several start
nodes are compared by code only. Circular dependencies are found in both or in neither, and
without closed walks the depth is reported alike. -/
theorem validate_reordered (n : Nat) (g g' : Graph) (o : Options) (cancelled : Bool)
    (h : g.Reorders g') : ∃ r r',
      (Validator.validate { next := n } g o .nothing cancelled).outcome = .ok r ∧
      (Validator.validate { next := n } g' o .nothing cancelled).outcome = .ok r' ∧
      r.valid = r'.valid ∧
      r.orderFree.SameFindings r'.orderFree ∧
      ((∃ d ∈ r.errors, d.code = "CIRCULAR_DEPENDENCY") ↔
        ∃ d ∈ r'.errors, d.code = "CIRCULAR_DEPENDENCY") ∧
      (g.Acyclic → (r.warnings.filter fun w => w.code = "MAX_DEPTH_EXCEEDED") =
        r'.warnings.filter fun w => w.code = "MAX_DEPTH_EXCEEDED") := by
  have hsame := h.findings_sameFindings o
  have hcircular : (∃ d ∈ (g.findings o).errors, d.code = "CIRCULAR_DEPENDENCY") ↔
      ∃ d ∈ (g'.findings o).errors, d.code = "CIRCULAR_DEPENDENCY" := by
    rw [exists_circular_iff, exists_circular_iff, h.acyclic_iff]
  have hnil : (g.findings o).orderFree.errors = [] ↔ (g'.findings o).orderFree.errors = [] := by
    rw [← List.isEmpty_iff, ← List.isEmpty_iff, hsame.errors.isEmpty_eq]
  refine ⟨_, _, Validator.outcome_validate n g o cancelled,
    Validator.outcome_validate n g' o cancelled, ?_, ?_, hcircular, h.filter_depth_findings_eq⟩
  · rw [Bool.eq_iff_iff, valid_finalize_iff, valid_finalize_iff,
      Report.errors_eq_nil_iff (g.findings o), Report.errors_eq_nil_iff (g'.findings o), hnil,
      hcircular]
  · exact ⟨hsame.errors, hsame.warnings, hsame.notes, hsame.suggestions⟩

/-- Two start nodes that lead to one end. -/
def twoStarts : Graph where
  id := "g"
  nodes := .ofList [("left", { id := "left", tag := "start", config := .empty }),
    ("right", { id := "right", tag := "start", config := .empty }),
    ("end", { id := "end", tag := "end", config := .empty })]
  connections := .ofList [("1", { id := "1", source := "left", target := "end" }),
    ("2", { id := "2", source := "right", target := "end" })]

/-- In the opposite order the start nodes are named the other way round; all else is reported
alike, also that the paths of two nodes are longer than allowed. -/
theorem twoStarts_reordered :
    twoStarts.startKeys ≠ twoStarts.reversed.startKeys ∧
    twoStarts.Reorders twoStarts.reversed ∧ twoStarts.Acyclic ∧
    ∃ r r',
      (Validator.validate { next := 0 } twoStarts { maxDepth := 1 } .nothing false).outcome =
        .ok r ∧
      (Validator.validate { next := 0 } twoStarts.reversed { maxDepth := 1 } .nothing
        false).outcome = .ok r' ∧
      r.valid = r'.valid ∧
      r.orderFree.SameFindings r'.orderFree ∧
      ((∃ d ∈ r.errors, d.code = "CIRCULAR_DEPENDENCY") ↔
        ∃ d ∈ r'.errors, d.code = "CIRCULAR_DEPENDENCY") ∧
      (r.warnings.filter fun w => w.code = "MAX_DEPTH_EXCEEDED") =
        r'.warnings.filter fun w => w.code = "MAX_DEPTH_EXCEEDED" := by
  have hacyclic : twoStarts.Acyclic :=
    acyclic_of_grows (["left", "right", "end"].idxOf ·) (by decide)
  obtain ⟨r, r', hr, hr', hvalid, hsame, hcircular, hdepth⟩ :=
    validate_reordered 0 twoStarts twoStarts.reversed { maxDepth := 1 } false
      twoStarts.reorders_reversed
  exact ⟨by decide, twoStarts.reorders_reversed, hacyclic, r, r', hr, hr', hvalid, hsame,
    hcircular, hdepth hacyclic⟩

end Graph
end PlotGraph
