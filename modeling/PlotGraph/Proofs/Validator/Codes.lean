import PlotGraph.Proofs.Report
import PlotGraph.Proofs.Validator.Run
import Mathlib.Data.List.Nodup
import Mathlib.Data.List.Pairwise
import Mathlib.Tactic.ByContra

/-!
# Whose code is whose

Every finding carries one of the codes of the pass that makes it (`Stage.codes_report_subset`),
and no code belongs to two passes (`Stage.nodup_codes`). So the findings of a pass can be told
from all others in a report, whatever else the report holds.
-/

namespace PlotGraph

/-! ### The codes of the passes -/

/-- The codes of a pass that can be switched off. -/
def Switch.codes : Switch → List String
  | .circularDependencies => ["CIRCULAR_DEPENDENCY"]
  | .deadCode => ["UNREACHABLE_NODE"]
  | .reachability => ["NO_EXIT_POINTS"]
  | .typeCompatibility => ["TYPE_MISMATCH"]
  | .performance =>
    ["TOO_MANY_NODES", "TOO_MANY_CONNECTIONS", "TOO_MANY_BRANCHES", "MAX_DEPTH_EXCEEDED"]

namespace Stage

/-- The codes of a pass. Suggestions carry none. -/
def codes : Stage → List String
  | .outline => ["MISSING_GRAPH_ID", "EMPTY_GRAPH", "NO_ENTRY_POINT", "MULTIPLE_ENTRY_POINTS"]
  | .nodes =>
    ["MISSING_NODE_ID", "MISSING_NODE_TYPE", "UNKNOWN_NODE_TYPE", "MISSING_CONDITION",
      "MISSING_ACTION", "MISSING_VARIABLE", "MISSING_EVENT_TYPE", "CUSTOM_NODE",
      "INVALID_NODE_POSITION", "ISOLATED_NODE"]
  | .connections =>
    ["MISSING_CONNECTION_ID", "INVALID_SOURCE_NODE", "INVALID_TARGET_NODE", "SELF_CONNECTION",
      "DUPLICATE_CONNECTION", "CONDITION_CONNECTION_TYPE"]
  | .circularDependencies => Switch.codes .circularDependencies
  | .deadCode => Switch.codes .deadCode
  | .reachability => Switch.codes .reachability
  | .typeCompatibility => Switch.codes .typeCompatibility
  | .performance => Switch.codes .performance
  | .suggestions => []

/-- No code belongs to two passes. -/
theorem nodup_codes : (all.flatMap codes).Nodup := by decide

/-- No two stages have a code in common. -/
theorem eq_of_mem_codes {s t : Stage} {code : String} (hs : code ∈ s.codes)
    (ht : code ∈ t.codes) : s = t := by
  have hdisjoint := (List.nodup_flatMap.mp nodup_codes).2
  have hsymm : Std.Symm (Function.onFun List.Disjoint codes) := ⟨fun _ _ h => List.disjoint_symm h⟩
  by_contra hne
  exact hdisjoint.forall (mem_all s) (mem_all t) hne hs ht

end Stage

/-! ### Nodes and connections -/

namespace Node

/-- The codes under which the tag of a node and its content are reported. -/
def tagCodes : List String :=
  ["MISSING_NODE_TYPE", "UNKNOWN_NODE_TYPE", "MISSING_CONDITION", "MISSING_ACTION",
    "MISSING_VARIABLE", "MISSING_EVENT_TYPE", "CUSTOM_NODE"]

/-- The codes for the content of a node are among those for its type. -/
theorem codes_checkContent_subset (n : Node) : ∀ c, (n.checkContent c).codes ⊆ tagCodes
  | .condition | .action | .variable | .event =>
      Report.codes_when_subset (by simp [tagCodes])
  | .custom => by simp [checkContent, checkCustom, tagCodes]
  | .sequence | .parallel | .terminal | .comment => List.nil_subset _

/-- The check of the type of a node keeps to its codes. -/
theorem codes_checkTag_subset (n : Node) : n.checkTag.codes ⊆ tagCodes := by
  rw [checkTag]
  split
  · simp [tagCodes]
  · split
    · exact n.codes_checkContent_subset _
    · simp [tagCodes]

/-- The checks of a node keep to the codes of their stage. -/
theorem codes_check_subset (n : Node) (incident : Mapping String Nat) :
    (n.check incident).codes ⊆ Stage.codes .nodes := by
  apply Report.codes_concat_subset
  simp only [List.forall_mem_cons, List.not_mem_nil, false_implies, implies_true, and_true]
  refine ⟨?_, List.Subset.trans n.codes_checkTag_subset (by decide), ?_, ?_⟩
  · exact Report.codes_when_subset (by simp [Stage.codes])
  · exact Report.codes_when_subset (by simp [Stage.codes])
  · exact Report.codes_when_subset (by simp [Stage.codes])

end Node

namespace Connection

theorem code_wireWarning (c : Connection) (code : String) : (c.wireWarning code).code = code := by
  rw [wireWarning]
  split <;> rfl

/-- The rule for wires that leave a condition has one finding, in the wording of the code. -/
theorem eq_wireWarning_of_wireFinding? {c : Connection} {g : Graph} {code : String}
    {w : Warning} (h : c.wireFinding? g code = some w) : w = c.wireWarning code := by
  simp only [wireFinding?, wireMismatch?] at h
  grind

/-- The check of a wire has the one code that it is called with. -/
theorem codes_checkWire_subset (c : Connection) (g : Graph) (code : String) :
    (c.checkWire g code).codes ⊆ [code] := by
  rw [checkWire]
  split
  · next w hw =>
      rw [eq_wireWarning_of_wireFinding? hw, Report.codes_ofWarning, code_wireWarning]
      exact List.Subset.refl _
  · exact List.nil_subset _

/-- The checks of a connection keep to the codes of their stage. -/
theorem codes_check_subset (c : Connection) (g : Graph) (counts : Mapping EdgeKey Nat) :
    (c.check g counts).codes ⊆ Stage.codes .connections := by
  apply Report.codes_concat_subset
  simp only [List.forall_mem_cons, List.not_mem_nil, false_implies, implies_true, and_true]
  refine ⟨?_, ?_, ?_, ?_, ?_, ?_⟩
  · exact Report.codes_when_subset (by simp [Stage.codes])
  · exact Report.codes_when_subset (by simp [Stage.codes])
  · exact Report.codes_when_subset (by simp [Stage.codes])
  · exact Report.codes_when_subset (by simp [Stage.codes])
  · exact Report.codes_when_subset (by simp [Stage.codes])
  · exact List.Subset.trans (c.codes_checkWire_subset g wireCode) (by decide)

end Connection

/-! ### Whole graphs -/

namespace Graph

/-- The checks of the structure keep to the codes of their stage. -/
theorem codes_checkStructure_subset (g : Graph) :
    g.checkStructure.codes ⊆ Stage.codes .outline := by
  apply Report.codes_concat_subset
  simp only [List.forall_mem_cons, List.not_mem_nil, false_implies, implies_true, and_true]
  refine ⟨Report.codes_when_subset (by simp [Stage.codes]), ?_⟩
  rw [checkEntries]
  split
  · simp [emptyWarning, Stage.codes]
  · split
    · simp [noEntryWarning, Stage.codes]
    · exact List.nil_subset _
    · simp [manyEntriesWarning, Stage.codes]

theorem codes_checkNodes_subset (g : Graph) : g.checkNodes.codes ⊆ Stage.codes .nodes := by
  apply Report.codes_concat_subset
  rw [List.forall_mem_map]
  exact fun n _ => n.codes_check_subset g.incident

theorem codes_checkConnections_subset (g : Graph) :
    g.checkConnections.codes ⊆ Stage.codes .connections := by
  apply Report.codes_concat_subset
  rw [List.forall_mem_map]
  exact fun c _ => c.codes_check_subset g g.edgeCounts

theorem codes_checkCycles_subset (g : Graph) :
    g.checkCycles.codes ⊆ Stage.codes .circularDependencies := by
  refine Report.codes_subset_iff.mpr ⟨?_, by simp [checkCycles], by simp [checkCycles]⟩
  intro d hd
  obtain ⟨c, -, rfl⟩ := List.mem_map.mp hd
  exact List.mem_singleton_self _

theorem codes_checkDeadCode_subset (g : Graph) :
    g.checkDeadCode.codes ⊆ Stage.codes .deadCode := by
  rw [checkDeadCode]
  split
  · exact List.nil_subset _
  · refine Report.codes_subset_iff.mpr ⟨by simp, ?_, by simp⟩
    intro w hw
    obtain ⟨e, -, rfl⟩ := List.mem_map.mp hw
    exact List.mem_singleton_self _

theorem codes_checkExits_subset (g : Graph) :
    g.checkExits.codes ⊆ Stage.codes .reachability :=
  Report.codes_when_subset (by simp [Stage.codes, Switch.codes])

theorem codes_checkTypes_subset (g : Graph) :
    g.checkTypes.codes ⊆ Stage.codes .typeCompatibility := by
  apply Report.codes_concat_subset
  rw [List.forall_mem_map]
  exact fun c _ => c.codes_checkWire_subset g Connection.typeCode

/-- The checks of the limits keep to the codes of their stage. -/
theorem codes_checkPerformance_subset (g : Graph) (o : Options) :
    (g.checkPerformance o).codes ⊆ Stage.codes .performance := by
  apply Report.codes_concat_subset
  simp only [List.forall_mem_cons, List.not_mem_nil, false_implies, implies_true, and_true]
  refine ⟨?_, ?_, ?_, ?_⟩
  · exact Report.codes_when_subset (by simp [nodeCountWarning, Stage.codes, Switch.codes])
  · exact Report.codes_when_subset (by simp [connectionCountWarning, Stage.codes, Switch.codes])
  · refine Report.codes_subset_iff.mpr ⟨by simp [checkBranches], ?_, by simp [checkBranches]⟩
    intro w hw
    obtain ⟨e, -, rfl⟩ := List.mem_map.mp hw
    simp [branchesWarning, Stage.codes, Switch.codes]
  · exact Report.codes_when_subset (by simp [depthWarning, Stage.codes, Switch.codes])

/-- Suggestions have no codes of findings. -/
theorem codes_suggest_subset (g : Graph) : g.suggest.codes ⊆ Stage.codes .suggestions := by
  apply Report.codes_concat_subset
  simp only [List.forall_mem_cons, List.not_mem_nil, false_implies, implies_true, and_true]
  exact ⟨List.nil_subset _, Report.codes_when_subset (List.nil_subset _)⟩

end Graph

/-! ### Passes -/

/-- Every finding of a pass carries one of the codes of the pass. -/
theorem Stage.codes_report_subset (stage : Stage) (g : Graph) (o : Options) :
    (stage.report g o).codes ⊆ stage.codes := by
  cases stage with
  | outline => exact g.codes_checkStructure_subset
  | nodes => exact g.codes_checkNodes_subset
  | connections => exact g.codes_checkConnections_subset
  | circularDependencies => exact g.codes_checkCycles_subset
  | deadCode => exact g.codes_checkDeadCode_subset
  | reachability => exact g.codes_checkExits_subset
  | typeCompatibility => exact g.codes_checkTypes_subset
  | performance => exact g.codes_checkPerformance_subset o
  | suggestions => exact g.codes_suggest_subset

end PlotGraph
