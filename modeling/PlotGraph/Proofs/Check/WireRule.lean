import PlotGraph.Check.Structure
import PlotGraph.Proofs.Check.Connection
import PlotGraph.Proofs.Validator.Codes

/-!
# The rule for wires that leave a condition

The rule is applied in two passes, once among the other checks of a connection and once by
itself. Both find the same connections, in the same order and with the same anchors: those that
leave an existing condition, lead to an existing node and are neither of type `boolean` nor of
type `condition` (`Graph.wireRule_reported_alike`).
-/

namespace PlotGraph

/-- A connection leaves an existing condition and leads to an existing node, but its type is not
one of a truth value; it may have none. -/
def Graph.BreaksWireRule (g : Graph) (c : Connection) : Prop :=
  (∃ n ∈ g.node? c.source, n.tag = "condition") ∧ g.hasNode c.target = true ∧
    c.wireType ≠ some "boolean" ∧ c.wireType ≠ some "condition"

instance (g : Graph) (c : Connection) : Decidable (g.BreaksWireRule c) :=
  inferInstanceAs (Decidable (_ ∧ _ ∧ _))

namespace Connection

/-- Only wires into conditions mismatch, if they are neither of the two types. -/
theorem mismatches_iff {c : Connection} {n : Node} : c.mismatches n = true ↔
    n.tag = "condition" ∧ c.wireType ≠ some "boolean" ∧ c.wireType ≠ some "condition" := by
  rw [mismatches, Bool.and_eq_true, Node.hasKind, beq_iff_eq]
  refine and_congr_right fun _ => ?_
  cases c.wireType with
  | none => simp
  | some t => simp [conditionWireTypes]

/-- Whatever the code, the rule is broken by the same connections. -/
theorem wireFinding?_eq (c : Connection) (g : Graph) (code : String) :
    c.wireFinding? g code = if g.BreaksWireRule c then some (c.wireWarning code) else none := by
  by_cases h : g.BreaksWireRule c
  · rw [if_pos h]
    obtain ⟨⟨n, hsource, htag⟩, htarget, htype⟩ := h
    rw [wireFinding?, Option.mem_def.mp hsource]
    simp only [htarget, if_true, wireMismatch?, mismatches_iff.mpr ⟨htag, htype⟩]
  · rw [if_neg h, wireFinding?]
    split
    · next n hsource =>
        split
        · next htarget =>
            rw [wireMismatch?, if_neg]
            intro hmismatch
            obtain ⟨htag, htype⟩ := mismatches_iff.mp hmismatch
            exact h ⟨⟨n, hsource, htag⟩, htarget, htype⟩
        · rfl
    · rfl

/-- The check of a connection reports the rule under its own code, next to what else it finds. -/
theorem filter_warnings_check_wire (c : Connection) (g : Graph) (counts : Mapping EdgeKey Nat) :
    ((c.check g counts).warnings.filter fun w => w.code = "CONDITION_CONNECTION_TYPE") =
      if g.BreaksWireRule c then [c.wireWarning "CONDITION_CONNECTION_TYPE"] else [] := by
  have hduplicate : ((c.checkDuplicate counts).warnings.filter
      fun w => w.code = "CONDITION_CONNECTION_TYPE") = [] :=
    Report.filter_warnings_eq_nil_of_not_mem (Report.not_mem_codes_when (by simp))
  rw [warnings_check, List.filter_append, hduplicate, List.nil_append, wireFinding?_eq]
  split
  · simp [code_wireWarning, wireCode]
  · rfl

/-- The check of a wire warns exactly if the wire breaks the rule. -/
theorem filter_warnings_checkWire (c : Connection) (g : Graph) (code : String) :
    ((c.checkWire g code).warnings.filter fun w => w.code = code) =
      if g.BreaksWireRule c then [c.wireWarning code] else [] := by
  rw [warnings_checkWire, wireFinding?_eq]
  split
  · simp [code_wireWarning]
  · rfl

theorem connectionId_wireWarning (c : Connection) (code : String) :
    (c.wireWarning code).connectionId = anchor c.id := by
  rw [wireWarning]
  split <;> rfl

end Connection

namespace Graph

/-- The check of types warns of the wires that break the rule, in order. -/
theorem typeMismatch_warnings (g : Graph) :
    (g.checkTypes.warnings.filter fun w => w.code = "TYPE_MISMATCH") =
      (g.wires.filter fun c => g.BreaksWireRule c).map (·.wireWarning "TYPE_MISMATCH") := by
  rw [checkTypes, Report.warnings_concat]
  exact Report.filter_flatMap_of_subjects fun c _ => c.filter_warnings_checkWire g "TYPE_MISMATCH"

/-- The check of connections warns of the same wires, in the same order. -/
theorem conditionConnection_warnings (g : Graph) :
    (g.checkConnections.warnings.filter fun w => w.code = "CONDITION_CONNECTION_TYPE") =
      (g.wires.filter fun c => g.BreaksWireRule c).map
        (·.wireWarning "CONDITION_CONNECTION_TYPE") := by
  rw [checkConnections, Report.warnings_concat]
  exact Report.filter_flatMap_of_subjects fun c _ => c.filter_warnings_check_wire g g.edgeCounts

/-- **Both passes apply the rule alike.** The pass for types and the check of the connections
each report, in order and once for each, the connections that break the rule for wires that
leave a condition, and no others; the wording is that of the pass, and the anchors of the two
are the same. -/
theorem wireRule_reported_alike (g : Graph) :
    (g.checkTypes.warnings.filter fun w => w.code = "TYPE_MISMATCH") =
      (g.wires.filter fun c => g.BreaksWireRule c).map (·.wireWarning "TYPE_MISMATCH") ∧
    (g.checkConnections.warnings.filter fun w => w.code = "CONDITION_CONNECTION_TYPE") =
      (g.wires.filter fun c => g.BreaksWireRule c).map
        (·.wireWarning "CONDITION_CONNECTION_TYPE") ∧
    (g.checkTypes.warnings.filter fun w => w.code = "TYPE_MISMATCH").map (·.connectionId) =
      ((g.wires.filter fun c => g.BreaksWireRule c).map fun c => anchor c.id) ∧
    (g.checkConnections.warnings.filter fun w => w.code = "CONDITION_CONNECTION_TYPE").map
        (·.connectionId) =
      ((g.wires.filter fun c => g.BreaksWireRule c).map fun c => anchor c.id) := by
  have hanchors (code : String) :
      ((g.wires.filter fun c => g.BreaksWireRule c).map (·.wireWarning code)).map
        (·.connectionId) = (g.wires.filter fun c => g.BreaksWireRule c).map
          fun c => anchor c.id := by
    rw [List.map_map]
    exact List.map_congr_left fun c _ => c.connectionId_wireWarning code
  refine ⟨g.typeMismatch_warnings, g.conditionConnection_warnings, ?_, ?_⟩
  · rw [typeMismatch_warnings, hanchors]
  · rw [conditionConnection_warnings, hanchors]

end Graph
end PlotGraph
