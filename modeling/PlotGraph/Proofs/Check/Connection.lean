import PlotGraph.Check.Connection
import PlotGraph.Proofs.Report

/-!
# What the check of a connection finds

Four of the six parts of the check find defects, and the other two find warnings
(`Connection.errors_check`, `Connection.warnings_check`). Every part has a code of its own, so that
what it finds can be told from all else by that code (`Connection.filter_errors_check_eq`).
-/

namespace PlotGraph
namespace Connection

/-- The rule for wires that leave a condition finds no defect. -/
theorem errors_checkWire (c : Connection) (g : Graph) (code : String) :
    (c.checkWire g code).errors = [] := by
  rw [checkWire]
  split <;> rfl

/-- A wire is warned of if there is something to find. -/
theorem warnings_checkWire (c : Connection) (g : Graph) (code : String) :
    (c.checkWire g code).warnings = (c.wireFinding? g code).toList := by
  rw [checkWire]
  split
  · next w hw =>
      rw [hw]
      rfl
  · next hw =>
      rw [hw]
      rfl

/-- The errors about a connection are those of its four checks that can fail. -/
theorem errors_check (c : Connection) (g : Graph) (counts : Mapping EdgeKey Nat) :
    (c.check g counts).errors =
      c.checkId.errors ++ ((c.checkSource g).errors ++
        ((c.checkTarget g).errors ++ c.checkSelfLoop.errors)) := by
  have hduplicate : (c.checkDuplicate counts).errors = [] := by simp [checkDuplicate]
  rw [check, Report.errors_concat]
  simp only [List.flatMap_cons, List.flatMap_nil, hduplicate, errors_checkWire, List.append_nil]

/-- The defects under a code are those of one part. -/
theorem filter_errors_check_eq (c : Connection) (g : Graph) (counts : Mapping EdgeKey Nat) :
    ((c.check g counts).errors.filter fun d => d.code = "MISSING_CONNECTION_ID") =
      c.checkId.errors ∧
    ((c.check g counts).errors.filter fun d => d.code = "INVALID_SOURCE_NODE") =
      (c.checkSource g).errors ∧
    ((c.check g counts).errors.filter fun d => d.code = "INVALID_TARGET_NODE") =
      (c.checkTarget g).errors ∧
    ((c.check g counts).errors.filter fun d => d.code = "SELF_CONNECTION") =
      c.checkSelfLoop.errors := by
  rw [errors_check, checkId, checkSource, checkTarget, checkSelfLoop]
  simp [Report.errors_when_ofDefect, apply_ite (List.filter _)]

/-- The warnings about a connection are those about duplicates and about the wire. -/
theorem warnings_check (c : Connection) (g : Graph) (counts : Mapping EdgeKey Nat) :
    (c.check g counts).warnings =
      (c.checkDuplicate counts).warnings ++ (c.wireFinding? g wireCode).toList := by
  have hdefects : ∀ r ∈ [c.checkId, c.checkSource g, c.checkTarget g, c.checkSelfLoop],
      r.warnings = [] := by
    simp [checkId, checkSource, checkTarget, checkSelfLoop]
  rw [check, Report.warnings_concat, ← warnings_checkWire]
  show List.flatMap _ ([c.checkId, c.checkSource g, c.checkTarget g, c.checkSelfLoop] ++
    [c.checkDuplicate counts, c.checkWire g wireCode]) = _
  rw [List.flatMap_append, List.flatMap_eq_nil_iff.mpr hdefects]
  simp

end Connection
end PlotGraph
