import PlotGraph.Proofs.Options.Settings
import PlotGraph.Proofs.Validator.Codes

/-!
# Passes switched off

A pass reads nothing that another pass has found, and no switch but its own has a say in
whether it runs. So a run with some passes switched off finds what a run with all of them
finds, less the findings with their codes (`Graph.validate_setSwitches`).
-/

namespace PlotGraph

/-! ### Setting switches -/

namespace Options

/-- Set several switches to the same position. -/
def setSwitches (o : Options) (switches : List Switch) (b : Bool) : Options :=
  switches.foldl (fun o s => o.setSwitch s b) o

/-- To set some switches leaves the others alone. -/
theorem switch_setSwitches (o : Options) (switches : List Switch) (b : Bool) (t : Switch) :
    (o.setSwitches switches b).switch t = if t ∈ switches then b else o.switch t := by
  induction switches generalizing o with
  | nil => rfl
  | cons s rest ih =>
      show ((o.setSwitch s b).setSwitches rest b).switch t = _
      rw [ih, switch_setSwitch]
      grind

end Options

namespace Switch

/-- The rule for wires that leave a condition is also reported by the check of the connections,
under a code that no switch takes away. -/
theorem wireCode_not_mem_codes (s : Switch) : Connection.wireCode ∉ s.codes := by
  cases s <;> decide

end Switch

namespace Stage

/-- What a pass finds depends on the limits only, not on the switches. -/
theorem report_setSwitches (stage : Stage) (g : Graph) (o : Options) (switches : List Switch)
    (b : Bool) : stage.report g (o.setSwitches switches b) = stage.report g o := by
  induction switches generalizing o with
  | nil => rfl
  | cons s rest ih =>
      show stage.report g ((o.setSwitch s b).setSwitches rest b) = _
      rw [ih]
      cases s <;> rfl

/-- With all switches on but some, the passes of the others run. -/
theorem isEnabled_setSwitches_iff {o : Options} {off : List Switch} {stage : Stage} :
    stage.isEnabled ((o.setSwitches Switch.all true).setSwitches off false) = true ↔
      ∀ s ∈ off, stage.switch? ≠ some s := by
  rw [isEnabled]
  cases stage.switch? with
  | none => simp
  | some s =>
      simp only [Options.switch_setSwitches, Switch.mem_all, if_true]
      grind

/-! ### Findings of the passes switched off -/

/-- The codes of a stage are those of its switch. -/
theorem codes_of_switch {stage : Stage} {s : Switch} (h : stage.switch? = some s) :
    stage.codes = s.codes := by
  cases stage <;> cases h <;> rfl

/-- Every switch is that of some stage. -/
theorem exists_switch (s : Switch) : ∃ stage : Stage, stage.switch? = some s := by
  cases s with
  | circularDependencies => exact ⟨.circularDependencies, rfl⟩
  | deadCode => exact ⟨.deadCode, rfl⟩
  | reachability => exact ⟨.reachability, rfl⟩
  | typeCompatibility => exact ⟨.typeCompatibility, rfl⟩
  | performance => exact ⟨.performance, rfl⟩

/-- Whether a finding of a pass carries a code of some switch is decided by the pass. -/
theorem not_mem_flatMap_codes_iff {stage : Stage} {code : String} (hcode : code ∈ stage.codes)
    {off : List Switch} :
    code ∉ off.flatMap Switch.codes ↔ ∀ s ∈ off, stage.switch? ≠ some s := by
  simp only [List.mem_flatMap, not_exists, not_and]
  refine forall₂_congr fun s _ => not_congr ?_
  constructor
  · intro hs
    -- the pass with this switch has the code as well, and no code has two owners
    obtain ⟨owner, howner⟩ := exists_switch s
    rw [← codes_of_switch howner] at hs
    rw [eq_of_mem_codes hcode hs, howner]
  · intro hs
    rw [← codes_of_switch hs]
    exact hcode

/-- Passes that can be switched off make no suggestions. -/
theorem suggestions_report_of_switch {stage : Stage} {s : Switch} (h : stage.switch? = some s)
    (g : Graph) (o : Options) : (stage.report g o).suggestions = [] := by
  cases stage with
  | circularDependencies => rfl
  | deadCode =>
      show g.checkDeadCode.suggestions = []
      rw [Graph.checkDeadCode]
      split <;> rfl
  | reachability =>
      show g.checkExits.suggestions = []
      simp [Graph.checkExits]
  | typeCompatibility =>
      show g.checkTypes.suggestions = []
      rw [Graph.checkTypes, Report.suggestions_concat_eq_nil_iff, List.forall_mem_map]
      intro c _
      rw [Connection.checkWire]
      split <;> rfl
  | performance =>
      show (g.checkPerformance o).suggestions = []
      rw [Graph.checkPerformance, Report.suggestions_concat_eq_nil_iff]
      simp [Graph.checkNodeCount, Graph.checkConnectionCount, Graph.checkBranches,
        Graph.checkDepth]
  | _ => cases h

end Stage

namespace Report

/-- A report without the findings that carry one of some codes. -/
def without (r : Report) (codes : List String) : Report :=
  { r with
    errors := r.errors.filter fun d => d.code ∉ codes
    warnings := r.warnings.filter fun w => w.code ∉ codes
    notes := r.notes.filter fun n => n.code ∉ codes }

theorem errors_without (r : Report) (codes : List String) :
    (r.without codes).errors = r.errors.filter fun d => d.code ∉ codes := rfl

theorem warnings_without (r : Report) (codes : List String) :
    (r.without codes).warnings = r.warnings.filter fun w => w.code ∉ codes := rfl

theorem notes_without (r : Report) (codes : List String) :
    (r.without codes).notes = r.notes.filter fun n => n.code ∉ codes := rfl

theorem suggestions_without (r : Report) (codes : List String) :
    (r.without codes).suggestions = r.suggestions := rfl

/-- Validity decided before some findings are left out is decided again. -/
theorem finalize_without_finalize (r : Report) (codes : List String) :
    (r.finalize.without codes).finalize = (r.without codes).finalize := rfl

/-- Where the findings of a part are all kept or all left out, so are the parts. -/
theorem filter_flatMap_eq {α β : Type} {findings : α → List β} {keep : α → Bool} {p : β → Bool}
    (parts : List α) (h : ∀ a, ∀ b ∈ findings a, p b = keep a) :
    (parts.flatMap findings).filter p = (parts.filter keep).flatMap findings := by
  induction parts with
  | nil => rfl
  | cons a rest ih =>
      rw [List.flatMap_cons, List.filter_append, ih]
      cases hkeep : keep a with
      | true =>
          have hall : (findings a).filter p = findings a :=
            List.filter_eq_self.mpr fun b hb => (h a b hb).trans hkeep
          rw [hall, List.filter_cons_of_pos hkeep, List.flatMap_cons]
      | false =>
          have hnone : (findings a).filter p = [] :=
            List.filter_eq_nil_iff.mpr fun b hb => by simp [h a b hb, hkeep]
          rw [hnone, List.nil_append, List.filter_cons_of_neg (by simp [hkeep])]

/-- Validity is decided by the findings alone. -/
theorem finalize_congr {r r' : Report} (herrors : r.errors = r'.errors)
    (hwarnings : r.warnings = r'.warnings) (hnotes : r.notes = r'.notes)
    (hsuggestions : r.suggestions = r'.suggestions) : r.finalize = r'.finalize := by
  cases r
  cases r'
  cases herrors
  cases hwarnings
  cases hnotes
  cases hsuggestions
  rfl

end Report

namespace Graph

variable {g : Graph} {o : Options} {off : List Switch}

/-- The findings with all switches on are those of all passes. -/
theorem findings_allOn : g.findings (o.setSwitches Switch.all true) =
    .concat (Stage.all.map (·.report g o)) := by
  have henabled : Stage.enabled (o.setSwitches Switch.all true) = Stage.all :=
    List.filter_eq_self.mpr fun stage _ =>
      Stage.isEnabled_setSwitches_iff.mpr (List.forall_mem_nil fun s => stage.switch? ≠ some s)
  rw [findings, henabled]
  simp only [Stage.report_setSwitches]

/-- A list of findings of the passes that are left on is what is left of the list of all. -/
theorem findings_switchedOff {α : Type} (list : Report → List α) (p : α → Bool)
    (hconcat : ∀ rs, list (.concat rs) = rs.flatMap list)
    (hp : ∀ stage : Stage, ∀ a ∈ list (stage.report g o),
      p a = true ↔ ∀ s ∈ off, stage.switch? ≠ some s) :
    list (g.findings ((o.setSwitches Switch.all true).setSwitches off false)) =
      (list (g.findings (o.setSwitches Switch.all true))).filter p := by
  have henabled : ∀ stage : Stage, ∀ a ∈ list (stage.report g o), p a =
      stage.isEnabled ((o.setSwitches Switch.all true).setSwitches off false) := by
    intro stage a ha
    rw [Bool.eq_iff_iff, hp stage a ha, Stage.isEnabled_setSwitches_iff]
  rw [findings_allOn, hconcat, List.flatMap_map, Report.filter_flatMap_eq _ henabled, findings,
    hconcat, List.flatMap_map]
  simp only [Stage.report_setSwitches]
  rfl

/-- What is found with some passes switched off is what is found with all of them, less the
findings with their codes. -/
theorem finalize_findings_switchedOff (g : Graph) (o : Options) (off : List Switch) :
    (g.findings ((o.setSwitches Switch.all true).setSwitches off false)).finalize =
      ((g.findings (o.setSwitches Switch.all true)).without
        (off.flatMap Switch.codes)).finalize := by
  -- whether a finding is kept shows in its code, which is one of those of its pass
  have hkept : ∀ stage : Stage, ∀ code ∈ (stage.report g o).codes,
      decide (code ∉ off.flatMap Switch.codes) = true ↔ ∀ s ∈ off, stage.switch? ≠ some s :=
    fun stage code hcode => decide_eq_true_iff.trans
      (Stage.not_mem_flatMap_codes_iff (stage.codes_report_subset g o hcode))
  apply Report.finalize_congr
  · rw [Report.errors_without]
    exact findings_switchedOff (·.errors) _ Report.errors_concat fun stage d hd =>
      hkept stage d.code (Report.mem_codes_of_mem_errors hd)
  · rw [Report.warnings_without]
    exact findings_switchedOff (·.warnings) _ Report.warnings_concat fun stage w hw =>
      hkept stage w.code (Report.mem_codes_of_mem_warnings hw)
  · rw [Report.notes_without]
    exact findings_switchedOff (·.notes) _ Report.notes_concat fun stage m hm =>
      hkept stage m.code (Report.mem_codes_of_mem_notes hm)
  · -- suggestions carry no code, but the passes that can be switched off make none
    rw [Report.suggestions_without, findings_switchedOff (·.suggestions) (fun _ => true)
      Report.suggestions_concat, List.filter_true]
    intro stage a ha
    refine iff_of_true rfl fun s _ hs => ?_
    rw [Stage.suggestions_report_of_switch hs] at ha
    cases ha

/-- **Passes switched off.** A run without custom validators that has some of the passes
switched off reports what a run with all passes reports, in the same order, less the findings
with the codes of the passes switched off; validity is decided by what is left. The finding of
the check of the connections that a wire leaves a condition is never among those left out. -/
theorem validate_setSwitches (n : Nat) (g : Graph) (o : Options) (off : List Switch)
    (cancelled : Bool) : ∃ full part,
      (Validator.validate { next := n } g (o.setSwitches Switch.all true)
        .nothing cancelled).outcome = .ok full ∧
      (Validator.validate { next := n } g ((o.setSwitches Switch.all true).setSwitches off false)
        .nothing cancelled).outcome = .ok part ∧
      part = (full.without (off.flatMap Switch.codes)).finalize ∧
      Connection.wireCode ∉ off.flatMap Switch.codes := by
  have hwire : Connection.wireCode ∉ off.flatMap Switch.codes := by
    intro hmem
    obtain ⟨s, -, hs⟩ := List.mem_flatMap.mp hmem
    exact s.wireCode_not_mem_codes hs
  refine ⟨_, _, Validator.outcome_validate n g _ cancelled,
    Validator.outcome_validate n g _ cancelled, ?_, hwire⟩
  rw [Report.finalize_without_finalize]
  exact finalize_findings_switchedOff g o off

end Graph
end PlotGraph
