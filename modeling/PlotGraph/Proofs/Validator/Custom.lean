import PlotGraph.Proofs.Validator.Registry
import PlotGraph.Proofs.Validator.Run

/-!
# What custom validators add to a report

A custom validator that only answers adds to the report of a run what its answers call for, one
subject after the other (`Outcome.contribution`): the findings of a partial report, nothing, or
one warning that the call failed. A failure ends neither the turn of the validator nor the run,
and validity is decided by the defects alone, whatever the partial reports say about it
(`Validator.validate_answering`).
-/

namespace PlotGraph

/-! ### Contributions -/

/-- What a finding about a subject is anchored at: a node that has an id, and nothing else. -/
def Subject.anchor? : Subject → Option String
  | .graph _ => none
  | .node n => if n.id = "" then none else some n.id

/-- The one finding about a call that failed. -/
def failureReport (name : String) (subject : Subject) (message : String) : Report :=
  .ofWarning {
    code := "CUSTOM_VALIDATOR_ERROR"
    message := "Custom validator '" ++ name ++ "' failed: " ++ message
    plainMessage := "One of the extra checks could not finish and was skipped"
    nodeId := subject.anchor? }

/-- What the answer of a custom validator about a subject adds to the report. -/
def Outcome.contribution (name : String) (subject : Subject) : Outcome → Report
  | .nothing => {}
  | .report r => r
  | .otherValue kind =>
    failureReport name subject ("returned " ++ kind ++ ", expected LogicValidationResult")
  | .failure message => failureReport name subject message

/-- What a custom validator with the given answers adds, subject by subject. -/
def CustomValidator.contributions (g : Graph) (c : CustomValidator)
    (respond : Subject → Outcome) : List Report :=
  (RunState.subjectsOf g c.card.scope).map fun subject =>
    (respond subject).contribution c.card.name subject

namespace RunState

variable {g : Graph} {s : RunState}

theorem failureNode_eq (subject : Subject) : failureNode subject = subject.anchor? := by
  cases subject with
  | graph g => rfl
  | node n => simp [failureNode, Subject.anchor?, anchor]

/-! ### One call -/

/-- To take in an answer adds what it contributes. -/
theorem report_absorb (s : RunState) (name : String) (subject : Subject) (outcome : Outcome) :
    (s.absorb name subject outcome).report =
      s.report.merge (outcome.contribution name subject) := by
  have hfailure : ∀ message, Report.ofWarning (failureWarning name subject message) =
      failureReport name subject message := by
    intro message
    rw [failureWarning, failureNode_eq, failureReport]
  cases outcome with
  | nothing => rfl
  | report r => rfl
  | otherValue kind => exact congrArg s.report.merge (hfailure _)
  | failure message => exact congrArg s.report.merge (hfailure _)

/-- A registration is found by its number, and not by its name, which others may share. -/
theorem find?_number {rs : List Registration} (h : (rs.map (·.number)).Nodup)
    {r : Registration} (hr : r ∈ rs) : (rs.find? fun x => x.number == r.number) = some r := by
  induction rs with
  | nil => cases hr
  | cons x rest ih =>
      rw [List.map_cons, List.nodup_cons] at h
      rcases List.mem_cons.mp hr with rfl | hr
      · simp
      · have hne : x.number ≠ r.number := fun heq =>
          h.1 (heq ▸ List.mem_map_of_mem hr)
        rw [List.find?_cons_of_neg (by simpa using hne), ih h.2 hr]

/-- The custom validators of the run have numbers of their own and only answer. -/
structure Answering (s : RunState) (respond : CustomValidator → Subject → Outcome) : Prop where
  nodup : (s.running.map (·.number)).Nodup
  answers : ∀ r ∈ s.running, r.validator.behaviour = .answer (respond r.validator)

namespace Answering

variable {respond : CustomValidator → Subject → Outcome} {r : Registration}

theorem of_running_eq {t : RunState} (h : s.Answering respond) (ht : t.running = s.running) :
    t.Answering respond := by
  refine ⟨?_, ?_⟩
  · rw [ht]
    exact h.nodup
  · rw [ht]
    exact h.answers

/-- Custom validators that only answer register no others. -/
theorem closed (h : s.Answering respond) : s.Closed := by
  intro r hr
  rw [h.answers r hr]
  rfl

/-- One that only answers does the same the next time. -/
theorem running_call (h : s.Answering respond) (number : Nat) (subject : Subject) :
    (s.call number subject).running = s.running := by
  have hsame : ∀ r ∈ s.running, settleOne number subject r = r := by
    intro r hr
    have hnext : r.validator.behaviour.next subject = r.validator.behaviour := by
      rw [h.answers r hr]
      rfl
    rw [settleOne, Registration.called, hnext]
    exact ite_self r
  rw [h.closed.running_call]
  exact (List.map_congr_left hsame).trans (List.map_id _)

/-- A call adds what its answer contributes, and that alone. -/
theorem report_call (h : s.Answering respond) (hr : r ∈ s.running) (subject : Subject) :
    (s.call r.number subject).report =
      s.report.merge ((respond r.validator subject).contribution r.name subject) := by
  simp only [call, find?_number h.nodup hr, h.answers r hr]
  exact report_absorb _ _ _ _

/-- Several calls add what their answers contribute, one after the other. -/
theorem callAll (h : s.Answering respond) (hr : r ∈ s.running) (subjects : List Subject) :
    (s.callAll r.number subjects).running = s.running ∧
      (s.callAll r.number subjects).report = (subjects.map fun subject =>
        (respond r.validator subject).contribution r.name subject).foldl .merge s.report := by
  induction subjects generalizing s with
  | nil => exact ⟨rfl, rfl⟩
  | cons subject rest ih =>
      have hrunning := h.running_call r.number subject
      -- failed or not, the call has left the list alone, and the next one finds what it needs
      obtain ⟨ihrunning, ihreport⟩ := ih (h.of_running_eq hrunning) (hrunning ▸ hr)
      refine ⟨ihrunning.trans hrunning, ?_⟩
      rw [List.map_cons, List.foldl_cons, ← h.report_call hr]
      exact ihreport

/-- The turns of custom validators that only answer add what their answers call for. -/
theorem report_foldl_turn (h : s.Answering respond) {rs : List Registration}
    (hrs : rs ⊆ s.running) : (rs.foldl (turn g) s).report =
      (rs.flatMap fun r => r.validator.contributions g (respond r.validator)).foldl .merge
        s.report := by
  induction rs generalizing s with
  | nil => rfl
  | cons r rest ih =>
      obtain ⟨hr, hrest⟩ := List.cons_subset.mp hrs
      have hrunning : (s.turn g r).running = s.running := (h.callAll hr _).1
      have hreport : (s.turn g r).report =
          (r.validator.contributions g (respond r.validator)).foldl .merge s.report :=
        (h.callAll hr _).2
      rw [List.foldl_cons, ih (h.of_running_eq hrunning) (hrunning ▸ hrest), List.flatMap_cons,
        List.foldl_append, hreport]

end Answering
end RunState

/-! ### Whole runs -/

namespace Validator

/-- A report without custom validators is what the passes find, with its validity decided. -/
theorem validate_eq_finalize (g : Graph) (o : Options) :
    g.validate o = (g.findings o).finalize := by
  rw [Graph.validate, RunResult.report, outcome_validate]

/-- A run of custom validators that only answer ends with the findings of the passes and then
what the answers call for. -/
theorem outcome_validate_answering {v : Validator} (hv : v.Numbered)
    {respond : CustomValidator → Subject → Outcome}
    (hrespond : ∀ c ∈ v.customValidators, c.behaviour = .answer (respond c))
    (g : Graph) (o : Options) (cancelled : Bool) :
    (v.validate g o .nothing cancelled).outcome =
      .ok ((v.customValidators.flatMap fun c => c.contributions g (respond c)).foldl .merge
        (g.findings o)).finalize := by
  have hreserve : ∀ c ∈ v.customValidators, RunState.reserve c.behaviour = 0 := by
    intro c hc
    rw [hrespond c hc]
    rfl
  obtain ⟨last, hstate, hruns, hlast⟩ := runs_of_reserve g o cancelled hreserve
  have hrunning := running_stagesDone v g o cancelled
  have hanswering : (v.stagesDone g o cancelled).Answering respond := by
    refine ⟨?_, ?_⟩
    · rw [hrunning]
      exact hv.nodup
    · rw [hrunning]
      exact List.forall_mem_map.mp hrespond
  have hreport := hanswering.report_foldl_turn (g := g) (List.Subset.refl _)
  rw [hrunning, ← hstate, report_stagesDone] at hreport
  rw [validate_of_runs hruns hlast]
  show Except.ok last.state.report.finalize = _
  rw [hreport, customValidators, List.flatMap_map]

/-- **Custom validators cannot disturb the report.** If the registered custom validators only
answer, each of the four lists of the report begins with what a run without them finds. Then
follows what their answers call for, in run order and for each validator one subject after the
other, whether calls before have failed or not. The graph is valid exactly if the list of
defects is empty. -/
theorem validate_answering (cs : List CustomValidator) (history : List Change) (g : Graph)
    (o : Options) (cancelled : Bool) (respond : CustomValidator → Subject → Outcome)
    (hrespond : ∀ c ∈ ((ofList cs).after history).customValidators,
      c.behaviour = .answer (respond c)) :
    let v := (ofList cs).after history
    let added := v.customValidators.flatMap fun c => c.contributions g (respond c)
    ∃ report, (v.validate g o .nothing cancelled).outcome = .ok report ∧
      report.errors = (g.validate o).errors ++ added.flatMap (·.errors) ∧
      report.warnings = (g.validate o).warnings ++ added.flatMap (·.warnings) ∧
      report.notes = (g.validate o).notes ++ added.flatMap (·.notes) ∧
      report.suggestions = (g.validate o).suggestions ++ added.flatMap (·.suggestions) ∧
      (report.valid = true ↔ report.errors = []) := by
  intro v added
  have hv : v.Numbered := by
    show ((ofList cs).after history).Numbered
    rw [after_ofList]
    exact numbered_after _
  refine ⟨_, outcome_validate_answering hv hrespond g o cancelled, ?_⟩
  rw [validate_eq_finalize]
  exact ⟨Report.foldl_merge_eq_append (·.errors) (fun _ _ => rfl) added _,
    Report.foldl_merge_eq_append (·.warnings) (fun _ _ => rfl) added _,
    Report.foldl_merge_eq_append (·.notes) (fun _ _ => rfl) added _,
    Report.foldl_merge_eq_append (·.suggestions) (fun _ _ => rfl) added _,
    List.isEmpty_iff⟩

/-- Custom validators of which one fails on every node and one answers with no report. -/
def troubled : List CustomValidator := [
  ⟨{ name := "odd" }, .answer fun _ => .otherValue "dict"⟩,
  ⟨{ name := "broken", priority := 2, scope := .node }, .answer fun _ => .failure "boom"⟩]

/-- To these comes one that runs between them, and one that is gone when the run begins. -/
def troubledHistory : List Change := [
  .register ⟨{ name := "gone", priority := 3 }, .answer fun _ => .failure "gone"⟩,
  .register ⟨{ name := "fine", priority := 1 }, .answer fun _ => .report {
    valid := false, notes := [{ code := "FINE", message := "done" }] }⟩,
  .unregister "gone"]

/-- A node with an id and one without. -/
def namedAndNameless : Graph where
  nodes := .ofList [("a", { id := "a", config := .empty }), ("b", { config := .empty })]
  connections := .empty

/-- The node without an id has a warning without an anchor, and the failures stop nothing. -/
theorem troubled_report :
    (∀ c ∈ ((ofList troubled).after troubledHistory).customValidators,
      c.behaviour = .answer fun subject =>
        match c.behaviour with
        | .answer respond => respond subject
        | _ => .nothing) ∧
    ∃ report, (((ofList troubled).after troubledHistory).validate namedAndNameless {}
        .nothing false).outcome = .ok report ∧
      report.warnings.map (fun w => (w.code, w.nodeId)) =
        (namedAndNameless.validate {}).warnings.map (fun w => (w.code, w.nodeId)) ++
          [("CUSTOM_VALIDATOR_ERROR", some "a"), ("CUSTOM_VALIDATOR_ERROR", none),
            ("CUSTOM_VALIDATOR_ERROR", none)] ∧
      report.notes =
        (namedAndNameless.validate {}).notes ++ [{ code := "FINE", message := "done" }] := by
  have hanswers : ∀ c ∈ ((ofList troubled).after troubledHistory).customValidators,
      c.behaviour = .answer fun subject =>
        match c.behaviour with
        | .answer respond => respond subject
        | _ => .nothing := by
    have hall : ((ofList troubled).after troubledHistory).customValidators = [
      ⟨{ name := "broken", priority := 2, scope := .node }, .answer fun _ => .failure "boom"⟩,
      ⟨{ name := "fine", priority := 1 }, .answer fun _ => .report {
        valid := false, notes := [{ code := "FINE", message := "done" }] }⟩,
      ⟨{ name := "odd" }, .answer fun _ => .otherValue "dict"⟩] := rfl
    rw [hall]
    simp only [List.forall_mem_cons, List.not_mem_nil, false_implies, implies_true, and_self]
  obtain ⟨report, houtcome, -, hwarnings, hnotes, -⟩ :=
    validate_answering troubled troubledHistory namedAndNameless {} false _ hanswers
  refine ⟨hanswers, report, houtcome, ?_, hnotes⟩
  rw [hwarnings, List.map_append]
  rfl

end Validator
end PlotGraph
