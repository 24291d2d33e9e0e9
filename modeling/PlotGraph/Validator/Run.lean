import PlotGraph.Validator.Registry
import PlotGraph.Validator.Stage

/-!
# Validation runs

A run takes the enabled stages in order, then the custom validators in run order, and
puts all findings into one report. Before every stage and before every custom validator it
looks at its cancellation token; a cancelled run ends there.

Custom validators may register and unregister others while the run goes on. The run keeps
its place in the list by index. What is registered enters the very list that the run goes
through, so that a validator put in before the one in hand moves it on and it is called
again; to unregister makes a new list, and the run goes on through the old one.

The run ends because no custom validator registers others for ever (`budget_call_le`).
-/

namespace PlotGraph

/-! ### The state of a run -/

/-- What a run looks at to see whether it is cancelled: nothing, the token at hand, or a
token that turns cancelled after a number of looks. -/
inductive Watch where
  | nothing
  | token
  | countdown (looks : Nat)
  deriving DecidableEq, Repr

/-- The state of a run. -/
structure RunState where
  report : Report := {}
  /-- What has been logged, in order. -/
  events : List Log.Event := []
  watch : Watch := .nothing
  /-- Whether the token at hand is cancelled. -/
  tokenCancelled : Bool := false
  validator : Validator := {}
  /-- The list the run goes through, where it is no longer that of the validator. -/
  detached : Option (List Registration) := none

/-- Where a run was cancelled, and its state there. -/
structure Interruption where
  stage : String
  state : RunState

namespace RunState

/-- The list of custom validators the run goes through. -/
def running (s : RunState) : List Registration := s.detached.getD s.validator.registrations

def logger : String := "storylogic.validation.validator"

def log (s : RunState) (es : List Log.Event) : RunState := { s with events := s.events ++ es }

def note (s : RunState) (level : Log.Level) (message : String)
    (fields : List (String × Value)) : RunState :=
  s.log [⟨logger, level, message, fields⟩]

def look (s : RunState) : Bool × RunState :=
  match s.watch with
  | .nothing => (false, s)
  | .token => (s.tokenCancelled, s)
  | .countdown 0 => (true, s)
  | .countdown (n + 1) => (false, { s with watch := .countdown n })

/-- Go on to a stage, unless the run is cancelled. -/
def checkpoint (s : RunState) (stage : String) : Except Interruption RunState :=
  match s.look with
  | (false, s) => .ok s
  | (true, s) => .error ⟨stage, s.note .info "logic_validation_cancelled" [("stage", .str stage)]⟩

/-! ### Stages -/

def runStage (s : RunState) (g : Graph) (o : Options) (stage : Stage) : RunState :=
  let found := stage.report g o
  let s := (s.log (stage.events g found)).note .debug "logic_validation_pass"
    [("stage", .str stage.name), countField "errors" found.errors.length,
     countField "warnings" found.warnings.length]
  { s with report := s.report.merge found }

def runStages (g : Graph) (o : Options) : List Stage → RunState → Except Interruption RunState
  | [], s => .ok s
  | stage :: rest, s => do runStages g o rest ((← s.checkpoint stage.name).runStage g o stage)

/-! ### Custom validators -/

def customStage (name : String) : String := "custom validator '" ++ name ++ "'"

def failureNode : Subject → Option String
  | .graph _ => none
  | .node n => anchor n.id

def failureWarning (name : String) (subject : Subject) (message : String) : Warning where
  code := "CUSTOM_VALIDATOR_ERROR"
  message := "Custom validator '" ++ name ++ "' failed: " ++ message
  plainMessage := "One of the extra checks could not finish and was skipped"
  nodeId := failureNode subject

/-- Take in what a custom validator answered. -/
def absorb (s : RunState) (name : String) (subject : Subject) (outcome : Outcome) : RunState :=
  match outcome.failure? with
  | none => { s with report := s.report.merge outcome.findings }
  | some message =>
    let s := s.note .warning "custom_validator_failed"
      [("validator", .str name),
       ("node_id", ((failureNode subject).map Value.str).getD .null),
       ("error", .str message)]
    { s with report := s.report.merge (.ofWarning (failureWarning name subject message)) }

/-- Do something that a custom validator does to its surroundings. -/
def perform (s : RunState) : Deed → RunState
  | .cancel => { s with tokenCancelled := true }
  | .unregister name =>
    { s with detached := some s.running, validator := s.validator.unregister name }

def performAll (s : RunState) (deeds : List Deed) : RunState := deeds.foldl perform s

def enlist (s : RunState) (c : CustomValidator) : RunState :=
  { s with validator := s.validator.register c }

/-- Do all that a custom validator does in a call, besides answering. -/
def act (s : RunState) : Behaviour → Subject → RunState
  | .answer _, _ => s
  | .always deeds _, subject => s.performAll (deeds subject)
  | .once deeds _ _, subject => s.performAll (deeds subject)
  | .register before card behaviour after _ _, subject =>
    ((s.performAll (before subject)).enlist ⟨card, behaviour⟩).performAll (after subject)
  | .choose test yes no, subject => if test subject then s.act yes subject else s.act no subject

/-- A registration after a call of the one with a number. -/
def settleOne (number : Nat) (subject : Subject) (r : Registration) : Registration :=
  if r.number = number then r.called subject else r

/-- Registrations after a call of the one with a number. -/
def settle (number : Nat) (subject : Subject) (rs : List Registration) : List Registration :=
  rs.map (settleOne number subject)

/-- Settle a registration wherever it stands. -/
def settleAll (s : RunState) (number : Nat) (subject : Subject) : RunState :=
  { s with
    validator :=
      { s.validator with registrations := settle number subject s.validator.registrations }
    detached := s.detached.map (settle number subject) }

/-- Call the custom validator with a number on a subject. -/
def call (s : RunState) (number : Nat) (subject : Subject) : RunState :=
  match s.running.find? fun r => r.number == number with
  | none => s
  | some r =>
    ((s.settleAll number subject).act r.validator.behaviour subject).absorb r.name subject
      (r.validator.behaviour.respond subject)

def callAll (s : RunState) (number : Nat) (subjects : List Subject) : RunState :=
  subjects.foldl (fun s subject => s.call number subject) s

/-- What a custom validator is called with: the graph, or every node in order. -/
def subjectsOf (g : Graph) : Scope → List Subject
  | .graph => [.graph g]
  | .node => g.nodes.values.map .node

/-! ### The end of a run -/

/-- How many registrations a behaviour can still lead to. -/
def reserve : Behaviour → Nat
  | .answer _ => 0
  | .always _ _ => 0
  | .once _ _ next => reserve next
  | .register _ _ behaviour _ _ next => reserve behaviour + 1 + reserve next
  | .choose _ yes no => max (reserve yes) (reserve no)

/-- How many of them a call can lead to: the one that it makes, and what this can lead to. -/
def granted : Behaviour → Subject → Nat
  | .answer _, _ => 0
  | .always _ _, _ => 0
  | .once _ _ _, _ => 0
  | .register _ _ behaviour _ _ _, _ => reserve behaviour + 1
  | .choose test yes no, subject => if test subject then granted yes subject else granted no subject

/-- What a call grants is taken off. -/
theorem granted_add_reserve_next_le (b : Behaviour) (subject : Subject) :
    granted b subject + reserve (b.next subject) ≤ reserve b := by
  induction b with
  | answer respond => exact Nat.le_refl _
  | always deeds respond => exact Nat.le_refl _
  | once deeds respond next _ => simp [granted, Behaviour.next, reserve]
  | register before card behaviour after respond next _ _ => exact Nat.le_refl _
  | choose test yes no ihYes ihNo =>
    rw [granted, Behaviour.next, reserve]
    split <;> omega

/-- What a registration can still come to. -/
def weight (r : Registration) : Nat := reserve r.validator.behaviour + 1

/-- What a list of registrations can still come to. -/
def budgetOf : List Registration → Nat
  | [] => 0
  | r :: rs => weight r + budgetOf rs

/-- What the list of the run can still come to. -/
def budget (s : RunState) : Nat := budgetOf s.running

theorem budgetOf_cons (r : Registration) (rs : List Registration) :
    budgetOf (r :: rs) = weight r + budgetOf rs := rfl

/-- Each registration comes to one at least. -/
theorem length_le_budgetOf (rs : List Registration) : rs.length ≤ budgetOf rs := by
  induction rs with
  | nil => simp
  | cons r rest ih =>
    rw [budgetOf_cons, weight, List.length_cons]
    omega

/-- One registration more comes to its own weight more. -/
theorem budgetOf_insertInOrder (new : Registration) (rs : List Registration) :
    budgetOf (Registration.insertInOrder new rs) = weight new + budgetOf rs := by
  induction rs with
  | nil => rfl
  | cons r rest ih =>
    simp only [Registration.insertInOrder]
    split
    · simp only [budgetOf_cons, ih]
      omega
    · rfl

/-- A call takes what it grants off the registration. -/
theorem granted_add_weight_called_le (r : Registration) (subject : Subject) :
    granted r.validator.behaviour subject + weight (r.called subject) ≤ weight r :=
  Nat.succ_le_succ (granted_add_reserve_next_le r.validator.behaviour subject)

/-- No call makes a registration come to more. -/
theorem weight_settleOne_le (number : Nat) (subject : Subject) (r : Registration) :
    weight (settleOne number subject r) ≤ weight r := by
  unfold settleOne
  split
  · exact Nat.le_trans (Nat.le_add_left _ _) (granted_add_weight_called_le r subject)
  · exact Nat.le_refl _

/-- No call makes those in the list come to more. -/
theorem budgetOf_settle_le (number : Nat) (subject : Subject) (rs : List Registration) :
    budgetOf (settle number subject rs) ≤ budgetOf rs := by
  induction rs with
  | nil => exact Nat.le_refl _
  | cons r rest ih =>
    have hr := weight_settleOne_le number subject r
    simp only [settle, List.map_cons, budgetOf_cons] at ih ⊢
    omega

/-- After a call of one of them, registrations can come to less, by what the call grants. -/
theorem granted_add_budgetOf_settle_le {rs : List Registration} {r : Registration}
    (hmem : r ∈ rs) (subject : Subject) :
    granted r.validator.behaviour subject + budgetOf (settle r.number subject rs) ≤
      budgetOf rs := by
  induction rs with
  | nil => cases hmem
  | cons x rest ih =>
    simp only [settle, List.map_cons, budgetOf_cons] at ih ⊢
    rcases List.mem_cons.mp hmem with rfl | hmem
    · have hr := granted_add_weight_called_le r subject
      have hrest := budgetOf_settle_le r.number subject rest
      simp only [settle] at hrest
      rw [settleOne, if_pos rfl]
      omega
    · have hx := weight_settleOne_le r.number subject x
      have := ih hmem
      omega

theorem running_absorb (s : RunState) (name : String) (subject : Subject) (outcome : Outcome) :
    (s.absorb name subject outcome).running = s.running := by
  simp only [absorb]
  split <;> rfl

/-- The list of the run is settled with the others. -/
theorem running_settleAll (s : RunState) (number : Nat) (subject : Subject) :
    (s.settleAll number subject).running = settle number subject s.running := by
  cases hdetached : s.detached with
  | none => simp [running, settleAll, hdetached]
  | some old => simp [running, settleAll, hdetached]

/-- To cancel a run and to unregister leave the list of the run alone. -/
theorem running_performAll (s : RunState) (deeds : List Deed) :
    (s.performAll deeds).running = s.running := by
  induction deeds generalizing s with
  | nil => rfl
  | cons deed rest ih =>
    show ((s.perform deed).performAll rest).running = s.running
    rw [ih]
    cases deed with
    | cancel => rfl
    | unregister name => rfl

/-- To register comes to no more than what is registered. -/
theorem budget_enlist_le (s : RunState) (c : CustomValidator) :
    (s.enlist c).budget ≤ s.budget + (reserve c.behaviour + 1) := by
  cases hdetached : s.detached with
  | none =>
    simp only [budget, running, enlist, hdetached, Option.getD_none, Validator.register,
      budgetOf_insertInOrder, weight]
    omega
  | some old => simp [budget, running, enlist, hdetached]

/-- What a custom validator does can come to as much as the call grants. -/
theorem budget_act_le (s : RunState) (b : Behaviour) (subject : Subject) :
    (s.act b subject).budget ≤ s.budget + granted b subject := by
  induction b with
  | answer respond => exact Nat.le_refl _
  | always deeds respond => simp [act, granted, budget, running_performAll]
  | once deeds respond next _ => simp [act, granted, budget, running_performAll]
  | register before card behaviour after respond next _ _ =>
    have henlist := budget_enlist_le (s.performAll (before subject)) ⟨card, behaviour⟩
    simp only [budget, running_performAll] at henlist
    simp only [act, granted, budget, running_performAll]
    exact henlist
  | choose test yes no ihYes ihNo =>
    rw [act, granted]
    split
    · exact ihYes
    · exact ihNo

/-- A call leaves no more to come than there was. -/
theorem budget_call_le (s : RunState) (number : Nat) (subject : Subject) :
    (s.call number subject).budget ≤ s.budget := by
  unfold call
  split
  · exact Nat.le_refl _
  · next r hr =>
    have hmem := List.mem_of_find?_eq_some hr
    obtain rfl : r.number = number := by simpa using List.find?_some hr
    have hsettle := granted_add_budgetOf_settle_le hmem subject
    have hact := budget_act_le (s.settleAll r.number subject) r.validator.behaviour subject
    rw [budget, running_absorb]
    simp only [budget, running_settleAll] at hact ⊢
    omega

/-- Several calls leave no more to come than there was. -/
theorem budget_callAll_le (s : RunState) (number : Nat) (subjects : List Subject) :
    (s.callAll number subjects).budget ≤ s.budget := by
  induction subjects generalizing s with
  | nil => exact Nat.le_refl _
  | cons subject rest ih => exact Nat.le_trans (ih _) (budget_call_le s number subject)

theorem running_look (s : RunState) : s.look.2.running = s.running := by
  unfold look
  split <;> rfl

/-- A checkpoint leaves the list of the run alone. -/
theorem running_of_checkpoint {s t : RunState} {stage : String}
    (h : s.checkpoint stage = .ok t) : t.running = s.running := by
  rw [← running_look s]
  simp only [checkpoint] at h
  split at h
  · next heq => rw [heq]; cases h; rfl
  · cases h

def runCustom (g : Graph) (index : Nat) (s : RunState) : Except Interruption RunState :=
  if h : index < s.running.length then
    let r := s.running[index]
    match hc : s.checkpoint (customStage r.name) with
    | .error interruption => .error interruption
    | .ok s' =>
      runCustom g (index + 1) (s'.callAll r.number (subjectsOf g r.validator.card.scope))
  else .ok s
termination_by s.budget - index
decreasing_by
  have h₁ := budget_callAll_le s' s.running[index].number
    (subjectsOf g s.running[index].validator.card.scope)
  have h₂ : s'.budget = s.budget := by simp [budget, running_of_checkpoint hc]
  have h₃ : s.running.length ≤ s.budget := length_le_budgetOf s.running
  omega

/-! ### Whole runs -/

/-- Decide validity, and log what was found. -/
def finish (s : RunState) : RunState :=
  let report := s.report.finalize
  { s with report := report }.note .info "logic_validation_complete"
    [("valid", .bool report.valid), countField "errors" report.errors.length,
     countField "warnings" report.warnings.length, countField "info" report.notes.length,
     countField "suggestions" report.suggestions.length]

def runAll (s : RunState) (g : Graph) (o : Options) : Except Interruption RunState := do
  let s := s.note .debug "logic_validation_started"
    [countField "nodes" g.nodes.size, countField "connections" g.connections.size]
  let s ← runStages g o (Stage.enabled o) s
  let s ← runCustom g 0 s
  return s.finish

end RunState

/-- A run that was cancelled: the graph, and what was about to run. -/
structure Cancelled where
  graphId : String
  stage : String := ""
  deriving DecidableEq, Repr

def Cancelled.message (c : Cancelled) : String :=
  "Validation of graph '" ++ (if c.graphId.isEmpty then "?" else c.graphId) ++ "' was cancelled"
    ++ (if c.stage.isEmpty then "" else " before " ++ c.stage)

/-- What a run leaves behind. -/
structure RunResult where
  outcome : Except Cancelled Report
  events : List Log.Event
  validator : Validator
  tokenCancelled : Bool

def RunState.result (s : RunState) (outcome : Except Cancelled Report) : RunResult where
  outcome := outcome
  events := s.events
  validator := s.validator
  tokenCancelled := s.tokenCancelled

namespace Validator

/-- Validate a graph. -/
def validate (v : Validator) (g : Graph) (o : Options) (watch : Watch) (tokenCancelled : Bool) :
    RunResult :=
  let start : RunState := { validator := v, watch := watch, tokenCancelled := tokenCancelled }
  match start.runAll g o with
  | .ok s => s.result (.ok s.report)
  | .error i => i.state.result (.error ⟨g.id, i.stage⟩)

/-- Validate a graph under the options that the fields of an object give. No run begins with
options that are refused. -/
def validateFields (v : Validator) (g : Graph) (fields : List (String × Value)) (watch : Watch)
    (tokenCancelled : Bool) : Except OptionError RunResult := do
  return v.validate g (← Options.ofFields fields) watch tokenCancelled

end Validator

/-- The report of a run; empty if the run was cancelled. -/
def RunResult.report (r : RunResult) : Report :=
  match r.outcome with
  | .ok report => report
  | .error _ => {}

/-- The report on a graph without custom validators and without cancellation. -/
def Graph.validate (g : Graph) (o : Options) : Report :=
  (Validator.validate {} g o .nothing false).report

end PlotGraph
