import PlotGraph.Proofs.Report
import PlotGraph.Validator.Run

/-!
# A run, entry by entry

A run goes through its entries: the enabled stages, and then the custom validators it comes to.
`Progress` is how far it has come, `Progress.next?` the entry it comes to next, and
`Progress.Runs` says that it has gone through some entries. None of them looks at a token.

What a token does to a run is said in terms of these entries. A run that watches nothing goes
through all of them; one whose token turns cancelled after some looks goes through as many
entries, and ends before the next one if there is one.

Without custom validators the entries are the enabled stages, and the run ends with what they
find, its validity decided (`Validator.outcome_validate`).
-/

namespace PlotGraph

/-- What the enabled passes find in a graph. -/
def Graph.findings (g : Graph) (o : Options) : Report :=
  .concat ((Stage.enabled o).map (·.report g o))

/-! ### Stages that run -/

namespace Stage

theorem mem_all (stage : Stage) : stage ∈ all := by
  cases stage <;> decide

/-- The stages that run are those that are enabled. -/
theorem mem_enabled {o : Options} {stage : Stage} :
    stage ∈ enabled o ↔ stage.isEnabled o = true := by
  rw [enabled, List.mem_filter]
  exact and_iff_right (mem_all stage)

end Stage

namespace RunState

variable {g : Graph} {o : Options}

/-- Stages merge what they find into the report, one after the other. -/
theorem report_foldl_runStage (stages : List Stage) (s : RunState) :
    (stages.foldl (fun s stage => s.runStage g o stage) s).report =
      (stages.map (·.report g o)).foldl Report.merge s.report := by
  induction stages generalizing s with
  | nil => rfl
  | cons stage rest ih =>
      rw [List.foldl_cons, ih, List.map_cons, List.foldl_cons]
      rfl

/-- Stages leave the custom validators alone. -/
theorem running_foldl_runStage (stages : List Stage) (s : RunState) :
    (stages.foldl (fun s stage => s.runStage g o stage) s).running = s.running := by
  induction stages generalizing s with
  | nil => rfl
  | cons stage rest ih =>
      rw [List.foldl_cons, ih]
      rfl

/-! ### Another token -/

/-- The same state with another thing to watch. -/
def watching (s : RunState) (w : Watch) : RunState := { s with watch := w }

@[simp] theorem running_watching (s : RunState) (w : Watch) :
    (s.watching w).running = s.running := rfl

theorem absorb_watching (s : RunState) (w : Watch) (name : String) (subject : Subject)
    (outcome : Outcome) :
    (s.watching w).absorb name subject outcome =
      (s.absorb name subject outcome).watching w := by
  unfold absorb
  split
  · rfl
  · rfl

/-- What is watched plays no part in what a custom validator does. -/
theorem performAll_watching (s : RunState) (w : Watch) (deeds : List Deed) :
    (s.watching w).performAll deeds = (s.performAll deeds).watching w := by
  induction deeds generalizing s with
  | nil => rfl
  | cons deed rest ih =>
      show ((s.watching w).perform deed).performAll rest = _
      cases deed with
      | cancel => exact ih (s.perform .cancel)
      | unregister name => exact ih (s.perform (.unregister name))

theorem act_watching (s : RunState) (w : Watch) (b : Behaviour) (subject : Subject) :
    (s.watching w).act b subject = (s.act b subject).watching w := by
  induction b with
  | answer respond => rfl
  | always deeds respond => exact performAll_watching s w _
  | once deeds respond next _ => exact performAll_watching s w _
  | register before card behaviour after respond next _ _ =>
      rw [act, performAll_watching]
      exact performAll_watching ((s.performAll (before subject)).enlist ⟨card, behaviour⟩) w _
  | choose test yes no ihYes ihNo =>
      rw [act, act]
      split
      · exact ihYes
      · exact ihNo

/-- What is watched plays no part in a call. -/
theorem call_watching (s : RunState) (w : Watch) (number : Nat) (subject : Subject) :
    (s.watching w).call number subject = (s.call number subject).watching w := by
  unfold call
  rw [running_watching]
  split
  · rfl
  · next r _ =>
      show (((s.settleAll number subject).watching w).act _ subject).absorb _ subject _ = _
      rw [act_watching, absorb_watching]

@[simp] theorem callAll_watching (s : RunState) (w : Watch) (number : Nat)
    (subjects : List Subject) :
    (s.watching w).callAll number subjects = (s.callAll number subjects).watching w := by
  induction subjects generalizing s with
  | nil => rfl
  | cons subject rest ih =>
      show ((s.watching w).call number subject).callAll number rest = _
      rw [call_watching, ih]
      rfl

/-- To go on past a checkpoint changes nothing but what is watched. -/
theorem eq_watching_of_checkpoint {s t : RunState} {stage : String}
    (h : s.checkpoint stage = .ok t) : t = s.watching t.watch := by
  unfold checkpoint look at h
  split at h
  · next heq =>
      cases h
      split at heq
      all_goals
        obtain ⟨-, rfl⟩ := Prod.mk.inj heq
        rfl
  · cases h

/-! ### The turn of a custom validator -/

/-- Call a custom validator on all its subjects. -/
def turn (g : Graph) (s : RunState) (r : Registration) : RunState :=
  s.callAll r.number (subjectsOf g r.validator.card.scope)

/-- What is watched plays no part in a turn. -/
theorem turn_watching (s : RunState) (w : Watch) (r : Registration) :
    (s.watching w).turn g r = (s.turn g r).watching w :=
  callAll_watching s w _ _

/-- A turn leaves no more to come than there was. -/
theorem budget_turn_le (s : RunState) (r : Registration) : (s.turn g r).budget ≤ s.budget :=
  budget_callAll_le s _ _

end RunState

/-! ### Custom validators that register no others -/

namespace Registration

/-- A registration, with what the custom validator does left aside. -/
def bare (r : Registration) : Registration :=
  { r with validator := { r.validator with behaviour := .answer fun _ => .nothing } }

@[simp] theorem number_bare (r : Registration) : r.bare.number = r.number := rfl

@[simp] theorem name_bare (r : Registration) : r.bare.name = r.name := rfl

@[simp] theorem priority_bare (r : Registration) : r.bare.priority = r.priority := rfl

@[simp] theorem card_bare (r : Registration) : r.bare.validator.card = r.validator.card := rfl

@[simp] theorem number_called (r : Registration) (subject : Subject) :
    (r.called subject).number = r.number := rfl

@[simp] theorem name_called (r : Registration) (subject : Subject) :
    (r.called subject).name = r.name := rfl

/-- A call changes nothing of a registration but what the custom validator does next. -/
@[simp] theorem bare_called (r : Registration) (subject : Subject) :
    (r.called subject).bare = r.bare := rfl

theorem bare_settleOne (number : Nat) (subject : Subject) (r : Registration) :
    (RunState.settleOne number subject r).bare = r.bare := by
  unfold RunState.settleOne
  split
  · rfl
  · rfl

/-- That left aside, a call changes nothing in a list of registrations. -/
theorem map_bare_settle (number : Nat) (subject : Subject) (rs : List Registration) :
    (RunState.settle number subject rs).map bare = rs.map bare := by
  rw [RunState.settle, List.map_map]
  exact List.map_congr_left fun r _ => bare_settleOne number subject r

end Registration

namespace RunState

variable {g : Graph} {s : RunState} {r : Registration}

/-- The list that a run goes through, with what its members do left aside. -/
def roster (s : RunState) : List Registration := s.running.map Registration.bare

theorem mem_roster_of_mem (h : r ∈ s.running) : r.bare ∈ s.roster := List.mem_map_of_mem h

theorem roster_getElem? {i : Nat} (h : s.running[i]? = some r) :
    s.roster[i]? = some r.bare := by
  rw [roster, List.getElem?_map, h]
  rfl

/-- The roster has the numbers of the list. -/
theorem map_number_roster (s : RunState) :
    s.roster.map (·.number) = s.running.map (·.number) := by
  rw [roster, List.map_map]
  rfl

theorem length_roster (s : RunState) : s.roster.length = s.running.length := List.length_map _

/-- In a turn it does not matter what the registration says of the behaviour: the run finds out
itself. -/
theorem turn_bare (g : Graph) (s : RunState) (r : Registration) : s.turn g r.bare = s.turn g r := rfl

/-- None of the custom validators in the list of the run can register another one. -/
def Closed (s : RunState) : Prop := ∀ r ∈ s.running, reserve r.validator.behaviour = 0

/-- What a custom validator does leaves the list alone if it can register no other. -/
theorem running_act_of_reserve {b : Behaviour} (h : reserve b = 0) (s : RunState)
    (subject : Subject) : (s.act b subject).running = s.running := by
  induction b with
  | answer respond => rfl
  | always deeds respond => exact running_performAll s _
  | once deeds respond next _ => exact running_performAll s _
  | register before card behaviour after respond next _ _ => simp [reserve] at h
  | choose test yes no ihYes ihNo =>
      obtain ⟨hyes, hno⟩ := Nat.max_eq_zero_iff.mp h
      rw [act]
      split
      · exact ihYes hyes
      · exact ihNo hno

namespace Closed

/-- A call changes nothing in the list of the run but what the one that is called does next. -/
theorem running_call (h : s.Closed) (number : Nat) (subject : Subject) :
    (s.call number subject).running = settle number subject s.running := by
  unfold call
  split
  · next hnone =>
      have hother : ∀ r ∈ s.running, settleOne number subject r = r := by
        intro r hr
        have hne := List.find?_eq_none.mp hnone r hr
        exact if_neg (by simpa using hne)
      exact ((List.map_congr_left hother).trans (List.map_id _)).symm
  · next r hfind =>
      have hr := h r (List.mem_of_find?_eq_some hfind)
      rw [running_absorb, running_act_of_reserve hr, running_settleAll]

/-- A call does not make any of them register another one. -/
theorem call (h : s.Closed) (number : Nat) (subject : Subject) :
    (s.call number subject).Closed := by
  unfold Closed
  rw [h.running_call, settle, List.forall_mem_map]
  intro r hr
  have hweight := weight_settleOne_le number subject r
  have hreserve := h r hr
  simp only [weight] at hweight
  omega

/-- Several calls leave the roster as it is. -/
theorem callAll (h : s.Closed) (number : Nat) (subjects : List Subject) :
    (s.callAll number subjects).Closed ∧ (s.callAll number subjects).roster = s.roster := by
  induction subjects generalizing s with
  | nil => exact ⟨h, rfl⟩
  | cons subject rest ih =>
      obtain ⟨hclosed, hroster⟩ := ih (h.call number subject)
      refine ⟨hclosed, hroster.trans ?_⟩
      rw [roster, h.running_call, Registration.map_bare_settle, roster]

/-- A turn leaves the roster as it is. -/
theorem turn (h : s.Closed) (r : Registration) :
    (s.turn g r).Closed ∧ (s.turn g r).roster = s.roster := h.callAll r.number _

/-- So do several turns. -/
theorem foldl_turn (h : s.Closed) (rs : List Registration) :
    (rs.foldl (RunState.turn g) s).Closed ∧ (rs.foldl (RunState.turn g) s).roster = s.roster := by
  induction rs generalizing s with
  | nil => exact ⟨h, rfl⟩
  | cons r rest ih =>
      obtain ⟨hclosed, hroster⟩ := h.turn (g := g) r
      obtain ⟨hclosed', hroster'⟩ := ih hclosed
      exact ⟨hclosed', hroster'.trans hroster⟩

end Closed
end RunState

/-! ### Progress -/

/-- How far a run has come: its state, the stages still before it, and the place in the list of
custom validators from which it goes on after them. -/
structure Progress where
  state : RunState
  stages : List Stage := []
  index : Nat := 0

namespace Progress

variable {g : Graph} {o : Options}

/-- The entry that a run comes to next, and how far it has come when that entry is done. -/
def next? (g : Graph) (o : Options) (p : Progress) : Option (String × Progress) :=
  match p.stages with
  | stage :: rest =>
    some (stage.name, { p with state := p.state.runStage g o stage, stages := rest })
  | [] =>
    p.state.running[p.index]?.map fun r =>
      (RunState.customStage r.name,
        { p with state := p.state.turn g r, index := p.index + 1 })

/-- The rest of a run. -/
def run (g : Graph) (o : Options) (p : Progress) : Except Interruption RunState := do
  RunState.runCustom g p.index (← RunState.runStages g o p.stages p.state)

/-- The same progress with another thing to watch. -/
def watching (p : Progress) (w : Watch) : Progress := { p with state := p.state.watching w }

/-- What comes next does not depend on what is watched. -/
theorem next?_watching (p : Progress) (w : Watch) :
    (p.watching w).next? g o = (p.next? g o).map fun e => (e.1, e.2.watching w) := by
  obtain ⟨s, stages, index⟩ := p
  cases stages with
  | cons stage rest => rfl
  | nil =>
      simp only [watching, next?, RunState.running_watching, RunState.turn_watching,
        Option.map_map]
      rfl

/-- Behind the stages nothing comes next exactly if the place is past the end of the list. -/
theorem next?_eq_none_iff {s : RunState} {index : Nat} :
    next? g o ⟨s, [], index⟩ = none ↔ s.running.length ≤ index := by
  simp only [next?, Option.map_eq_none_iff, List.getElem?_eq_none_iff]

/-- Where nothing comes next, all stages have run and the place is past the end of the list. -/
theorem done_of_next?_eq_none {p : Progress} (h : p.next? g o = none) :
    p.stages = [] ∧ p.state.running.length ≤ p.index := by
  obtain ⟨s, stages, index⟩ := p
  cases stages with
  | cons stage rest => cases h
  | nil => exact ⟨rfl, next?_eq_none_iff.mp h⟩

/-- Where nothing comes next, the run is over. -/
theorem run_of_next?_eq_none {p : Progress} (h : p.next? g o = none) :
    p.run g o = .ok p.state := by
  obtain ⟨s, stages, index⟩ := p
  cases stages with
  | cons stage rest => cases h
  | nil =>
      show RunState.runCustom g index s = .ok s
      rw [RunState.runCustom, dif_neg (Nat.not_lt.mpr (next?_eq_none_iff.mp h))]

/-- A run looks at what it watches and then does its next entry. -/
theorem run_of_next? {p q : Progress} {name : String} (h : p.next? g o = some (name, q)) :
    p.run g o = (p.state.checkpoint name).bind fun s => (q.watching s.watch).run g o := by
  obtain ⟨s, stages, index⟩ := p
  cases stages with
  | cons stage rest =>
      cases h
      show ((s.checkpoint stage.name).bind fun t =>
        RunState.runStages g o rest (t.runStage g o stage)).bind _ = _
      cases hc : s.checkpoint stage.name with
      | error i => rfl
      | ok t =>
          show (RunState.runStages g o rest (t.runStage g o stage)).bind _ = _
          rw [RunState.eq_watching_of_checkpoint hc]
          rfl
  | nil =>
      obtain ⟨r, hr, heq⟩ := Option.map_eq_some_iff.mp h
      obtain ⟨hlt, rfl⟩ := List.getElem?_eq_some_iff.mp hr
      cases heq
      show RunState.runCustom g index s = _
      rw [RunState.runCustom, dif_pos hlt]
      -- past the checkpoint the state is the same but for the token, so that the validator that
      -- stands at the index is the same too
      simp only
      split
      · next i hc =>
          rw [hc]
          rfl
      · next t hc =>
          rw [hc, RunState.eq_watching_of_checkpoint hc]
          exact congrArg _ (RunState.turn_watching s _ _)

/-- Where nothing comes next, the run is over whatever it watches. -/
theorem run_watching_of_next?_eq_none {p : Progress} (h : p.next? g o = none) (w : Watch) :
    (p.watching w).run g o = .ok (p.state.watching w) := by
  have hnext : (p.watching w).next? g o = none := by
    rw [next?_watching, h]
    rfl
  exact run_of_next?_eq_none hnext

/-- A run that watches something looks at it and then does its next entry. -/
theorem run_watching_of_next? {p q : Progress} {name : String}
    (h : p.next? g o = some (name, q)) (w : Watch) :
    (p.watching w).run g o =
      ((p.state.watching w).checkpoint name).bind fun s => (q.watching s.watch).run g o := by
  have hnext : (p.watching w).next? g o = some (name, q.watching w) := by
    rw [next?_watching, h]
    rfl
  rw [run_of_next? hnext]
  rfl

/-- What a run can still come to. -/
def left (p : Progress) : Nat := p.stages.length + (p.state.budget - p.index)

/-- After each entry there is less that can still come. -/
theorem left_lt_of_next? {p q : Progress} {name : String} (h : p.next? g o = some (name, q)) :
    q.left < p.left := by
  obtain ⟨s, stages, index⟩ := p
  cases stages with
  | cons stage rest =>
      cases h
      show rest.length + (s.budget - index) < rest.length + 1 + (s.budget - index)
      omega
  | nil =>
      obtain ⟨r, hr, heq⟩ := Option.map_eq_some_iff.mp h
      have hlt : index < s.running.length := (List.getElem?_eq_some_iff.mp hr).1
      have hlength : s.running.length ≤ s.budget := RunState.length_le_budgetOf s.running
      have hturn : (s.turn g r).budget ≤ s.budget := RunState.budget_turn_le s r
      cases heq
      show 0 + ((s.turn g r).budget - (index + 1)) < 0 + (s.budget - index)
      omega

/-! ### Going through entries -/

/-- A run goes through some entries, with no token to stop it. -/
inductive Runs (g : Graph) (o : Options) : List String → Progress → Progress → Prop
  | refl (p : Progress) : Runs g o [] p p
  | step {name : String} {entries : List String} {p q r : Progress} :
      p.next? g o = some (name, q) → Runs g o entries q r → Runs g o (name :: entries) p r

/-- Every run comes to an end. -/
theorem exists_runs (g : Graph) (o : Options) (p : Progress) :
    ∃ entries last, Runs g o entries p last ∧ last.next? g o = none := by
  -- custom validators may register others on the way, so that the entries are not known
  -- beforehand: what decreases is the number of those that could still come
  induction hleft : p.left using Nat.strongRecOn generalizing p with
  | _ n ih =>
      cases hnext : p.next? g o with
      | none => exact ⟨[], p, .refl p, hnext⟩
      | some e =>
          obtain ⟨name, q⟩ := e
          obtain ⟨entries, last, hruns, hlast⟩ := ih q.left (hleft ▸ left_lt_of_next? hnext) q rfl
          exact ⟨name :: entries, last, .step hnext hruns, hlast⟩

/-- A run goes through its stages in order. -/
theorem runs_stages (stages : List Stage) (s : RunState) (index : Nat) :
    Runs g o (stages.map Stage.name) ⟨s, stages, index⟩
      ⟨stages.foldl (fun s stage => s.runStage g o stage) s, [], index⟩ := by
  induction stages generalizing s with
  | nil => exact .refl _
  | cons stage rest ih => exact .step rfl (ih (s.runStage g o stage))

/-- While none of the custom validators can register another one, a run goes through those
from its place in the list on, each of them once. -/
theorem runs_customValidators (g : Graph) (o : Options) {s : RunState}
    {rs : List Registration} {index : Nat} (h : s.Closed)
    (hrs : s.roster.drop index = rs.map Registration.bare) :
    Runs g o (rs.map fun r => RunState.customStage r.name) ⟨s, [], index⟩
      ⟨rs.foldl (RunState.turn g) s, [], index + rs.length⟩ := by
  induction rs generalizing s index with
  | nil => exact .refl _
  | cons r rest ih =>
      rw [List.map_cons] at hrs
      have hr : s.roster[index]? = some r.bare := by
        rw [← List.head?_drop, hrs, List.head?_cons]
      -- at its place stands the registration itself, whatever it does by now
      rw [RunState.roster, List.getElem?_map] at hr
      obtain ⟨x, hx, hbare⟩ := Option.map_eq_some_iff.mp hr
      have hname : x.name = r.name := by
        rw [← x.name_bare, hbare, r.name_bare]
      have hturn : s.turn g x = s.turn g r := by
        rw [← RunState.turn_bare, hbare, RunState.turn_bare]
      obtain ⟨hclosed, hroster⟩ := h.turn (g := g) r
      have hrest : (s.turn g r).roster.drop (index + 1) = rest.map Registration.bare := by
        rw [hroster, ← List.tail_drop, hrs, List.tail_cons]
      have hnext : next? g o ⟨s, [], index⟩ =
          some (RunState.customStage r.name, ⟨s.turn g r, [], index + 1⟩) := by
        show s.running[index]?.map _ = _
        rw [hx, Option.map_some, hname, hturn]
      have hruns := ih hclosed hrest
      rw [Nat.add_right_comm] at hruns
      exact .step hnext hruns

namespace Runs

variable {p q r : Progress} {entries entries' : List String}

/-- A run goes through some entries and then through others. -/
theorem trans (h : Runs g o entries p q) (h' : Runs g o entries' q r) :
    Runs g o (entries ++ entries') p r := by
  induction h with
  | refl p => exact h'
  | step hnext _ ih => exact .step hnext (ih h')

/-- Before each of its entries a run has gone through those before. -/
theorem exists_next? (h : Runs g o entries p r) {k : Nat} (hk : k < entries.length) :
    ∃ q q', Runs g o (entries.take k) p q ∧ q.next? g o = some (entries[k], q') := by
  induction h generalizing k with
  | refl p => cases hk
  | @step name rest p q r hnext _ ih =>
      cases k with
      | zero => exact ⟨p, q, .refl p, hnext⟩
      | succ k =>
          obtain ⟨t, t', hruns, ht⟩ := ih (Nat.lt_of_succ_lt_succ hk)
          exact ⟨t, t', .step hnext hruns, ht⟩

/-- A run that watches nothing goes on as from where its entries lead. -/
theorem run_unwatched (h : Runs g o entries p q) :
    (p.watching .nothing).run g o = (q.watching .nothing).run g o := by
  induction h with
  | refl p => rfl
  | step hnext _ ih =>
      rw [run_watching_of_next? hnext]
      exact ih

/-- A run goes through as many entries as its token leaves it looks. -/
theorem run_countdown (h : Runs g o entries p q) (k : Nat) :
    (p.watching (.countdown (entries.length + k))).run g o =
      (q.watching (.countdown k)).run g o := by
  induction h with
  | refl p => rw [List.length_nil, Nat.zero_add]
  | step hnext _ ih =>
      rw [List.length_cons, Nat.add_right_comm, run_watching_of_next? hnext]
      exact ih

/-- A run whose token has no look left ends before its next entry. -/
theorem run_interrupted (h : Runs g o entries p q) {name : String}
    (hnext : q.next? g o = some (name, r)) :
    (p.watching (.countdown entries.length)).run g o =
      .error ⟨name, (q.state.watching (.countdown 0)).note .info "logic_validation_cancelled"
        [("stage", .str name)]⟩ := by
  have hrun := h.run_countdown 0
  rw [Nat.add_zero, run_watching_of_next? hnext] at hrun
  exact hrun

end Runs

end Progress

/-! ### Whole runs -/

namespace Validator

variable {v : Validator} {g : Graph} {o : Options} {cancelled : Bool}

/-- A run before its first entry. -/
def start (v : Validator) (g : Graph) (o : Options) (cancelled : Bool) : Progress where
  state := ({ validator := v, tokenCancelled := cancelled } : RunState).note .debug
    "logic_validation_started"
    [countField "nodes" g.nodes.size, countField "connections" g.connections.size]
  stages := Stage.enabled o

/-- A run that has gone through its stages. -/
def stagesDone (v : Validator) (g : Graph) (o : Options) (cancelled : Bool) : RunState :=
  (Stage.enabled o).foldl (fun s stage => s.runStage g o stage) (v.start g o cancelled).state

/-- A run begins with the enabled stages. -/
theorem runs_enabled (v : Validator) (g : Graph) (o : Options) (cancelled : Bool) :
    Progress.Runs g o ((Stage.enabled o).map Stage.name) (v.start g o cancelled)
      ⟨v.stagesDone g o cancelled, [], 0⟩ :=
  Progress.runs_stages (Stage.enabled o) _ 0

/-- When the stages have run, the list of the run is that of the validator. -/
theorem running_stagesDone (v : Validator) (g : Graph) (o : Options) (cancelled : Bool) :
    (v.stagesDone g o cancelled).running = v.registrations := by
  rw [stagesDone, RunState.running_foldl_runStage]
  rfl

/-- While none of its custom validators can register another one, a run goes through those that
were registered when it began, in run order. -/
theorem runs_of_reserve (g : Graph) (o : Options) (cancelled : Bool)
    (h : ∀ c ∈ v.customValidators, RunState.reserve c.behaviour = 0) :
    ∃ last, last.state = v.registrations.foldl (RunState.turn g) (v.stagesDone g o cancelled) ∧
      Progress.Runs g o ((Stage.enabled o).map Stage.name ++
        v.customValidators.map fun c => RunState.customStage c.card.name)
        (v.start g o cancelled) last ∧ last.next? g o = none := by
  have hrunning := running_stagesDone v g o cancelled
  have hclosed : (v.stagesDone g o cancelled).Closed := by
    rw [RunState.Closed, hrunning]
    exact List.forall_mem_map.mp h
  have hroster : (v.stagesDone g o cancelled).roster = v.registrations.map Registration.bare := by
    rw [RunState.roster, hrunning]
  have hcustom := Progress.runs_customValidators g o hclosed
    (show (v.stagesDone g o cancelled).roster.drop 0 = _ from hroster)
  have hnames : v.customValidators.map (fun c => RunState.customStage c.card.name) =
      v.registrations.map fun r => RunState.customStage r.name := by
    rw [customValidators, List.map_map]
    rfl
  refine ⟨_, rfl, hnames ▸ (runs_enabled v g o cancelled).trans hcustom, ?_⟩
  rw [Progress.next?_eq_none_iff, ← RunState.length_roster,
    (hclosed.foldl_turn v.registrations).2, hroster, List.length_map]
  exact Nat.le_add_left _ 0

/-- What a run in this state leaves behind when there is nothing more to do. -/
def ending (s : RunState) : RunResult := s.finish.result (.ok s.report.finalize)

/-- What a run of a graph leaves behind that is cancelled before an entry. -/
def cancelledBefore (g : Graph) (name : String) (s : RunState) : RunResult :=
  (s.note .info "logic_validation_cancelled" [("stage", .str name)]).result (.error ⟨g.id, name⟩)

/-- To validate a graph is to run from before the first entry. -/
theorem validate_eq (watch : Watch) : v.validate g o watch cancelled =
    match ((v.start g o cancelled).watching watch).run g o with
    | .ok s => ending s
    | .error i => i.state.result (.error ⟨g.id, i.stage⟩) := by
  have hall : RunState.runAll ⟨{}, [], watch, cancelled, v, none⟩ g o =
      (((v.start g o cancelled).watching watch).run g o).map RunState.finish := by
    let s := (v.start g o cancelled).state.watching watch
    show (RunState.runStages g o (Stage.enabled o) s).bind
        (fun t => (RunState.runCustom g 0 t).bind fun t => .ok t.finish) =
      ((RunState.runStages g o (Stage.enabled o) s).bind (RunState.runCustom g 0)).map
        RunState.finish
    cases RunState.runStages g o (Stage.enabled o) s with
    | error i => rfl
    | ok t =>
        show (RunState.runCustom g 0 t).bind _ = (RunState.runCustom g 0 t).map _
        cases RunState.runCustom g 0 t with
        | error i => rfl
        | ok t => rfl
  unfold validate
  simp only [hall]
  cases ((v.start g o cancelled).watching watch).run g o with
  | error i => rfl
  | ok s => rfl

section Runs

variable {entries : List String} {reached next : Progress}

/-- A run that watches nothing ends in the state in which nothing comes next. -/
theorem validate_of_runs (h : Progress.Runs g o entries (v.start g o cancelled) reached)
    (hlast : reached.next? g o = none) :
    v.validate g o .nothing cancelled = ending reached.state := by
  rw [validate_eq, h.run_unwatched, Progress.run_watching_of_next?_eq_none hlast]
  rfl

/-- A token that stays uncancelled for as many looks as there are entries might as well be
missing. -/
theorem validate_countdown_of_runs (h : Progress.Runs g o entries (v.start g o cancelled) reached)
    (hlast : reached.next? g o = none) {k : Nat} (hk : entries.length ≤ k) :
    v.validate g o (.countdown k) cancelled = ending reached.state := by
  obtain ⟨rest, rfl⟩ := Nat.exists_eq_add_of_le hk
  rw [validate_eq, h.run_countdown, Progress.run_watching_of_next?_eq_none hlast]
  rfl

/-- A run whose token turns cancelled earlier ends before the entry it has come to. -/
theorem validate_countdown_of_next? (h : Progress.Runs g o entries (v.start g o cancelled) reached)
    {name : String} (hnext : reached.next? g o = some (name, next)) :
    v.validate g o (.countdown entries.length) cancelled =
      cancelledBefore g name reached.state := by
  rw [validate_eq, h.run_interrupted hnext]
  rfl

end Runs

/-- When the stages have run, the report holds what the enabled passes find. -/
theorem report_stagesDone (v : Validator) (g : Graph) (o : Options) (cancelled : Bool) :
    (v.stagesDone g o cancelled).report = g.findings o :=
  RunState.report_foldl_runStage (Stage.enabled o) _

/-- Without custom validators and without a token, a run ends with the findings of the
enabled passes. -/
theorem outcome_validate (n : Nat) (g : Graph) (o : Options) (cancelled : Bool) :
    (Validator.validate { next := n } g o .nothing cancelled).outcome =
      .ok (g.findings o).finalize := by
  obtain ⟨last, hstate, hruns, hlast⟩ :=
    runs_of_reserve (v := { next := n }) g o cancelled (List.forall_mem_nil _)
  rw [validate_of_runs hruns hlast, ← report_stagesDone { next := n } g o cancelled]
  show Except.ok last.state.report.finalize = _
  rw [hstate]
  rfl

end Validator
end PlotGraph
