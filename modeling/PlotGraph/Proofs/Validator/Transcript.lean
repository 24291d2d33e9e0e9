import Mathlib.Algebra.GroupWithZero.Nat
import PlotGraph.Proofs.Log.Delivery
import PlotGraph.Proofs.Log.Line
import PlotGraph.Proofs.Validator.Call
import PlotGraph.Validator.Logged

/-!
# What a run leaves in the log

A run goes through stages and then through turns of custom validators (`Progress.Passes`). Each of
them adds its own events to the log and its findings to the report (`RunState.Adds`), so that the
events of a whole run can be told from what it went through (`Validator.transcript`) and the
counts in them add up to those of the last one (`Validator.Concludes`).

With a log file open, nothing keeps one of these events from it (`RunState.IsRunEvent`). The lines
that a run adds are therefore those of its transcript, each with the id of the graph
(`Validator.validateIn_logged`).
-/

namespace PlotGraph

/-- What a custom validator answers about subjects, called with one after the other. -/
def Behaviour.answers : Behaviour → List Subject → List (Subject × Outcome)
  | _, [] => []
  | b, subject :: rest => (subject, b.respond subject) :: (b.next subject).answers rest

/-! ### The events of a run -/

namespace RunState

variable {s t : RunState} {g : Graph} {o : Options} {r : Registration}

/-- The first event of a run. -/
def startedEvent (g : Graph) : Log.Event where
  logger := logger
  level := .debug
  message := "logic_validation_started"
  fields := [countField "nodes" g.nodes.size, countField "connections" g.connections.size]

/-- The event for a stage that has run. -/
def passEvent (g : Graph) (o : Options) (stage : Stage) : Log.Event where
  logger := logger
  level := .debug
  message := "logic_validation_pass"
  fields := [("stage", .str stage.name),
    countField "errors" (stage.report g o).errors.length,
    countField "warnings" (stage.report g o).warnings.length]

/-- What a stage logs: what it has to say itself, and that it has run. -/
def stageEvents (g : Graph) (o : Options) (stage : Stage) : List Log.Event :=
  stage.events g (stage.report g o) ++ [passEvent g o stage]

/-- What the answers of a custom validator log: one event for each subject about which it fails. -/
def answersEvents (name : String) (answers : List (Subject × Outcome)) : List Log.Event :=
  answers.flatMap fun (subject, outcome) => answerEvents name subject outcome

/-- What the answers of a custom validator contribute to the report. -/
def answersReports (name : String) (answers : List (Subject × Outcome)) : List Report :=
  answers.map fun (subject, outcome) => outcome.contribution name subject

/-- What a custom validator answers in its turn, if it does then what its registration says. -/
def turnAnswers (g : Graph) (r : Registration) : List (Subject × Outcome) :=
  r.validator.behaviour.answers (subjectsOf g r.validator.card.scope)

/-- What the turn of a custom validator logs. -/
def turnEvents (g : Graph) (r : Registration) : List Log.Event :=
  answersEvents r.name (turnAnswers g r)

/-- What the turn of a custom validator contributes to the report. -/
def turnReports (g : Graph) (r : Registration) : List Report :=
  answersReports r.name (turnAnswers g r)

/-- The last event of a run that has come to its end. -/
def completeEvent (report : Report) : Log.Event where
  logger := logger
  level := .info
  message := "logic_validation_complete"
  fields := [("valid", .bool report.valid), countField "errors" report.errors.length,
    countField "warnings" report.warnings.length, countField "info" report.notes.length,
    countField "suggestions" report.suggestions.length]

/-- The last event of a run that was cancelled before an entry. -/
def cancelledEvent (name : String) : Log.Event where
  logger := logger
  level := .info
  message := "logic_validation_cancelled"
  fields := [("stage", .str name)]

/-! ### What the parts of a run add -/

/-- A stage adds its events and what it finds. -/
theorem adds_runStage (s : RunState) (stage : Stage) :
    s.Adds (s.runStage g o stage) (stageEvents g o stage) [stage.report g o] := by
  refine ⟨?_, rfl⟩
  rw [stageEvents, ← List.append_assoc]
  rfl

/-- A list of findings that was empty holds as much as the reports that were added. -/
theorem Adds.length_findings {α : Type} {events : List Log.Event} {reports : List Report}
    (h : s.Adds t events reports) (findings : Report → List α)
    (hmerge : ∀ r other, findings (r.merge other) = findings r ++ findings other)
    (hempty : findings s.report = []) :
    (findings t.report).length = (reports.map fun r => (findings r).length).sum := by
  rw [h.report, Report.foldl_merge_eq_append findings hmerge, hempty, List.nil_append,
    List.length_flatMap]

/-- A stage leaves the list as a run needs it. -/
theorem Orderly.runStage (h : s.Orderly) (stage : Stage) : (s.runStage g o stage).Orderly :=
  ⟨h.nodup, h.descending, h.lt_next⟩

/-- The calls of a turn add what the answers call for, each as the calls before have left the
custom validator. -/
theorem Orderly.adds_callAll (h : s.Orderly) (hr : r ∈ s.running) (subjects : List Subject) :
    (s.callAll r.number subjects).Orderly ∧ s.Adds (s.callAll r.number subjects)
      (answersEvents r.name (r.validator.behaviour.answers subjects))
      (answersReports r.name (r.validator.behaviour.answers subjects)) := by
  induction subjects generalizing s r with
  | nil => exact ⟨h, .refl s⟩
  | cons subject rest ih =>
      -- the next call finds the custom validator as this one leaves it
      have hmem := mem_running_call h.nodup_running hr subject
      obtain ⟨horderly, hadds⟩ := ih (h.grows (grows_call s r.number subject)) hmem
      exact ⟨horderly, (h.adds_call hr subject).trans hadds⟩

/-- A turn adds what the answers of the custom validator call for, one subject after the other. -/
theorem Orderly.adds_turn (h : s.Orderly) (hr : r ∈ s.running) :
    (s.turn g r).Orderly ∧ s.Adds (s.turn g r) (turnEvents g r) (turnReports g r) :=
  h.adds_callAll hr _

/-! ### What a turn leaves alone -/

/-- A call changes nothing where the custom validator does not stand. -/
theorem settle_eq_self {rs : List Registration} {number : Nat}
    (h : number ∉ rs.map (·.number)) (subject : Subject) : settle number subject rs = rs := by
  have hsame : ∀ r ∈ rs, settleOne number subject r = r := fun r hr =>
    if_neg fun heq => h (List.mem_map.mpr ⟨r, hr, heq⟩)
  exact (List.map_congr_left hsame).trans (List.map_id rs)

/-- While none of the custom validators can register another one, their calls leave alone what
stands behind them. -/
theorem Closed.drop_running_callAll (h : s.Closed) {number k : Nat}
    (hnumber : number ∉ (s.running.drop k).map (·.number)) (subjects : List Subject) :
    (s.callAll number subjects).running.drop k = s.running.drop k := by
  induction subjects generalizing s with
  | nil => rfl
  | cons subject rest ih =>
      have hcall : (s.call number subject).running.drop k = s.running.drop k := by
        rw [h.running_call, settle, ← List.map_drop]
        exact settle_eq_self hnumber subject
      exact (ih (h.call number subject) (hcall ▸ hnumber)).trans hcall

end RunState

/-! ### The parts that a run has gone through -/

namespace Progress

open RunState

variable {g : Graph} {o : Options} {p q : Progress} {ran : List Stage} {turns : List Registration}

/-- A run goes through stages, and then through turns of custom validators. -/
inductive Passes (g : Graph) (o : Options) :
    List Stage → List Registration → Progress → Progress → Prop
  | refl (p : Progress) : Passes g o [] [] p p
  | stage {s : RunState} {stage : Stage} {rest ran : List Stage} {index : Nat}
      {turns : List Registration} {q : Progress} :
      Passes g o ran turns ⟨s.runStage g o stage, rest, index⟩ q →
      Passes g o (stage :: ran) turns ⟨s, stage :: rest, index⟩ q
  | turn {s : RunState} {index : Nat} {r : Registration} {turns : List Registration}
      {q : Progress} : s.running[index]? = some r →
      Passes g o [] turns ⟨s.turn g r, [], index + 1⟩ q →
      Passes g o [] (r :: turns) ⟨s, [], index⟩ q

namespace Passes

/-- The stages that have run and those that have not are those that were to run. -/
theorem append_stages (h : Passes g o ran turns p q) : ran ++ q.stages = p.stages := by
  induction h with
  | refl p => rfl
  | stage _ ih => exact congrArg (_ :: ·) ih
  | turn _ _ ih => exact ih

/-- The stages that have run are the first of those that were to run, and all of them at the end. -/
theorem stages_prefix (h : Passes g o ran turns p q) :
    ran <+: p.stages ∧ (q.next? g o = none → ran = p.stages) := by
  refine ⟨⟨q.stages, h.append_stages⟩, fun hnext => ?_⟩
  rw [← h.append_stages, (done_of_next?_eq_none hnext).1, List.append_nil]

/-- What comes next is one stage more or one turn more. -/
theorem of_next? {name : String} {p' : Progress} (h : Passes g o ran turns p' q)
    (hnext : p.next? g o = some (name, p')) : ∃ ran' turns', Passes g o ran' turns' p q := by
  obtain ⟨s, stages, index⟩ := p
  cases stages with
  | cons stage rest =>
      cases hnext
      exact ⟨stage :: ran, turns, .stage h⟩
  | nil =>
      obtain ⟨r, hr, heq⟩ := Option.map_eq_some_iff.mp hnext
      cases heq
      -- behind the stages there are none
      obtain ⟨rfl, -⟩ := List.append_eq_nil_iff.mp h.append_stages
      exact ⟨[], r :: turns, .turn hr h⟩

/-- What a run has gone through accounts for what it has logged and found. -/
theorem adds (h : Passes g o ran turns p q) (hp : p.state.Orderly) :
    q.state.Orderly ∧ p.state.Adds q.state
      (ran.flatMap (stageEvents g o) ++ turns.flatMap (turnEvents g))
      (ran.map (·.report g o) ++ turns.flatMap (turnReports g)) := by
  induction h with
  | refl p => exact ⟨hp, .refl _⟩
  | @stage s stage _ _ _ _ _ _ ih =>
      obtain ⟨hq, hadds⟩ := ih (hp.runStage stage)
      refine ⟨hq, ?_⟩
      rw [List.flatMap_cons, List.map_cons, List.append_assoc]
      exact (adds_runStage s stage).trans hadds
  | turn hr _ ih =>
      -- the turn itself may have changed the list, but in a way that the next one can bear
      obtain ⟨hturn, hadds⟩ := hp.adds_turn (g := g) (List.mem_of_getElem? hr)
      obtain ⟨hq, hrest⟩ := ih hturn
      refine ⟨hq, ?_⟩
      rw [List.flatMap_cons, List.flatMap_cons]
      exact hadds.trans hrest

/-- While none of the custom validators can register another one, their turns come in the order of
the list, each once. -/
theorem turns_prefix_drop (h : Passes g o ran turns p q) (hclosed : p.state.Closed)
    (hnodup : (p.state.roster.map (·.number)).Nodup) :
    turns <+: p.state.running.drop p.index ∧
      (q.next? g o = none → turns = p.state.running.drop p.index) := by
  induction h with
  | refl p =>
      refine ⟨List.nil_prefix, fun hnext => ?_⟩
      exact (List.drop_eq_nil_of_le (done_of_next?_eq_none hnext).2).symm
  | stage _ ih => exact ih hclosed hnodup
  | @turn s index r turns q hr _ ih =>
      obtain ⟨hturn, hroster⟩ := hclosed.turn (g := g) r
      obtain ⟨hturns, hall⟩ := ih hturn (hroster ▸ hnodup)
      have hnumber : r.number ∉ (s.running.drop (index + 1)).map (·.number) :=
        Registration.number_not_mem_drop (map_number_roster s ▸ hnodup) hr
      have hrest : (s.turn g r).running.drop (index + 1) = s.running.drop (index + 1) :=
        hclosed.drop_running_callAll hnumber _
      obtain ⟨hlt, rfl⟩ := List.getElem?_eq_some_iff.mp hr
      show _ :: turns <+: s.running.drop index ∧ _
      rw [List.drop_eq_getElem_cons hlt, ← hrest]
      exact ⟨List.cons_prefix_cons.mpr ⟨rfl, hturns⟩, fun hnext => congrArg _ (hall hnext)⟩

end Passes

/-! ### The end of a run -/

/-- Where a run is cancelled it notes so, and changes nothing else but what it watches. -/
theorem eq_of_checkpoint_eq_error {s : RunState} {name : String} {i : Interruption}
    (h : s.checkpoint name = .error i) :
    ∃ w, i = ⟨name, (s.watching w).log [cancelledEvent name]⟩ := by
  unfold checkpoint look at h
  split at h
  · cases h
  · next heq =>
      cases h
      split at heq
      all_goals
        obtain ⟨-, rfl⟩ := Prod.mk.inj heq
        exact ⟨_, rfl⟩

/-- Whatever a run watches, it goes through some stages and turns. Then either there is nothing
left to do, or it is cancelled before what would come next. -/
theorem exists_passes (g : Graph) (o : Options) (p : Progress) (w : Watch) :
    ∃ ran turns q w', Passes g o ran turns p q ∧
      ((q.next? g o = none ∧ (p.watching w).run g o = .ok (q.state.watching w')) ∨
        ∃ name next, q.next? g o = some (name, next) ∧
          (p.watching w).run g o =
            .error ⟨name, (q.state.watching w').log [cancelledEvent name]⟩) := by
  -- a turn may bring more turns, so that only what could still come gets less
  induction hleft : p.left using Nat.strongRecOn generalizing p w with
  | _ n ih =>
      cases hnext : p.next? g o with
      | none =>
          exact ⟨[], [], p, w, .refl p, .inl ⟨hnext, run_watching_of_next?_eq_none hnext w⟩⟩
      | some entry =>
          obtain ⟨name, next⟩ := entry
          have hrun := run_watching_of_next? hnext w
          cases hc : (p.state.watching w).checkpoint name with
          | error i =>
              obtain ⟨w', rfl⟩ := eq_of_checkpoint_eq_error hc
              rw [hc] at hrun
              exact ⟨[], [], p, w', .refl p, .inr ⟨name, next, hnext, hrun⟩⟩
          | ok t =>
              rw [hc] at hrun
              have hlt := left_lt_of_next? hnext
              obtain ⟨ran, turns, q, w', hpasses, hend⟩ := ih next.left (hleft ▸ hlt) next t.watch rfl
              obtain ⟨ran', turns', hpasses'⟩ := hpasses.of_next? hnext
              exact ⟨ran', turns', q, w', hpasses', hrun ▸ hend⟩

end Progress

/-! ### Events that belong to a run -/

namespace RunState

variable {g : Graph} {o : Options} {e : Log.Event}

/-- The loggers that a run logs with. -/
def loggers : List String := [logger, "storylogic.graph.algorithms"]

/-- The names that the fields of its events have, before those of the run are bound to them. -/
def fieldNames : List String :=
  ["nodes", "connections", "cycles", "stage", "valid", "errors", "warnings", "info", "suggestions",
    "validator", "node_id", "error"]

/-- An event that a run may log. -/
structure IsRunEvent (e : Log.Event) : Prop where
  logger : e.logger ∈ loggers
  names : ∀ name ∈ e.names, name ∈ fieldNames

namespace IsRunEvent

theorem started (g : Graph) : IsRunEvent (startedEvent g) where
  logger := List.mem_cons_self
  names := show ∀ name ∈ ["nodes", "connections"], name ∈ fieldNames by decide

theorem complete (report : Report) : IsRunEvent (completeEvent report) where
  logger := List.mem_cons_self
  names := show ∀ name ∈ ["valid", "errors", "warnings", "info", "suggestions"],
    name ∈ fieldNames by decide

theorem cancelled (name : String) : IsRunEvent (cancelledEvent name) where
  logger := List.mem_cons_self
  names := show ∀ name ∈ ["stage"], name ∈ fieldNames by decide

/-- All that a stage logs belongs to a run. -/
theorem of_mem_stageEvents {stage : Stage} (h : e ∈ stageEvents g o stage) : IsRunEvent e := by
  rcases List.mem_append.mp h with h | h
  · cases stage with
    | circularDependencies =>
        obtain rfl := List.mem_singleton.mp h
        exact ⟨List.mem_cons_of_mem _ List.mem_cons_self,
          show ∀ name ∈ ["nodes", "cycles"], name ∈ fieldNames by decide⟩
    | _ => cases h
  · obtain rfl := List.mem_singleton.mp h
    exact ⟨List.mem_cons_self,
      show ∀ name ∈ ["stage", "errors", "warnings"], name ∈ fieldNames by decide⟩

/-- All that a turn logs belongs to a run. -/
theorem of_mem_turnEvents {r : Registration} (h : e ∈ turnEvents g r) : IsRunEvent e := by
  obtain ⟨answer, -, h⟩ := List.mem_flatMap.mp h
  obtain ⟨message, -, rfl⟩ := Option.map_eq_some_iff.mp (Option.mem_toList.mp h)
  exact ⟨List.mem_cons_self,
    show ∀ name ∈ ["validator", "node_id", "error"], name ∈ fieldNames by decide⟩

variable {graphId : String}

/-- The fields of such an event are those of runs and the id of the graph. -/
theorem names_bind (h : IsRunEvent e) :
    ∀ name ∈ (e.bind (context graphId)).names, name ∈ "graph_id" :: fieldNames := by
  intro name hname
  rcases Log.Event.mem_names_bind.mp hname with hcontext | hown
  · exact List.mem_singleton.mp hcontext ▸ List.mem_cons_self
  · exact List.mem_cons_of_mem _ (h.names name hown)

/-- With the field of the run bound to it nothing keeps such an event from a log file. -/
theorem isOrdinary_bind (h : IsRunEvent e) : (e.bind (context graphId)).IsOrdinary where
  logger := by
    have hloggers : ∀ l ∈ loggers, Log.Setup.isAsyncio l = false := by decide
    exact hloggers e.logger h.logger
  fields := by
    have hreserved : ∀ name ∈ "graph_id" :: fieldNames, name ∉ Log.reservedFields := by decide
    exact Log.Event.reservedFault?_eq_none fun name hname =>
      hreserved name (h.names_bind name hname)

/-- Every log file takes such an event. -/
theorem takes_bind (h : IsRunEvent e) (d : Log.Destination) :
    d.takes (e.bind (context graphId)) = true := by
  have htext : ∀ name ∈ "graph_id" :: fieldNames, name ∉ Log.textFields := by decide
  have hfault : (e.bind (context graphId)).consoleFault? = none :=
    Log.Event.consoleFault?_eq_none fun name hname => htext name (h.names_bind name hname)
  rw [Log.Destination.takes, hfault]
  exact Bool.or_true _

/-- Its line has the id of the graph. -/
theorem graphId_line (h : IsRunEvent e) :
    (e.bind (context graphId)).line.field? "graph_id" = some (.str graphId) := by
  have hnames : "graph_id" ∉ e.names := fun hmem =>
    absurd (h.names _ hmem) (show "graph_id" ∉ fieldNames by decide)
  exact Log.Event.field?_line_bind hnames (by decide) _

end IsRunEvent
end RunState

/-! ### Counts -/

/-- The count that an event gives under a name. -/
def Log.Event.count (name : String) (e : Log.Event) : Nat :=
  match Pairs.lookup name e.fields with
  | some (.int i) => i.toNat
  | _ => 0

/-! ### Whole runs -/

namespace Validator

open RunState Progress

variable {v : Validator} {g : Graph} {o : Options} {watch : Watch} {cancelled : Bool}

/-- What a run logs that has gone through some stages and turns. -/
def transcript (g : Graph) (o : Options) (ran : List Stage) (turns : List Registration)
    (last : Log.Event) : List Log.Event :=
  startedEvent g :: (ran.flatMap (stageEvents g o) ++ turns.flatMap (turnEvents g) ++ [last])

/-- The last event of a run fits how the run has ended. If it has come to its end, nothing was
left to do, and what the event counts is what the passes and the custom validators have found; if
it was cancelled, the event names what would have come next. -/
def Concludes (g : Graph) (o : Options) (ran : List Stage) (turns : List Registration)
    (reached : Progress) (last : Log.Event) : Except Cancelled Report → Prop
  | .ok report =>
    last = completeEvent report ∧ reached.next? g o = none ∧
      last.count "errors" = (ran.map fun stage => (passEvent g o stage).count "errors").sum +
        ((turns.flatMap (turnReports g)).map (·.errors.length)).sum ∧
      last.count "warnings" = (ran.map fun stage => (passEvent g o stage).count "warnings").sum +
        ((turns.flatMap (turnReports g)).map (·.warnings.length)).sum
  | .error c =>
    last = cancelledEvent c.stage ∧ c.graphId = g.id ∧
      ∃ next, reached.next? g o = some (c.stage, next)

/-- The parts of a run account for its events and for its end. -/
theorem exists_transcript (watch : Watch) (horderly : (v.start g o cancelled).state.Orderly) :
    ∃ ran turns reached last,
      Passes g o ran turns (v.start g o cancelled) reached ∧
      (v.validate g o watch cancelled).events = transcript g o ran turns last ∧
      Concludes g o ran turns reached last (v.validate g o watch cancelled).outcome := by
  obtain ⟨ran, turns, reached, w, hpasses, hend⟩ :=
    exists_passes g o (v.start g o cancelled) watch
  obtain ⟨-, hadds⟩ := hpasses.adds horderly
  -- from a state in which nothing has been logged yet
  have hstart : ({} : RunState).Adds (v.start g o cancelled).state [startedEvent g] [] := ⟨rfl, rfl⟩
  have hevents : ∀ last, (reached.state.log [last]).events = transcript g o ran turns last := by
    intro last
    have hlast : reached.state.Adds (reached.state.log [last]) [last] [] := ⟨rfl, rfl⟩
    exact ((hstart.trans hadds).trans hlast).events
  rw [validate_eq]
  rcases hend with ⟨hnext, hrun⟩ | ⟨name, next, hnext, hrun⟩
  · rw [hrun]
    refine ⟨ran, turns, reached, completeEvent reached.state.report.finalize, hpasses, hevents _,
      rfl, hnext, ?_, ?_⟩
    · show reached.state.report.errors.length = _
      rw [hadds.length_findings (·.errors) (fun _ _ => rfl) rfl, List.map_append, List.sum_append,
        List.map_map]
      rfl
    · show reached.state.report.warnings.length = _
      rw [hadds.length_findings (·.warnings) (fun _ _ => rfl) rfl, List.map_append,
        List.sum_append, List.map_map]
      rfl
  · rw [hrun]
    exact ⟨ran, turns, reached, cancelledEvent name, hpasses, hevents _, rfl, rfl, next, hnext⟩

/-! ### The log files after a run -/

/-- A run in which nothing else is bound logs its events with the id of the graph. -/
theorem validateIn_eq (v : Validator) (log : Log.Setup) (g : Graph) (o : Options) (watch : Watch)
    (cancelled : Bool) :
    v.validateIn ⟨log, []⟩ g o watch cancelled = (v.validate g o watch cancelled,
      ⟨log.emitAll ((v.validate g o watch cancelled).events.map
        (Log.Event.bind (context g.id))), []⟩) := by
  show (_, Log.Scope.mk (Log.Scope.emitAll ⟨log, context g.id⟩ _).setup []) = _
  rw [Log.Scope.setup_emitAll]

/-- All events of a transcript belong to a run. -/
theorem isRunEvent_of_mem_transcript {ran : List Stage} {turns : List Registration}
    {reached : Progress} {last e : Log.Event} {outcome : Except Cancelled Report}
    (hlast : Concludes g o ran turns reached last outcome) (h : e ∈ transcript g o ran turns last) :
    IsRunEvent e := by
  rcases List.mem_cons.mp h with rfl | h
  · exact .started g
  rcases List.mem_append.mp h with h | h
  · rcases List.mem_append.mp h with h | h
    · obtain ⟨stage, -, h⟩ := List.mem_flatMap.mp h
      exact .of_mem_stageEvents h
    · obtain ⟨r, -, h⟩ := List.mem_flatMap.mp h
      exact .of_mem_turnEvents h
  · obtain rfl := List.mem_singleton.mp h
    cases outcome with
    | ok report =>
        obtain ⟨rfl, -⟩ := hlast
        exact .complete report
    | error c =>
        obtain ⟨rfl, -⟩ := hlast
        exact .cancelled c.stage

variable (cs : List CustomValidator) (history : List Change) (g : Graph) (o : Options)
  (watch : Watch) (cancelled : Bool)

/-- **The log accounts for a run.** While a log file is open, and whatever was done to logging
before, a run adds to it, and to no other file: the event that it has begun; for each stage that
has run what the stage has to say and that it has run, with what it has found; for each turn of a
custom validator one event for every subject about which it has failed; and one event for the end
of the run, which sums up what was found if the run has come to its end, and names what would have
come next if it was cancelled. All of them have the id of the graph. However the run has ended,
what is logged after it has that field only if the event names it. -/
theorem validateIn_logged (before : Mapping Path (List Value))
    {logHistory : List Log.Action} {d : Log.Destination}
    (hlog : Log.destination logHistory = some d) :
    let v := (ofList cs).after history
    let log := ({ journal := before } : Log.Setup).after logHistory
    let result := (v.validateIn ⟨log, []⟩ g o watch cancelled).1
    let scope := (v.validateIn ⟨log, []⟩ g o watch cancelled).2
    (∃ ran turns reached last,
      (Passes g o ran turns (v.start g o cancelled) reached ∧
        ran <+: Stage.enabled o ∧ (reached.next? g o = none → ran = Stage.enabled o) ∧
        ((∀ c ∈ v.customValidators, reserve c.behaviour = 0) →
          turns <+: v.registrations ∧ (reached.next? g o = none → turns = v.registrations))) ∧
      Concludes g o ran turns reached last result.outcome ∧
      (∀ place, scope.setup.linesAt place = log.linesAt place ++
        if d.place = place then
          (transcript g o ran turns last).map fun e => (e.bind (context g.id)).line
        else []) ∧
      ∀ e ∈ transcript g o ran turns last,
        (e.bind (context g.id)).line.field? "graph_id" = some (.str g.id)) ∧
    ∀ (later : List Log.Event) (place : Path), ∃ written : List Log.Event,
      written.Sublist later ∧
      (scope.emitAll later).setup.linesAt place =
        scope.setup.linesAt place ++ written.map (fun e => (e.bind scope.bound).line) ∧
      ∀ e ∈ written,
        ((e.bind scope.bound).line.field? "graph_id").isSome = true ↔ "graph_id" ∈ e.names := by
  intro v log result scope
  have horderly : (v.start g o cancelled).state.Orderly := orderly_of_after rfl rfl
  obtain ⟨ran, turns, reached, last, hpasses, hevents, hlast⟩ :=
    exists_transcript watch horderly
  have hfollows : log.Follows (some d) := hlog ▸ (Log.Setup.follows_of_file_eq_none rfl).after _
  have hrun := validateIn_eq v log g o watch cancelled
  have hresult : result = v.validate g o watch cancelled := congrArg Prod.fst hrun
  have hscope : scope = ⟨log.emitAll ((transcript g o ran turns last).map
      (Log.Event.bind (context g.id))), []⟩ := hevents ▸ congrArg Prod.snd hrun
  have hmem : ∀ e ∈ transcript g o ran turns last, IsRunEvent e := fun e =>
    isRunEvent_of_mem_transcript hlast
  refine ⟨⟨ran, turns, reached, last, ⟨hpasses, hpasses.stages_prefix.1, hpasses.stages_prefix.2,
    fun hreserve => hpasses.turns_prefix_drop (List.forall_mem_map.mp hreserve) horderly.nodup⟩,
    hresult ▸ hlast, ?_, fun e he => (hmem e he).graphId_line⟩, ?_⟩
  · intro place
    have hordinary : ∀ e ∈ (transcript g o ran turns last).map (Log.Event.bind (context g.id)),
        e.IsOrdinary := List.forall_mem_map.mpr fun e he => (hmem e he).isOrdinary_bind
    have htakes : ∀ e ∈ (transcript g o ran turns last).map (Log.Event.bind (context g.id)),
        d.takes e = true := List.forall_mem_map.mpr fun e he => (hmem e he).takes_bind d
    rw [hscope, hfollows.linesAt_emitAll hordinary, Log.Setup.delivered_of_takes htakes,
      List.map_map]
    rfl
  · intro later place
    obtain ⟨bound, hbound, hlines⟩ := Log.Setup.exists_linesAt_emitAll
      (later.map (Log.Event.bind scope.bound)) scope.setup place
    obtain ⟨written, hsublist, rfl⟩ := List.sublist_map_iff.mp hbound
    rw [← Log.Scope.setup_emitAll, List.map_map] at hlines
    refine ⟨written, hsublist, hlines, fun e _ => ?_⟩
    rw [Log.Event.isSome_field?_line (by decide) (by decide), Log.Event.mem_names_bind, hscope]
    exact or_iff_right List.not_mem_nil

/-- A custom validator that fails on every node. -/
def failing : List CustomValidator :=
  [⟨{ name := "broken", scope := .node }, .answer fun _ => .failure "boom"⟩]

/-- A graph of two nodes, one of them without an id. -/
def twoNodes : Graph := { namedAndNameless with id := "g" }

/-- The messages that a run of all stages leaves in the log file, with a custom validator that
fails twice. -/
def failingMessages : List String :=
  ["logic_validation_started"] ++ List.replicate 3 "logic_validation_pass" ++
    ["cycle_search_complete"] ++ List.replicate 6 "logic_validation_pass" ++
    List.replicate 2 "custom_validator_failed" ++ ["logic_validation_complete"]

/-- The lines of a run with a custom validator that fails, in order. -/
theorem failing_logged :
    let v := (ofList failing).after []
    let log := ({} : Log.Setup).after [Log.Setup.opened]
    let run := v.validateIn ⟨log, []⟩ twoNodes {} .nothing false
    Log.destination [Log.Setup.opened] = some Log.Setup.logL ∧
    (run.2.setup.linesAt Log.Setup.logL.place).map (·.field? "message") =
      failingMessages.map (some ∘ Value.str) := by
  intro v log run
  have hlog : Log.destination [Log.Setup.opened] = some Log.Setup.logL :=
    Log.Setup.destination_opened none
  obtain ⟨⟨ran, turns, reached, last, ⟨-, -, hran, hturns⟩, hlast, hlines, -⟩, -⟩ :=
    validateIn_logged failing [] twoNodes {} .nothing false .empty hlog
  have hbehaviour : ∀ c ∈ v.customValidators, c.behaviour = .answer fun _ => .failure "boom" := by
    intro c hc
    obtain rfl := List.mem_singleton.mp hc
    rfl
  have hreserve : ∀ c ∈ v.customValidators, reserve c.behaviour = 0 := by
    intro c hc
    rw [hbehaviour c hc]
    rfl
  obtain ⟨report, houtcome⟩ : ∃ report, run.1.outcome = .ok report :=
    ⟨_, outcome_validate_answering (numbered_after_ofList failing []) hbehaviour twoNodes {} false⟩
  have hends : Concludes twoNodes {} ran turns reached last (.ok report) := by
    rw [← houtcome]
    exact hlast
  obtain ⟨rfl, hnext, -⟩ := hends
  obtain rfl := hran hnext
  obtain rfl := (hturns hreserve).2 hnext
  have hempty : log.linesAt Log.Setup.logL.place = [] := by
    show (Log.Setup.apply {} Log.Setup.opened).linesAt _ = []
    rw [Log.Setup.apply_opened]
    rfl
  refine ⟨hlog, ?_⟩
  have hrun : run.2.setup.linesAt Log.Setup.logL.place =
      (transcript twoNodes {} (Stage.enabled {}) v.registrations (completeEvent report)).map fun e =>
        (e.bind (context twoNodes.id)).line := by
    refine (hlines Log.Setup.logL.place).trans ?_
    rw [if_pos rfl]
    exact congrArg (· ++ _) hempty
  rw [hrun]
  rfl

end Validator
end PlotGraph
