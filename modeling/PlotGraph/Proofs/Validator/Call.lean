import PlotGraph.Proofs.Validator.Custom

/-!
# What a call does to a run

A call of a custom validator does two things to the state of a run. It adds what the answer
calls for, to the report and to the log (`RunState.Orderly.adds_call`). And it may change the list
that the run goes through, but in one way only: one registration more goes where its priority
puts it (`RunState.Grows`). To cancel the run and to unregister leave that list alone
(`RunState.Keeps`).

What a custom validator does the next time changes with every call. The list is therefore compared
with this left aside (`RunState.roster`).
-/

namespace PlotGraph

namespace Registration

/-- Where a registration goes does not depend on what the custom validator does. -/
theorem map_bare_insertInOrder (new : Registration) (rs : List Registration) :
    (insertInOrder new rs).map bare = insertInOrder new.bare (rs.map bare) := by
  induction rs with
  | nil => rfl
  | cons r rest ih =>
      rw [List.map_cons, insertInOrder, insertInOrder]
      by_cases hle : new.priority ≤ r.priority
      · rw [if_pos hle, if_pos (show new.bare.priority ≤ r.bare.priority from hle),
          List.map_cons, ih]
      · rw [if_neg hle, if_neg (show ¬ new.bare.priority ≤ r.bare.priority from hle),
          List.map_cons, List.map_cons]

/-- What stands at a place of a list does not stand behind it again. -/
theorem number_not_mem_drop {rs : List Registration} {passed : Registration} {i : Nat}
    (hnodup : (rs.map (·.number)).Nodup) (h : rs[i]? = some passed) :
    passed.number ∉ (rs.drop (i + 1)).map (·.number) := by
  obtain ⟨hlt, rfl⟩ := List.getElem?_eq_some_iff.mp h
  have hdrop : (rs.drop i).map (·.number) = rs[i].number :: (rs.drop (i + 1)).map (·.number) := by
    rw [List.drop_eq_getElem_cons hlt, List.map_cons]
  have hnodup' : ((rs.drop i).map (·.number)).Nodup :=
    hnodup.sublist ((List.drop_sublist i rs).map _)
  rw [hdrop] at hnodup'
  exact (List.nodup_cons.mp hnodup').1

end Registration

namespace RunState

variable {s t u : RunState} {r : Registration}

/-! ### The list that a run goes through -/

/-- The list is in descending order, and its members have numbers of their own. While the list
is still that of the validator, the next number is none of them. -/
structure Orderly (s : RunState) : Prop where
  nodup : (s.roster.map (·.number)).Nodup
  descending : s.roster.Pairwise fun a b => b.priority ≤ a.priority
  lt_next : s.detached = none → ∀ r ∈ s.roster, r.number < s.validator.next

/-- Nothing enters the list that a run goes through, or the list of the validator. -/
structure Keeps (s t : RunState) : Prop where
  roster : t.roster = s.roster
  detached : t.detached = none → s.detached = none
  next : t.validator.next = s.validator.next

/-- What can happen to the list that a run goes through: nothing, or one registration more goes
into it, which only happens while it is the list of the validator. -/
inductive Grows (s t : RunState) : Prop
  | same : t.roster = s.roster →
      (t.detached = none → s.detached = none ∧ t.validator.next = s.validator.next) → Grows s t
  | inserted (new : Registration) : s.detached = none → new.number = s.validator.next →
      t.roster = Registration.insertInOrder new s.roster →
      t.validator.next = s.validator.next + 1 → Grows s t

theorem Orderly.nodup_running (h : s.Orderly) : (s.running.map (·.number)).Nodup :=
  map_number_roster s ▸ h.nodup

/-- A list that grows stays as a run needs it. -/
theorem Orderly.grows (h : s.Orderly) (hgrows : s.Grows t) : t.Orderly := by
  cases hgrows with
  | same hroster hnext =>
      refine ⟨?_, ?_, ?_⟩
      · rw [hroster]
        exact h.nodup
      · rw [hroster]
        exact h.descending
      · intro ht r hr
        obtain ⟨hs, heq⟩ := hnext ht
        rw [heq]
        exact h.lt_next hs r (hroster ▸ hr)
  | inserted new hs hnumber hroster hnext =>
      have hlt := h.lt_next hs
      refine ⟨?_, ?_, ?_⟩
      · rw [hroster, ((Registration.perm_insertInOrder new s.roster).map _).nodup_iff,
          List.map_cons, List.nodup_cons]
        refine ⟨?_, h.nodup⟩
        intro hmem
        obtain ⟨r, hr, heq⟩ := List.mem_map.mp hmem
        have hless := hlt r hr
        omega
      · rw [hroster]
        exact Registration.pairwise_insertInOrder new h.descending
      · intro _ r hr
        rw [hroster] at hr
        rcases Registration.mem_insertInOrder.mp hr with rfl | hr
        · omega
        · have hless := hlt r hr
          omega

namespace Keeps

theorem refl (s : RunState) : s.Keeps s := ⟨rfl, id, rfl⟩

theorem trans (h : s.Keeps t) (h' : t.Keeps u) : s.Keeps u where
  roster := h'.roster.trans h.roster
  detached := fun hu => h.detached (h'.detached hu)
  next := h'.next.trans h.next

/-- Where nothing enters, the list of the run grows by nothing. -/
theorem grows (h : s.Keeps t) : s.Grows t := .same h.roster fun ht => ⟨h.detached ht, h.next⟩

/-- First nothing enters, and then perhaps one registration. -/
theorem trans_grows (h : s.Keeps t) (h' : t.Grows u) : s.Grows u := by
  cases h' with
  | same hroster hnext =>
      refine .same (hroster.trans h.roster) fun hu => ?_
      obtain ⟨ht, hvalidator⟩ := hnext hu
      exact ⟨h.detached ht, hvalidator.trans h.next⟩
  | inserted new ht hnumber hroster hnext =>
      refine .inserted new (h.detached ht) (hnumber.trans h.next) ?_ ?_
      · rw [hroster, h.roster]
      · rw [hnext, h.next]

end Keeps

/-- First one registration enters perhaps, and then nothing. -/
theorem Grows.trans_keeps (h : s.Grows t) (h' : t.Keeps u) : s.Grows u := by
  cases h with
  | same hroster hnext =>
      refine .same (h'.roster.trans hroster) fun hu => ?_
      obtain ⟨hs, hvalidator⟩ := hnext (h'.detached hu)
      exact ⟨hs, h'.next.trans hvalidator⟩
  | inserted new hs hnumber hroster hnext =>
      exact .inserted new hs hnumber (h'.roster.trans hroster) (h'.next.trans hnext)

theorem keeps_absorb (s : RunState) (name : String) (subject : Subject) (outcome : Outcome) :
    s.Keeps (s.absorb name subject outcome) := by
  unfold absorb
  split
  · exact ⟨rfl, id, rfl⟩
  · exact ⟨rfl, id, rfl⟩

theorem keeps_settleAll (s : RunState) (number : Nat) (subject : Subject) :
    s.Keeps (s.settleAll number subject) where
  roster := by
    rw [roster, running_settleAll, Registration.map_bare_settle, roster]
  detached := by simp [settleAll]
  next := rfl

theorem keeps_perform (s : RunState) (deed : Deed) : s.Keeps (s.perform deed) := by
  cases deed with
  | cancel => exact ⟨rfl, id, rfl⟩
  | unregister name => exact ⟨rfl, fun h => absurd h (Option.some_ne_none _), rfl⟩

/-- To cancel the run and to unregister lets nothing enter. -/
theorem keeps_performAll (s : RunState) (deeds : List Deed) : s.Keeps (s.performAll deeds) := by
  induction deeds generalizing s with
  | nil => exact .refl s
  | cons deed rest ih => exact (keeps_perform s deed).trans (ih (s.perform deed))

/-- To register lets one registration enter, if the list is still that of the validator. -/
theorem grows_enlist (s : RunState) (c : CustomValidator) : s.Grows (s.enlist c) := by
  cases hs : s.detached with
  | some old =>
      -- the list of the run is the validator's no more
      refine .same ?_ fun h => ?_
      · simp only [roster, running, enlist, hs, Option.getD_some]
      · rw [enlist, hs] at h
        cases h
  | none =>
      refine .inserted (Registration.bare ⟨s.validator.next, c⟩) hs rfl ?_ rfl
      simp only [roster, running, enlist, hs, Option.getD_none, Validator.register]
      exact Registration.map_bare_insertInOrder _ _

/-- Whatever a custom validator does, at most one registration enters the list. -/
theorem grows_act (s : RunState) (b : Behaviour) (subject : Subject) :
    s.Grows (s.act b subject) := by
  induction b with
  | answer respond => exact (Keeps.refl s).grows
  | always deeds respond => exact (keeps_performAll s _).grows
  | once deeds respond next _ => exact (keeps_performAll s _).grows
  | register before card behaviour after respond next _ _ =>
      have hbefore := keeps_performAll s (before subject)
      have henlist := grows_enlist (s.performAll (before subject)) ⟨card, behaviour⟩
      exact (hbefore.trans_grows henlist).trans_keeps (keeps_performAll _ _)
  | choose test yes no ihYes ihNo =>
      rw [act]
      split
      · exact ihYes
      · exact ihNo

/-- A call changes the list of the run as a change from outside does, or not at all. -/
theorem grows_call (s : RunState) (number : Nat) (subject : Subject) :
    s.Grows (s.call number subject) := by
  unfold call
  split
  · exact (Keeps.refl s).grows
  · next r _ =>
      apply Grows.trans_keeps _ (keeps_absorb _ _ _ _)
      exact (keeps_settleAll s number subject).trans_grows (grows_act _ _ _)

/-- A change of the registrations while a run goes on. To register changes the very list of the
validator, which may be the one that the run goes through; to unregister makes a new one. -/
def change (s : RunState) : Change → RunState
  | .register c => s.enlist c
  | .unregister name => s.perform (.unregister name)

/-- A change from outside lets one registration enter at the most. -/
theorem grows_change (s : RunState) (c : Change) : s.Grows (s.change c) := by
  cases c with
  | register c => exact grows_enlist s c
  | unregister name => exact (keeps_perform s (.unregister name)).grows

/-- Whatever a custom validator does, those in the list stay there. -/
theorem mem_running_act (h : r ∈ s.running) (b : Behaviour) (subject : Subject) :
    r ∈ (s.act b subject).running := by
  induction b with
  | answer respond => exact h
  | always deeds respond => exact running_performAll s _ ▸ h
  | once deeds respond next _ => exact running_performAll s _ ▸ h
  | register before card behaviour after respond next _ _ =>
      rw [← running_performAll s (before subject)] at h
      rw [act, running_performAll, enlist, running]
      cases hs : (s.performAll (before subject)).detached with
      | some old =>
          rw [running, hs] at h
          exact h
      | none =>
          rw [running, hs] at h
          exact Registration.mem_insertInOrder.mpr (.inr h)
  | choose test yes no ihYes ihNo =>
      rw [act]
      split
      · exact ihYes
      · exact ihNo

/-- After a call the custom validator is in the list as the call has left it. -/
theorem mem_running_call (hnodup : (s.running.map (·.number)).Nodup) (h : r ∈ s.running)
    (subject : Subject) : r.called subject ∈ (s.call r.number subject).running := by
  have hsettle : r.called subject ∈ (s.settleAll r.number subject).running := by
    rw [running_settleAll]
    exact List.mem_map.mpr ⟨r, h, if_pos rfl⟩
  simp only [call, find?_number hnodup h, running_absorb]
  exact mem_running_act hsettle _ _

/-! ### What a call adds -/

/-- The event for a custom validator that failed. -/
def failureEvent (name : String) (subject : Subject) (message : String) : Log.Event where
  logger := logger
  level := .warning
  message := "custom_validator_failed"
  fields := [("validator", .str name),
    ("node_id", (subject.anchor?.map Value.str).getD .null), ("error", .str message)]

/-- What is logged for the answer of a custom validator about a subject: one event if the call
has failed, and nothing otherwise. -/
def answerEvents (name : String) (subject : Subject) (outcome : Outcome) : List Log.Event :=
  (outcome.failure?.map (failureEvent name subject)).toList

/-- From one state of a run to another some events have been logged, and what some reports hold
has been found. -/
structure Adds (s t : RunState) (events : List Log.Event) (reports : List Report) : Prop where
  events : t.events = s.events ++ events
  report : t.report = reports.foldl .merge s.report

namespace Adds

variable {u : RunState} {events events' : List Log.Event} {reports reports' : List Report}

theorem refl (s : RunState) : s.Adds s [] [] := ⟨(List.append_nil _).symm, rfl⟩

theorem trans (h : s.Adds t events reports) (h' : t.Adds u events' reports') :
    s.Adds u (events ++ events') (reports ++ reports') where
  events := by rw [h'.events, h.events, List.append_assoc]
  report := by rw [h'.report, h.report, List.foldl_append]

end Adds

/-- To take in an answer adds what it calls for. -/
theorem adds_absorb (s : RunState) (name : String) (subject : Subject) (outcome : Outcome) :
    s.Adds (s.absorb name subject outcome) (answerEvents name subject outcome)
      [outcome.contribution name subject] := by
  refine ⟨?_, report_absorb s name subject outcome⟩
  unfold absorb answerEvents
  cases outcome.failure? with
  | none => exact (List.append_nil _).symm
  | some message =>
      rw [failureNode_eq]
      rfl

theorem adds_performAll (s : RunState) (deeds : List Deed) :
    s.Adds (s.performAll deeds) [] [] := by
  induction deeds generalizing s with
  | nil => exact .refl s
  | cons deed rest ih =>
      have hdeed : s.Adds (s.perform deed) [] [] := by
        cases deed with
        | cancel => exact ⟨(List.append_nil _).symm, rfl⟩
        | unregister name => exact ⟨(List.append_nil _).symm, rfl⟩
      exact hdeed.trans (ih (s.perform deed))

/-- What a custom validator does besides answering touches neither the report nor the log. -/
theorem adds_act (s : RunState) (b : Behaviour) (subject : Subject) :
    s.Adds (s.act b subject) [] [] := by
  induction b with
  | answer respond => exact .refl s
  | always deeds respond => exact adds_performAll s _
  | once deeds respond next _ => exact adds_performAll s _
  | register before card behaviour after respond next _ _ =>
      have hafter := adds_performAll ((s.performAll (before subject)).enlist ⟨card, behaviour⟩)
        (after subject)
      exact (adds_performAll s (before subject)).trans ⟨hafter.events, hafter.report⟩
  | choose test yes no ihYes ihNo =>
      rw [act]
      split
      · exact ihYes
      · exact ihNo

/-- A call adds what the answer calls for. -/
theorem Orderly.adds_call (h : s.Orderly) (hr : r ∈ s.running) (subject : Subject) :
    s.Adds (s.call r.number subject)
      (answerEvents r.name subject (r.validator.behaviour.respond subject))
      [(r.validator.behaviour.respond subject).contribution r.name subject] := by
  have hact := adds_act (s.settleAll r.number subject) r.validator.behaviour subject
  have hquiet : s.Adds ((s.settleAll r.number subject).act r.validator.behaviour subject) [] [] :=
    ⟨hact.events, hact.report⟩
  simp only [call, find?_number h.nodup_running hr]
  exact hquiet.trans (adds_absorb _ _ _ _)

/-! ### A run that begins -/

/-- The list of a validator is as a run needs it, however the validator came to be. -/
theorem orderly_of_after {cs : List CustomValidator} {history : List Change}
    (hrunning : s.running = ((Validator.ofList cs).after history).registrations)
    (hvalidator : s.validator = (Validator.ofList cs).after history) : s.Orderly := by
  have hnumbered := Validator.numbered_after_ofList cs history
  have harranges := Validator.arranges_after (cs.map .register ++ history)
  rw [← Validator.after_ofList] at harranges
  refine ⟨?_, ?_, fun _ => ?_⟩
  · rw [map_number_roster, hrunning]
    exact hnumbered.nodup
  · rw [roster, hrunning]
    exact List.pairwise_map.mpr (List.pairwise_map.mp harranges.descending)
  · rw [roster, hrunning, hvalidator]
    exact List.forall_mem_map.mpr hnumbered.lt_next

end RunState
end PlotGraph
