import PlotGraph.Proofs.Validator.Call
import Mathlib.Data.List.Nodup
import Mathlib.Logic.Relation

/-!
# Registrations while a run goes on

The part of a run that goes through custom validators is seen here in single steps: a turn
begins, a call is made, or the registrations are changed from outside (`Phase.Step`). They may
come in any order that the run allows. A run that nothing interferes with is one such
interleaving (`Phase.interleaves_of_runs`).

No custom validator is passed over, whatever is registered and unregistered meanwhile. But one
that is registered in front of the place that the run has come to moves the list on, and the
custom validator that the run had passed last stands before it again. Every custom validator is
therefore called on each of its subjects once, and once more each time that this happens to it
(`calls_of_interleaves`). It happens exactly if a custom validator of higher priority than the one
passed last is registered while the list is still that of the validator.
-/

namespace PlotGraph

open Registration

/-! ### Single steps -/

/-- The custom validators of a run, between two steps. -/
structure Phase where
  state : RunState
  /-- The place in the list from which the next turn is taken. -/
  index : Nat := 0
  /-- The number of the custom validator whose turn it is. -/
  inHand : Nat := 0
  /-- The subjects that it has still to be called on. -/
  waiting : List Subject := []
  /-- The calls made so far, by number and subject. -/
  calls : List (Nat × Subject) := []
  /-- The numbers of those that stood before the run again after it had passed them. -/
  repeated : List Nat := []

/-- Of a list that changes, what stood directly behind a place, if it stands at it afterwards. -/
def putBack : (index : Nat) → (before after : List Nat) → List Nat
  | 0, _, _ => []
  | i + 1, before, after => if before[i]? = after[i + 1]? then before[i]?.toList else []

/-! ### A registration in a list that a run goes through -/

namespace Registration

variable {new passed : Registration} {rs : List Registration} {i : Nat}

/-- A registration that runs before what stands at a place goes in front of the place. -/
theorem drop_insertInOrder_of_lt (h : rs[i]? = some passed) (hlt : passed.priority < new.priority) :
    (insertInOrder new rs).drop (i + 1) = rs.drop i := by
  induction rs generalizing i with
  | nil => cases h
  | cons r rest ih =>
      rw [insertInOrder]
      split
      · next hle =>
          cases i with
          | zero =>
              cases h
              omega
          | succ j => exact ih h
      · rfl

/-- One that does not goes behind the place. -/
theorem drop_insertInOrder_of_le (hdesc : rs.Pairwise fun a b => b.priority ≤ a.priority)
    (h : rs[i]? = some passed) (hle : new.priority ≤ passed.priority) :
    (insertInOrder new rs).drop (i + 1) = insertInOrder new (rs.drop (i + 1)) := by
  induction rs generalizing i with
  | nil => cases h
  | cons r rest ih =>
      obtain ⟨hr, hrest⟩ := List.pairwise_cons.mp hdesc
      cases i with
      | zero =>
          cases h
          rw [insertInOrder, if_pos hle]
          rfl
      | succ j =>
          have hpassed : passed.priority ≤ r.priority := hr passed (List.mem_of_getElem? h)
          rw [insertInOrder, if_pos (Int.le_trans hle hpassed)]
          exact ih hrest h

end Registration

/-! ### What stands at the place of the run again -/

section PutBack

variable {new passed : Registration} {rs : List Registration} {i : Nat}

/-- Where nothing changes, nothing is put back. -/
theorem putBack_self {numbers : List Nat} (h : numbers.Nodup) (index : Nat) :
    putBack index numbers numbers = [] := by
  cases index with
  | zero => rfl
  | succ i =>
      rw [putBack]
      split
      · next heq =>
          by_cases hlt : i + 1 < numbers.length
          · exact absurd heq (List.nodup_iff_getElem?_ne_getElem?.mp h i (i + 1) (by omega) hlt)
          · rw [heq, List.getElem?_eq_none (by omega)]
            rfl
      · rfl

/-- Where the run has passed nothing, nothing is put back. -/
theorem putBack_of_none (h : rs[i]? = none) (after : List Nat) :
    putBack (i + 1) (rs.map (·.number)) after = [] := by
  rw [putBack, List.getElem?_map, h]
  split
  · rfl
  · rfl

/-- A registration that runs before the one passed last puts it back. -/
theorem putBack_of_lt (h : rs[i]? = some passed) (hlt : passed.priority < new.priority) :
    putBack (i + 1) (rs.map (·.number)) ((insertInOrder new rs).map (·.number)) =
      [passed.number] := by
  have hat : (insertInOrder new rs)[i + 1]? = rs[i]? := by
    rw [← List.head?_drop, drop_insertInOrder_of_lt h hlt, List.head?_drop]
  rw [putBack, List.getElem?_map, List.getElem?_map, hat, if_pos rfl, h]
  rfl

/-- A registration that runs behind the one passed last puts nothing back. -/
theorem putBack_of_le (hnodup : (rs.map (·.number)).Nodup)
    (hdesc : rs.Pairwise fun a b => b.priority ≤ a.priority)
    (hnew : new.number ∉ rs.map (·.number)) (h : rs[i]? = some passed)
    (hle : new.priority ≤ passed.priority) :
    putBack (i + 1) (rs.map (·.number)) ((insertInOrder new rs).map (·.number)) = [] := by
  rw [putBack, if_neg]
  intro heq
  rw [List.getElem?_map, h, List.getElem?_map, ← List.head?_drop,
    drop_insertInOrder_of_le hdesc h hle] at heq
  -- then what has been passed would stand behind its own place, or be the new one
  obtain ⟨x, hx, hnumber⟩ := Option.map_eq_some_iff.mp heq.symm
  rcases mem_insertInOrder.mp (List.mem_of_mem_head? hx) with rfl | hmem
  · exact hnew (List.mem_map.mpr ⟨passed, List.mem_of_getElem? h, hnumber.symm⟩)
  · exact number_not_mem_drop hnodup h (List.mem_map.mpr ⟨x, hmem, hnumber⟩)

/-- From the place of the run on each one of the list stands as often as before, and once more
if it has been put back. -/
theorem count_drop_insertInOrder (hnodup : (rs.map (·.number)).Nodup)
    (hdesc : rs.Pairwise fun a b => b.priority ≤ a.priority)
    (hnew : new.number ∉ rs.map (·.number)) (index : Nat) {n : Nat} (hn : n ≠ new.number) :
    (((insertInOrder new rs).drop index).map (·.number)).count n =
      ((rs.drop index).map (·.number)).count n +
        (putBack index (rs.map (·.number)) ((insertInOrder new rs).map (·.number))).count n := by
  have hinsert : ∀ l : List Registration,
      ((insertInOrder new l).map (·.number)).count n = (l.map (·.number)).count n := by
    intro l
    rw [((perm_insertInOrder new l).map _).count_eq, List.map_cons, List.count_cons_of_ne hn.symm]
  cases index with
  | zero => exact hinsert rs
  | succ i =>
      cases h : rs[i]? with
      | none =>
          have hlength : rs.length ≤ i := List.getElem?_eq_none_iff.mp h
          have hdrop : rs.drop (i + 1) = [] := List.drop_eq_nil_of_le (Nat.le_succ_of_le hlength)
          have hdrop' : (insertInOrder new rs).drop (i + 1) = [] := by
            apply List.drop_eq_nil_of_le
            rw [(perm_insertInOrder new rs).length_eq, List.length_cons]
            exact Nat.succ_le_succ hlength
          rw [putBack_of_none h, hdrop, hdrop']
          rfl
      | some passed =>
          by_cases hlt : passed.priority < new.priority
          · obtain ⟨hi, rfl⟩ := List.getElem?_eq_some_iff.mp h
            rw [putBack_of_lt h hlt, drop_insertInOrder_of_lt h hlt, List.drop_eq_getElem_cons hi,
              List.map_cons, List.count_cons, List.count_singleton]
          · have hle : new.priority ≤ passed.priority := by omega
            rw [putBack_of_le hnodup hdesc hnew h hle, drop_insertInOrder_of_le hdesc h hle, hinsert]
            rfl

end PutBack

/-! ### Steps of a phase -/

namespace Phase

/-- The custom validators of a run, before the first of their turns. -/
def start (v : Validator) (g : Graph) (o : Options) (cancelled : Bool) : Phase :=
  { state := v.stagesDone g o cancelled }

/-- The numbers in the list that the run goes through. -/
def numbers (p : Phase) : List Nat := p.state.running.map (·.number)

/-- The phase when the state of the run has become another one. -/
def become (p : Phase) (t : RunState) : Phase :=
  { p with
    state := t
    repeated := p.repeated ++ putBack p.index p.numbers (t.running.map (·.number)) }

/-- The subjects that the custom validator with a number has been called on, in order. -/
def callsOf (p : Phase) (number : Nat) : List Subject :=
  (p.calls.filter fun c => c.1 = number).map Prod.snd

/-- The run has gone through its list. -/
def AtEnd (p : Phase) : Prop := p.waiting = [] ∧ p.state.running.length ≤ p.index

/-- A step of the run itself, or a change from outside. -/
inductive Step (g : Graph) : Phase → Phase → Prop
  | turn {p : Phase} {r : Registration} : p.waiting = [] →
      p.state.running[p.index]? = some r →
      Step g p { p with
        index := p.index + 1
        inHand := r.number
        waiting := RunState.subjectsOf g r.validator.card.scope }
  | call {p : Phase} {subject : Subject} {rest : List Subject} : p.waiting = subject :: rest →
      Step g p { p.become (p.state.call p.inHand subject) with
        waiting := rest
        calls := p.calls ++ [(p.inHand, subject)] }
  | change (p : Phase) (c : Change) : Step g p (p.become (p.state.change c))

/-- Steps in any order. -/
def Interleaves (g : Graph) : Phase → Phase → Prop := Relation.ReflTransGen (Step g)

variable {g : Graph} {o : Options} {p q : Phase} {r : Registration}

/-! ### A run that nothing interferes with -/

/-- The calls of a turn can come one right after the other. -/
theorem interleaves_callAll {subjects : List Subject} (hp : p.waiting = subjects) :
    ∃ q, Interleaves g p q ∧ q.state = p.state.callAll p.inHand subjects ∧ q.index = p.index ∧
      q.waiting = [] := by
  induction subjects generalizing p with
  | nil => exact ⟨p, .refl, rfl, rfl, hp⟩
  | cons subject rest ih =>
      obtain ⟨q, hq, hstate, hindex, hwaiting⟩ := ih (p := { p.become (p.state.call p.inHand subject)
        with waiting := rest, calls := p.calls ++ [(p.inHand, subject)] }) rfl
      exact ⟨q, .head (.call hp) hq, hstate, hindex, hwaiting⟩

/-- What a run does on its own is one way in which the steps can come. -/
theorem interleaves_of_runs {entries : List String} {here there : Progress}
    (h : Progress.Runs g o entries here there) (hstages : here.stages = [])
    (hstate : p.state = here.state) (hindex : p.index = here.index) (hwaiting : p.waiting = []) :
    ∃ q, Interleaves g p q ∧ q.state = there.state ∧ q.index = there.index ∧ q.waiting = [] := by
  induction h generalizing p with
  | refl => exact ⟨p, .refl, hstate, hindex, hwaiting⟩
  | @step name entries here next there hnext _ ih =>
      obtain ⟨s, stages, index⟩ := here
      cases hstages
      obtain ⟨r, hr, heq⟩ := Option.map_eq_some_iff.mp hnext
      cases heq
      have hr' : p.state.running[p.index]? = some r := by
        rw [hstate, hindex]
        exact hr
      obtain ⟨t, ht, htstate, htindex, htwaiting⟩ := interleaves_callAll (g := g)
        (p := { p with
          index := p.index + 1
          inHand := r.number
          waiting := RunState.subjectsOf g r.validator.card.scope }) rfl
      obtain ⟨q, hq, hend⟩ := ih (p := t) rfl
        (by rw [htstate]; exact congrArg (RunState.turn g · r) hstate)
        (by rw [htindex]; exact congrArg (· + 1) hindex) htwaiting
      exact ⟨q, .head (.turn hwaiting hr') (ht.trans hq), hend⟩

/-! ### What has been called and what is still to come -/

/-- The calls of a custom validator are accounted for: it has been called on all its subjects as
often as its turn has come, and its turns, with those that are still to come, are one and those
for which it stood before the run again. -/
structure Accounts (g : Graph) (r : Registration) (p : Phase) : Prop where
  orderly : p.state.Orderly
  mem : r ∈ p.state.roster
  turns : ∃ k, k + ((p.state.roster.drop p.index).map (·.number)).count r.number =
      1 + p.repeated.count r.number ∧
    p.callsOf r.number ++ (if p.inHand = r.number then p.waiting else []) =
      (List.replicate k (RunState.subjectsOf g r.validator.card.scope)).flatten

/-- Of a list that has grown, what stands from the place of the run on is accounted for. -/
theorem count_drop_of_grows {s t : RunState} (h : s.Orderly) (hgrows : s.Grows t)
    (hr : r ∈ s.roster) (index : Nat) :
    r ∈ t.roster ∧ ((t.roster.drop index).map (·.number)).count r.number =
      ((s.roster.drop index).map (·.number)).count r.number +
        (putBack index (s.running.map (·.number)) (t.running.map (·.number))).count r.number := by
  rw [← RunState.map_number_roster, ← RunState.map_number_roster]
  cases hgrows with
  | same hroster _ =>
      rw [hroster, putBack_self h.nodup]
      exact ⟨hr, rfl⟩
  | inserted new hs hnumber hroster _ =>
      have hlt := h.lt_next hs
      have hnew : new.number ∉ s.roster.map (·.number) := by
        intro hmem
        obtain ⟨x, hx, heq⟩ := List.mem_map.mp hmem
        have hless := hlt x hx
        omega
      have hne : r.number ≠ new.number := by
        have hless := hlt r hr
        omega
      rw [hroster]
      exact ⟨mem_insertInOrder.mpr (Or.inr hr),
        count_drop_insertInOrder h.nodup h.descending hnew index hne⟩

/-- A list that grows keeps the accounts. -/
theorem Accounts.become (h : p.Accounts g r) {t : RunState} (hgrows : p.state.Grows t) :
    (p.become t).Accounts g r := by
  obtain ⟨k, hk, hcalls⟩ := h.turns
  obtain ⟨hmem, hcount⟩ := count_drop_of_grows h.orderly hgrows h.mem p.index
  refine ⟨h.orderly.grows hgrows, hmem, k, ?_, hcalls⟩
  show k + ((t.roster.drop p.index).map (·.number)).count r.number =
    1 + (p.repeated ++ putBack p.index p.numbers (t.running.map (·.number))).count r.number
  rw [hcount, List.count_append, numbers]
  omega

/-- A call is added to those of the custom validator that is called. -/
theorem callsOf_append (p : Phase) (n number : Nat) (subject : Subject) :
    ({ p with calls := p.calls ++ [(n, subject)] } : Phase).callsOf number =
      p.callsOf number ++ if n = number then [subject] else [] := by
  rw [callsOf, List.filter_append, List.map_append]
  by_cases h : n = number
  · simp [h, callsOf]
  · simp [h, callsOf]

/-- A call moves its subject from those that wait to those that were called. -/
theorem Accounts.call (h : p.Accounts g r) {subject : Subject} {rest : List Subject}
    (hwaiting : p.waiting = subject :: rest) :
    { p with waiting := rest, calls := p.calls ++ [(p.inHand, subject)] : Phase }.Accounts g r := by
  obtain ⟨k, hk, hcalls⟩ := h.turns
  refine ⟨h.orderly, h.mem, k, hk, ?_⟩
  rw [← hcalls, hwaiting]
  show ({ p with calls := p.calls ++ [(p.inHand, subject)] } : Phase).callsOf r.number ++ _ = _
  rw [callsOf_append, List.append_assoc]
  split
  · rfl
  · rfl

/-- When a turn begins, one less of the turns is still to come. -/
theorem Accounts.turn (h : p.Accounts g r) (hwaiting : p.waiting = []) {x : Registration}
    (hx : p.state.running[p.index]? = some x) :
    { p with
      index := p.index + 1
      inHand := x.number
      waiting := RunState.subjectsOf g x.validator.card.scope : Phase }.Accounts g r := by
  obtain ⟨k, hk, hcalls⟩ := h.turns
  obtain ⟨hlt, hget⟩ := List.getElem?_eq_some_iff.mp (RunState.roster_getElem? hx)
  have hdrop : (p.state.roster.drop p.index).map (·.number) =
      x.number :: (p.state.roster.drop (p.index + 1)).map (·.number) := by
    rw [List.drop_eq_getElem_cons hlt, hget, List.map_cons, number_bare]
  rw [hdrop] at hk
  have hdone : p.callsOf r.number =
      (List.replicate k (RunState.subjectsOf g r.validator.card.scope)).flatten := by
    rw [← hcalls, hwaiting, ite_self, List.append_nil]
  refine ⟨h.orderly, h.mem, ?_⟩
  by_cases hnumber : x.number = r.number
  · -- it is the turn of the one in question, which has another turn behind it then
    have hsame : x.bare = r :=
      List.inj_on_of_nodup_map h.orderly.nodup (List.mem_of_getElem? (RunState.roster_getElem? hx))
        h.mem hnumber
    rw [hnumber, List.count_cons_self] at hk
    refine ⟨k + 1, ?_, ?_⟩
    · show k + 1 + ((p.state.roster.drop (p.index + 1)).map (·.number)).count r.number =
        1 + p.repeated.count r.number
      omega
    · show p.callsOf r.number ++ (if x.number = r.number then _ else []) = _
      rw [if_pos hnumber, hdone, List.replicate_succ', List.flatten_concat, ← hsame, card_bare]
  · rw [List.count_cons_of_ne hnumber] at hk
    refine ⟨k, hk, ?_⟩
    show p.callsOf r.number ++ (if x.number = r.number then _ else []) = _
    rw [if_neg hnumber, List.append_nil, hdone]

/-- A step keeps the accounts. -/
theorem Accounts.step (h : p.Accounts g r) (hstep : Step g p q) : q.Accounts g r := by
  cases hstep with
  | turn hwaiting hx => exact h.turn hwaiting hx
  | call hwaiting => exact (h.become (RunState.grows_call _ _ _)).call hwaiting
  | change c => exact h.become (RunState.grows_change p.state c)

/-- Any interleaving keeps the accounts. -/
theorem Accounts.interleaves (h : p.Accounts g r) (hsteps : Interleaves g p q) :
    q.Accounts g r := by
  induction hsteps with
  | refl => exact h
  | tail _ hstep ih => exact ih.step hstep

/-- At the end, with no turns to come, the calls are one round and those for being put back. -/
theorem Accounts.calls_of_atEnd (h : p.Accounts g r) (hend : p.AtEnd) :
    p.callsOf r.number = (List.replicate (1 + p.repeated.count r.number)
      (RunState.subjectsOf g r.validator.card.scope)).flatten := by
  obtain ⟨k, hk, hcalls⟩ := h.turns
  rw [List.drop_eq_nil_of_le (by rw [RunState.length_roster]; exact hend.2)] at hk
  rw [hend.1, ite_self, List.append_nil] at hcalls
  rw [hcalls, ← hk]
  rfl

/-! ### What puts a custom validator back -/

/-- A custom validator enters the list that the run goes through and runs before the one that
the run has passed last. -/
def Overtakes (p q : Phase) (passed : Registration) : Prop :=
  p.index ≠ 0 ∧ p.state.running[p.index - 1]? = some passed ∧ p.state.detached = none ∧
    ∃ new ∈ q.state.running, new.number = p.state.validator.next ∧ passed.priority < new.priority

/-- Where nothing enters the list, nothing is overtaken. -/
theorem not_overtakes_of_roster_eq (h : p.state.Orderly)
    (hroster : q.state.roster = p.state.roster) (passed : Registration) :
    ¬ Overtakes p q passed := by
  rintro ⟨-, -, hdetached, new, hnew, hnumber, -⟩
  have hless := h.lt_next hdetached new.bare (hroster ▸ RunState.mem_roster_of_mem hnew)
  rw [number_bare] at hless
  omega

/-- The list of a run grows, and either something overtakes what the run has passed last, which
is put back, or nothing is put back. -/
theorem putBack_of_grows (h : p.state.Orderly) (hgrows : p.state.Grows q.state) :
    (∃ passed, Overtakes p q passed ∧
      putBack p.index p.numbers q.numbers = [passed.number]) ∨
    (putBack p.index p.numbers q.numbers = [] ∧ ∀ passed, ¬ Overtakes p q passed) := by
  rw [numbers, numbers, ← RunState.map_number_roster, ← RunState.map_number_roster]
  cases hgrows with
  | same hroster _ =>
      rw [hroster]
      exact Or.inr ⟨putBack_self h.nodup p.index, not_overtakes_of_roster_eq h hroster⟩
  | inserted new hdetached hnumber hroster _ =>
      have hlt := h.lt_next hdetached
      have hnew : new.number ∉ p.state.roster.map (·.number) := by
        intro hmem
        obtain ⟨x, hx, heq⟩ := List.mem_map.mp hmem
        have hless := hlt x hx
        omega
      rw [hroster]
      cases hindex : p.index with
      | zero => exact Or.inr ⟨rfl, fun _ hover => hover.1 hindex⟩
      | succ i =>
          cases hpassed : p.state.running[i]? with
          | none =>
              refine Or.inr ⟨putBack_of_none ?_ _, fun passed hover => ?_⟩
              · rw [RunState.roster, List.getElem?_map, hpassed]
                rfl
              · have hat := hover.2.1
                rw [hindex, Nat.add_sub_cancel, hpassed] at hat
                cases hat
          | some passed =>
              have hat := RunState.roster_getElem? hpassed
              by_cases hless : passed.priority < new.priority
              · -- the new one is in the list, whatever it does by now
                have hmem : new ∈ q.state.roster := hroster ▸ mem_insertInOrder.mpr (Or.inl rfl)
                obtain ⟨x, hx, rfl⟩ := List.mem_map.mp hmem
                have hback : putBack (i + 1) (p.state.roster.map (·.number))
                    ((insertInOrder x.bare p.state.roster).map (·.number)) =
                      [passed.bare.number] :=
                  putBack_of_lt hat hless
                refine Or.inl ⟨passed, ⟨?_, ?_, hdetached, x, hx, hnumber, hless⟩, hback⟩
                · rw [hindex]
                  exact Nat.succ_ne_zero i
                · rw [hindex, Nat.add_sub_cancel]
                  exact hpassed
              · refine Or.inr ⟨putBack_of_le h.nodup h.descending hnew hat (Int.not_lt.mp hless), ?_⟩
                rintro other ⟨-, hother, -, x, hx, hxnumber, hxless⟩
                rw [hindex, Nat.add_sub_cancel, hpassed] at hother
                cases hother
                have hmem : x.bare ∈ q.state.roster := RunState.mem_roster_of_mem hx
                rw [hroster] at hmem
                rcases mem_insertInOrder.mp hmem with heq | hmem
                · rw [← heq, priority_bare] at hless
                  exact hless hxless
                · have hbelow := hlt x.bare hmem
                  rw [number_bare] at hbelow
                  omega

/-- A step puts back what is overtaken in it, and nothing else. -/
theorem repeated_of_step (h : p.state.Orderly) (hstep : Step g p q) :
    (∃ passed, Overtakes p q passed ∧ q.repeated = p.repeated ++ [passed.number]) ∨
      (q.repeated = p.repeated ∧ ∀ passed, ¬ Overtakes p q passed) := by
  have hbecome : ∀ {t : RunState}, p.state.Grows t → q.state = t →
      q.repeated = p.repeated ++ putBack p.index p.numbers q.numbers →
      (∃ passed, Overtakes p q passed ∧ q.repeated = p.repeated ++ [passed.number]) ∨
        (q.repeated = p.repeated ∧ ∀ passed, ¬ Overtakes p q passed) := by
    intro t hgrows hstate hrepeated
    rw [hrepeated]
    rcases putBack_of_grows h (hstate ▸ hgrows) with ⟨passed, hover, heq⟩ | ⟨heq, hnot⟩
    · exact Or.inl ⟨passed, hover, by rw [heq]⟩
    · exact Or.inr ⟨by rw [heq, List.append_nil], hnot⟩
  cases hstep with
  | turn _ _ => exact Or.inr ⟨rfl, not_overtakes_of_roster_eq h rfl⟩
  | call _ => exact hbecome (RunState.grows_call _ _ _) rfl rfl
  | change c => exact hbecome (RunState.grows_change p.state c) rfl rfl

/-! ### Every interleaving -/

theorem validator_foldl_runStage (stages : List Stage) (s : RunState) :
    (stages.foldl (fun s stage => s.runStage g o stage) s).validator = s.validator := by
  induction stages generalizing s with
  | nil => rfl
  | cons stage rest ih =>
      rw [List.foldl_cons, ih]
      rfl

/-- The list of the run begins as that of the validator. -/
theorem running_start (v : Validator) (g : Graph) (o : Options) (cancelled : Bool) :
    (start v g o cancelled).state.running = v.registrations :=
  Validator.running_stagesDone v g o cancelled

/-- The accounts are in order before the first turn. -/
theorem accounts_start {v : Validator} {cancelled : Bool}
    (h : (start v g o cancelled).state.Orderly) (hr : r ∈ v.registrations) :
    (start v g o cancelled).Accounts g r.bare := by
  have hmem : r.bare ∈ (start v g o cancelled).state.roster := by
    apply RunState.mem_roster_of_mem
    rw [running_start]
    exact hr
  refine ⟨h, hmem, 0, ?_, ?_⟩
  · rw [Nat.zero_add]
    exact List.count_eq_one_of_mem h.nodup (List.mem_map_of_mem hmem)
  · exact ite_self []

/-- The list stays as a run needs it, whatever is done. -/
theorem orderly_of_interleaves (h : p.state.Orderly) (hsteps : Interleaves g p q) :
    q.state.Orderly := by
  induction hsteps with
  | refl => exact h
  | tail _ hstep ih =>
      cases hstep with
      | turn _ _ => exact ih
      | call _ => exact ih.grows (RunState.grows_call _ _ _)
      | change c => exact ih.grows (RunState.grows_change _ c)

theorem orderly_start (cs : List CustomValidator) (history : List Change) (g : Graph) (o : Options)
    (cancelled : Bool) :
    (start ((Validator.ofList cs).after history) g o cancelled).state.Orderly :=
  RunState.orderly_of_after (running_start _ g o cancelled)
    (validator_foldl_runStage (Stage.enabled o) _)

/-- **Registrations while a run goes on.** A run that nothing interferes with is one way in which
its steps can come. In whatever way they come and whatever is registered and unregistered
between them, when the run has gone through its list each custom validator that was registered
when the run came to them has been called on each of its subjects, in order: once, and once
more each time that it was put back. It is put back exactly in the steps in which something
overtakes it while it is what the run has passed last; so if nothing is ever overtaken, each
custom validator is called exactly once on each of its subjects. -/
theorem calls_of_interleaves (cs : List CustomValidator) (history : List Change) (g : Graph)
    (o : Options) (cancelled : Bool) :
    let v := (Validator.ofList cs).after history
    (∃ p, Interleaves g (start v g o cancelled) p ∧ p.AtEnd ∧
      v.validate g o .nothing cancelled = Validator.ending p.state) ∧
    (∀ p, Interleaves g (start v g o cancelled) p →
      (p.AtEnd → ∀ r ∈ v.registrations, p.callsOf r.number =
        (List.replicate (1 + p.repeated.count r.number)
          (RunState.subjectsOf g r.validator.card.scope)).flatten) ∧
      ∀ q, Step g p q →
        (∃ passed, Overtakes p q passed ∧ q.repeated = p.repeated ++ [passed.number]) ∨
          (q.repeated = p.repeated ∧ ∀ passed, ¬ Overtakes p q passed)) ∧
    ∀ p, Relation.ReflTransGen (fun p q => Step g p q ∧ ∀ passed, ¬ Overtakes p q passed)
        (start v g o cancelled) p → p.AtEnd →
      ∀ r ∈ v.registrations,
        p.callsOf r.number = RunState.subjectsOf g r.validator.card.scope := by
  intro v
  have horderly : ∀ p, Interleaves g (start v g o cancelled) p → p.state.Orderly :=
    fun p => orderly_of_interleaves (orderly_start cs history g o cancelled)
  have hcalls : ∀ p, Interleaves g (start v g o cancelled) p → p.AtEnd →
      ∀ r ∈ v.registrations, p.callsOf r.number = (List.replicate (1 + p.repeated.count r.number)
        (RunState.subjectsOf g r.validator.card.scope)).flatten := by
    intro p hp hend r hr
    have haccounts := accounts_start (orderly_start cs history g o cancelled) hr
    exact (haccounts.interleaves hp).calls_of_atEnd hend
  refine ⟨?_, fun p hp => ⟨hcalls p hp, fun q hstep => repeated_of_step (horderly p hp) hstep⟩, ?_⟩
  · obtain ⟨entries, last, hruns, hlast⟩ :=
      Progress.exists_runs g o ⟨v.stagesDone g o cancelled, [], 0⟩
    obtain ⟨p, hp, hstate, hindex, hwaiting⟩ :=
      interleaves_of_runs (p := start v g o cancelled) hruns rfl rfl rfl rfl
    refine ⟨p, hp, ⟨hwaiting, ?_⟩, ?_⟩
    · rw [hstate, hindex]
      exact (Progress.done_of_next?_eq_none hlast).2
    · rw [hstate]
      exact Validator.validate_of_runs ((Validator.runs_enabled v g o cancelled).trans hruns) hlast
  · intro p hp hend r hr
    have hquiet : Interleaves g (start v g o cancelled) p ∧ p.repeated = [] := by
      clear hend
      induction hp with
      | refl => exact ⟨.refl, rfl⟩
      | tail _ hstep ih =>
          refine ⟨ih.1.tail hstep.1, ?_⟩
          rcases repeated_of_step (horderly _ ih.1) hstep.1 with ⟨passed, hover, -⟩ | ⟨heq, -⟩
          · exact absurd hover (hstep.2 passed)
          · rw [heq, ih.2]
    rw [hcalls p hquiet.1 hend r hr, hquiet.2]
    simp

/-- An interleaving in which nothing has been put back is one in which nothing is overtaken. -/
theorem quiet_of_repeated_eq_nil {cs : List CustomValidator} {history : List Change} {g : Graph}
    {o : Options} {cancelled : Bool} {p : Phase}
    (hp : Interleaves g (start ((Validator.ofList cs).after history) g o cancelled) p)
    (hnone : p.repeated = []) :
    Relation.ReflTransGen (fun p q => Step g p q ∧ ∀ passed, ¬ Overtakes p q passed)
      (start ((Validator.ofList cs).after history) g o cancelled) p := by
  induction hp with
  | refl => exact .refl
  | tail hp hstep ih =>
      have horderly := orderly_of_interleaves (orderly_start cs history g o cancelled) hp
      rcases repeated_of_step horderly hstep with ⟨passed, -, heq⟩ | ⟨heq, hnot⟩
      · rw [hnone] at heq
        exact absurd heq.symm (List.append_ne_nil_of_right_ne_nil _ (List.cons_ne_nil _ _))
      · exact (ih (heq ▸ hnone)).tail ⟨hstep, hnot⟩

/-- What is true at the end of an interleaving is so whatever step goes before it. -/
theorem exists_of_step {g : Graph} {p q : Phase} {P : Phase → Prop} (hstep : Step g p q)
    (h : ∃ t, Interleaves g q t ∧ P t) : ∃ t, Interleaves g p t ∧ P t := by
  obtain ⟨t, ht, hP⟩ := h
  exact ⟨t, .head hstep ht, hP⟩

/-! ### Two custom validators -/

/-- A custom validator that answers nothing. -/
def silent (name : String) (priority : Int) : CustomValidator :=
  ⟨{ name := name, priority := priority }, .answer fun _ => .nothing⟩

/-- Two custom validators. -/
def pair : List CustomValidator := [silent "first" 1, silent "second" 0]

/-- While the first one is called a third one is registered, which runs before it; and then the
second one is unregistered before its turn. -/
theorem pair_overtaken : ∃ p,
    Interleaves {} (start ((Validator.ofList pair).after []) {} {} false) p ∧ p.AtEnd ∧
      p.repeated = [0] := by
  refine exists_of_step (.turn rfl rfl) ?_
  refine exists_of_step (.change _ (.register (silent "third" 2))) ?_
  refine exists_of_step (.call rfl) ?_
  refine exists_of_step (.turn rfl rfl) ?_
  refine exists_of_step (.call rfl) ?_
  refine exists_of_step (.change _ (.unregister "second")) ?_
  refine exists_of_step (.turn rfl rfl) ?_
  refine exists_of_step (.call rfl) ?_
  exact ⟨_, .refl, ⟨rfl, Nat.le_refl 3⟩, rfl⟩

/-- While the first one is called a third one is registered, which runs after it, and the first
one is unregistered. -/
theorem pair_joined : ∃ p,
    Interleaves {} (start ((Validator.ofList pair).after []) {} {} false) p ∧ p.AtEnd ∧
      p.repeated = [] := by
  refine exists_of_step (.turn rfl rfl) ?_
  refine exists_of_step (.change _ (.register (silent "third" 0))) ?_
  refine exists_of_step (.change _ (.unregister "first")) ?_
  refine exists_of_step (.call rfl) ?_
  refine exists_of_step (.turn rfl rfl) ?_
  refine exists_of_step (.call rfl) ?_
  refine exists_of_step (.turn rfl rfl) ?_
  refine exists_of_step (.call rfl) ?_
  exact ⟨_, .refl, ⟨rfl, Nat.le_refl 3⟩, rfl⟩

/-- The first of the pair is called twice where it is overtaken, and once where it is not. -/
theorem pair_calls :
    (∃ p, Interleaves {} (start ((Validator.ofList pair).after []) {} {} false) p ∧ p.AtEnd ∧
      p.callsOf 0 = [.graph {}, .graph {}] ∧ p.callsOf 1 = [.graph {}]) ∧
    (∃ p q, Interleaves {} (start ((Validator.ofList pair).after []) {} {} false) p ∧
      Step {} p q ∧ ∃ passed, Overtakes p q passed) ∧
    ∃ p, Relation.ReflTransGen (fun p q => Step {} p q ∧ ∀ passed, ¬ Overtakes p q passed)
        (start ((Validator.ofList pair).after []) {} {} false) p ∧ p.AtEnd ∧
      p.callsOf 0 = [.graph {}] ∧ p.callsOf 1 = [.graph {}] := by
  obtain ⟨-, hall, hquiet⟩ := calls_of_interleaves pair [] {} {} false
  have hfirst : ⟨0, silent "first" 1⟩ ∈ ((Validator.ofList pair).after []).registrations :=
    List.mem_cons_self
  have hsecond : ⟨1, silent "second" 0⟩ ∈ ((Validator.ofList pair).after []).registrations :=
    List.mem_cons_of_mem _ List.mem_cons_self
  refine ⟨?_, ?_, ?_⟩
  · obtain ⟨p, hp, hend, hrepeated⟩ := pair_overtaken
    have hcalls := (hall p hp).1 hend
    rw [hrepeated] at hcalls
    exact ⟨p, hp, hend, hcalls _ hfirst, hcalls _ hsecond⟩
  · let p : Phase := start ((Validator.ofList pair).after []) {} {} false
    let p' : Phase := { p with index := 1, inHand := 0, waiting := [.graph {}] }
    have hp' : Interleaves {} p p' := .single (.turn (r := ⟨0, silent "first" 1⟩) rfl rfl)
    have hstep : Step {} p' (p'.become (p'.state.change (.register (silent "third" 2)))) :=
      .change p' _
    rcases (hall p' hp').2 _ hstep with ⟨passed, hover, -⟩ | ⟨hrepeated, -⟩
    · exact ⟨p', _, hp', hstep, passed, hover⟩
    · cases hrepeated
  · obtain ⟨p, hp, hend, hrepeated⟩ := pair_joined
    have hp' := quiet_of_repeated_eq_nil hp hrepeated
    have hcalls := hquiet p hp' hend
    exact ⟨p, hp', hend, hcalls _ hfirst, hcalls _ hsecond⟩

/-! ### A custom validator that runs before the one that registers it -/

/-- A node to start from. -/
def onlyNode : Node := { id := "a", tag := "start", config := .empty }

/-- A graph of one node. -/
def oneNode : Graph where
  id := "g"
  nodes := .ofList [("a", onlyNode)]
  connections := .empty

/-- A custom validator that is called with each node and registers one of higher priority the
first time. -/
def earlyComer : List CustomValidator := [⟨{ name := "first", scope := .node },
  .register (fun _ => []) { name := "second", priority := 1 } (.answer fun _ => .nothing)
    (fun _ => []) (fun _ => .nothing) (.answer fun _ => .nothing)⟩]

/-- A run that nothing interferes with calls it twice on the only node. -/
theorem earlyComer_called_twice :
    let v := (Validator.ofList earlyComer).after []
    ∃ p, Interleaves oneNode (start v oneNode {} false) p ∧ p.AtEnd ∧
      v.validate oneNode {} .nothing false = Validator.ending p.state ∧
      ∃ r ∈ v.registrations,
        RunState.subjectsOf oneNode r.validator.card.scope = [.node onlyNode] ∧
        p.callsOf r.number = [.node onlyNode, .node onlyNode] := by
  intro v
  obtain ⟨t, hfirst, u, hagain, hlast⟩ :
      ∃ t, Progress.next? oneNode {} ⟨v.stagesDone oneNode {} false, [], 0⟩ =
        some ("custom validator 'first'", t) ∧
      ∃ u, Progress.next? oneNode {} t = some ("custom validator 'first'", u) ∧
        u.next? oneNode {} = none := ⟨_, rfl, _, rfl, rfl⟩
  have hrun : v.validate oneNode {} .nothing false = Validator.ending u.state :=
    Validator.validate_of_runs ((Validator.runs_enabled v oneNode {} false).trans
      (.step hfirst (.step hagain (.refl u)))) hlast
  rw [hrun]
  cases hfirst
  cases hagain
  refine exists_of_step (.turn rfl rfl) ?_
  refine exists_of_step (.call rfl) ?_
  refine exists_of_step (.turn rfl rfl) ?_
  refine exists_of_step (.call rfl) ?_
  exact ⟨_, .refl, ⟨rfl, Nat.le_refl 2⟩, rfl, _, List.mem_cons_self, rfl, rfl⟩

end Phase
end PlotGraph
