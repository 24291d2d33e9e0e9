import PlotGraph.Validator.Registry
import Mathlib.Data.List.Basic
import Mathlib.Data.List.Induction

/-!
# Registrations after any history

To register puts a validator behind those of its own priority, so that the list of a validator
is at all times what a stable sort by descending priority makes of the registrations that are
left (`Arranges`). Which are left is read off the history alone (`survivors`): those whose name
has not been unregistered since. `Validator.arranges_after` says so for every history.

Every registration also keeps a number of its own (`Validator.Numbered`), by which a run finds
it.
-/

namespace PlotGraph

/-! ### One registration more -/

namespace Registration

/-- To insert a registration adds it and keeps all others. -/
theorem mem_insertInOrder {new r : Registration} {rs : List Registration} :
    r ∈ insertInOrder new rs ↔ r = new ∨ r ∈ rs := by
  rw [(perm_insertInOrder new rs).mem_iff, List.mem_cons]

/-- The list stays in descending order. -/
theorem pairwise_insertInOrder (new : Registration) {rs : List Registration}
    (h : rs.Pairwise fun a b => b.priority ≤ a.priority) :
    (insertInOrder new rs).Pairwise fun a b => b.priority ≤ a.priority := by
  induction rs with
  | nil => exact List.pairwise_singleton _ new
  | cons r rest ih =>
      obtain ⟨hr, hrest⟩ := List.pairwise_cons.mp h
      simp only [insertInOrder]
      split
      · next hle =>
          refine List.pairwise_cons.mpr ⟨?_, ih hrest⟩
          intro b hb
          rcases mem_insertInOrder.mp hb with rfl | hb
          · exact hle
          · exact hr b hb
      · next hlt =>
          refine List.pairwise_cons.mpr ⟨?_, h⟩
          intro b hb
          rcases List.mem_cons.mp hb with rfl | hb
          · omega
          · have hle := hr b hb
            omega

/-- Of its own priority the new registration is the last one, and those of another priority
stand as before. -/
theorem filter_insertInOrder (new : Registration) {rs : List Registration}
    (h : rs.Pairwise fun a b => b.priority ≤ a.priority) (p : Int) :
    (insertInOrder new rs).filter (fun r => r.priority = p) =
      (rs ++ [new]).filter fun r => r.priority = p := by
  induction rs with
  | nil => rfl
  | cons r rest ih =>
      obtain ⟨hr, hrest⟩ := List.pairwise_cons.mp h
      simp only [insertInOrder]
      split
      · rw [List.cons_append, List.filter_cons, List.filter_cons, ih hrest]
      · next hlt =>
          rw [List.filter_append, List.filter_cons]
          by_cases hp : new.priority = p
          · -- all that come after have a lower priority
            have hnone : (r :: rest).filter (fun r => r.priority = p) = [] := by
              refine List.filter_eq_nil_iff.mpr fun b hb => ?_
              have hb : b.priority ≤ r.priority := by
                rcases List.mem_cons.mp hb with rfl | hb
                · exact Int.le_refl _
                · exact hr b hb
              simp only [decide_eq_true_eq]
              omega
            simp [hnone, hp]
          · simp [hp]

end Registration

/-! ### Histories -/

/-- A call that changes the registrations of a validator. -/
inductive Change where
  | register (c : CustomValidator)
  | unregister (name : String)

/-- Whether a change removes the custom validators with a name. -/
def Change.removes (name : String) : Change → Bool
  | .register _ => false
  | .unregister removed => removed == name

/-- What is left of the custom validators registered in a history, in the order of their
registration: those whose name is not unregistered later on. -/
def survivors : List Change → List CustomValidator
  | [] => []
  | .register c :: later =>
    if later.any (·.removes c.card.name) then survivors later else c :: survivors later
  | .unregister _ :: later => survivors later

/-- What is registered survives for the time being. -/
theorem survivors_append_register (history : List Change) (c : CustomValidator) :
    survivors (history ++ [.register c]) = survivors history ++ [c] := by
  induction history with
  | nil => rfl
  | cons change later ih =>
      cases change with
      | unregister name => exact ih
      | register d =>
          have hany : (later ++ [Change.register c]).any (·.removes d.card.name) =
              later.any (·.removes d.card.name) := by
            simp [Change.removes]
          simp only [List.cons_append, survivors, hany, ih]
          split
          · rfl
          · rfl

/-- To unregister a name leaves those with other names. -/
theorem survivors_append_unregister (history : List Change) (name : String) :
    survivors (history ++ [.unregister name]) =
      (survivors history).filter fun c => c.card.name ≠ name := by
  induction history with
  | nil => rfl
  | cons change later ih =>
      cases change with
      | unregister other => exact ih
      | register c =>
          have hany : (later ++ [Change.unregister name]).any (·.removes c.card.name) =
              (later.any (·.removes c.card.name) || name == c.card.name) := by
            simp [Change.removes]
          simp only [List.cons_append, survivors, hany, ih]
          cases hlater : later.any (·.removes c.card.name) with
          | true => simp
          | false =>
              by_cases hname : c.card.name = name
              · simp [hname]
              · have hne : ¬ name = c.card.name := fun h => hname h.symm
                simp [hname, hne]

namespace Validator

/-- The validator after a change. -/
def apply (v : Validator) : Change → Validator
  | .register c => v.register c
  | .unregister name => v.unregister name

/-- The validator after some changes, one after the other. -/
def after (v : Validator) (history : List Change) : Validator := history.foldl apply v

theorem after_append_singleton (v : Validator) (history : List Change) (change : Change) :
    v.after (history ++ [change]) = (v.after history).apply change := by
  rw [after, List.foldl_append]
  rfl

/-- To make a validator from a list is to register its members one after the other. -/
theorem ofList_eq_after (cs : List CustomValidator) :
    ofList cs = after {} (cs.map .register) := by
  rw [ofList, after, List.foldl_map]
  rfl

/-- To begin with a list is to register its members first. -/
theorem after_ofList (cs : List CustomValidator) (history : List Change) :
    (ofList cs).after history = after {} (cs.map .register ++ history) := by
  rw [ofList_eq_after, after, after, after, List.foldl_append]

/-- To unregister a name keeps the others, in their order. -/
theorem customValidators_unregister (v : Validator) (name : String) :
    (v.unregister name).customValidators =
      v.customValidators.filter fun c => c.card.name ≠ name := by
  rw [customValidators, customValidators, List.filter_map]
  apply congrArg
  refine List.filter_congr fun r _ => ?_
  rw [Bool.eq_iff_iff]
  simp [Registration.name]

/-- A name is registered if a custom validator has it. -/
theorem isRegistered_iff {v : Validator} {name : String} :
    v.isRegistered name = true ↔ ∃ c ∈ v.customValidators, c.card.name = name := by
  simp [isRegistered, customValidators, Registration.name]

/-- To unregister a name takes something away exactly if the name is registered. -/
theorem isRegistered_iff_count_ne {v : Validator} {name : String} :
    v.isRegistered name = true ↔ (v.unregister name).count ≠ v.count := by
  have hcount : (v.unregister name).count = v.count ↔
      ∀ r ∈ v.registrations, (r.name != name) = true := by
    rw [count, count, unregister, List.length_filter_eq_length_iff]
  rw [Ne, hcount, isRegistered, List.any_eq_true]
  simp

end Validator

/-! ### Run order -/

/-- A list has the custom validators of another one, those of higher priority first, and those
of one priority in the order in which the other list has them. -/
structure Arranges (run given : List CustomValidator) : Prop where
  perm : run.Perm given
  descending : run.Pairwise fun a b => b.card.priority ≤ a.card.priority
  stable : ∀ p : Int, run.filter (fun c => c.card.priority = p) =
    given.filter fun c => c.card.priority = p

namespace Arranges

variable {run run' given : List CustomValidator}

/-- What stands first in a list has no higher priority than what stands first in another list
in descending order that has the same members of each priority. -/
theorem priority_head_le {a b : CustomValidator} {rest rest' : List CustomValidator}
    (hdesc : (b :: rest').Pairwise fun a b => b.card.priority ≤ a.card.priority)
    (hfilter : ∀ p : Int, (a :: rest).filter (fun c => c.card.priority = p) =
      (b :: rest').filter fun c => c.card.priority = p) :
    a.card.priority ≤ b.card.priority := by
  have hmem : a ∈ (b :: rest').filter fun c => c.card.priority = a.card.priority := by
    rw [← hfilter]
    simp
  rcases List.mem_cons.mp (List.mem_filter.mp hmem).1 with rfl | hin
  · exact Int.le_refl _
  · exact (List.pairwise_cons.mp hdesc).1 a hin

/-- A list can be arranged in only one way. -/
theorem unique (h : Arranges run given) (h' : Arranges run' given) : run = run' := by
  have hlength : run.length = run'.length := h.perm.length_eq.trans h'.perm.length_eq.symm
  have hfilter := fun p => (h.stable p).trans (h'.stable p).symm
  have hdesc := h.descending
  have hdesc' := h'.descending
  -- the tails arrange no list that is given, but have still the same members of each priority
  clear h h'
  induction run generalizing run' with
  | nil => exact (List.eq_nil_of_length_eq_zero hlength.symm).symm
  | cons a rest ih =>
      cases run' with
      | nil => cases hlength
      | cons b rest' =>
          have hpriority : a.card.priority = b.card.priority :=
            Int.le_antisymm (priority_head_le hdesc' hfilter)
              (priority_head_le hdesc fun p => (hfilter p).symm)
          have hhead := hfilter a.card.priority
          rw [List.filter_cons_of_pos (by simp), List.filter_cons_of_pos (by simp [hpriority])]
            at hhead
          obtain ⟨rfl, -⟩ := List.cons.inj hhead
          have hrest : rest = rest' := by
            refine ih (Nat.succ.inj hlength) (fun p => ?_) hdesc.of_cons hdesc'.of_cons
            have hp := hfilter p
            rw [List.filter_cons, List.filter_cons] at hp
            split at hp
            · exact (List.cons.inj hp).2
            · exact hp
          rw [hrest]

theorem nil : Arranges [] [] := ⟨.nil, .nil, fun _ => rfl⟩

/-- To leave some out keeps the arrangement of the others. -/
theorem filter (h : Arranges run given) (keep : CustomValidator → Bool) :
    Arranges (run.filter keep) (given.filter keep) where
  perm := h.perm.filter keep
  descending := h.descending.filter keep
  stable p := by
    rw [List.filter_comm, h.stable p, List.filter_comm]

/-- To register one more arranges it behind those of its priority. -/
theorem register {v : Validator} (h : Arranges v.customValidators given) (c : CustomValidator) :
    Arranges (v.register c).customValidators (given ++ [c]) := by
  have hdesc : v.registrations.Pairwise fun a b => b.priority ≤ a.priority :=
    List.pairwise_map.mp h.descending
  refine ⟨?_, ?_, ?_⟩
  · have hinsert : (v.register c).customValidators.Perm (c :: v.customValidators) :=
      (Registration.perm_insertInOrder _ _).map _
    exact (hinsert.trans (h.perm.cons c)).trans (List.perm_append_singleton c given).symm
  · exact List.pairwise_map.mpr (Registration.pairwise_insertInOrder _ hdesc)
  · -- the list of the validator holds registrations, of which only the validators are compared
    intro p
    have hmap : ∀ rs : List Registration,
        (rs.map (·.validator)).filter (fun c => c.card.priority = p) =
          (rs.filter fun r => r.priority = p).map (·.validator) :=
      fun rs => List.filter_map
    show ((Registration.insertInOrder ⟨v.next, c⟩ v.registrations).map (·.validator)).filter _ = _
    rw [hmap, Registration.filter_insertInOrder ⟨v.next, c⟩ hdesc, ← hmap, List.map_append,
      List.filter_append, List.filter_append, ← h.stable p]
    rfl

end Arranges

/-! ### Any history -/

namespace Validator

/-- After any history the custom validators are arranged as they run. -/
theorem arranges_after (history : List Change) :
    Arranges (after {} history).customValidators (survivors history) := by
  induction history using List.reverseRecOn with
  | nil => exact Arranges.nil
  | append_singleton earlier change ih =>
      rw [after_append_singleton]
      cases change with
      | register c =>
          rw [survivors_append_register]
          exact ih.register c
      | unregister name =>
          rw [survivors_append_unregister]
          show Arranges (unregister _ name).customValidators _
          rw [customValidators_unregister]
          exact ih.filter _

/-- The registrations have numbers of their own, all of them below the next one. -/
structure Numbered (v : Validator) : Prop where
  nodup : (v.registrations.map (·.number)).Nodup
  lt_next : ∀ r ∈ v.registrations, r.number < v.next

/-- A new registration gets a number of its own. -/
theorem Numbered.register {v : Validator} (h : v.Numbered) (c : CustomValidator) :
    (v.register c).Numbered := by
  have hperm := Registration.perm_insertInOrder ⟨v.next, c⟩ v.registrations
  refine ⟨?_, ?_⟩
  · show ((Registration.insertInOrder _ _).map (·.number)).Nodup
    rw [(hperm.map _).nodup_iff, List.map_cons, List.nodup_cons]
    refine ⟨?_, h.nodup⟩
    intro hmem
    obtain ⟨r, hr, hnumber⟩ := List.mem_map.mp hmem
    exact Nat.lt_irrefl _ (hnumber ▸ h.lt_next r hr)
  · intro r hr
    rcases Registration.mem_insertInOrder.mp hr with rfl | hr
    · exact Nat.lt_succ_self v.next
    · exact Nat.lt_succ_of_lt (h.lt_next r hr)

theorem Numbered.unregister {v : Validator} (h : v.Numbered) (name : String) :
    (v.unregister name).Numbered where
  nodup := h.nodup.sublist (List.filter_sublist.map _)
  lt_next r hr := h.lt_next r (List.mem_filter.mp hr).1

/-- After any history the registrations have numbers of their own. -/
theorem numbered_after (history : List Change) : (after {} history).Numbered := by
  induction history using List.reverseRecOn with
  | nil => exact ⟨.nil, fun r hr => absurd hr (List.not_mem_nil)⟩
  | append_singleton earlier change ih =>
      rw [after_append_singleton]
      cases change with
      | register c => exact ih.register c
      | unregister name => exact ih.unregister name

theorem numbered_after_ofList (cs : List CustomValidator) (history : List Change) :
    ((ofList cs).after history).Numbered := by
  rw [after_ofList]
  exact numbered_after _

/-- **The registrations after any history.** A validator is made from a list, and then custom
validators are registered and unregistered. At the end it has those that are left of the
history, in run order, which leaves no choice. A name counts as registered if one of them has
it; to unregister it then takes all those away and nothing else. -/
theorem customValidators_after (cs : List CustomValidator) (history : List Change) :
    let v := (ofList cs).after history
    let left := survivors (cs.map .register ++ history)
    (Arranges v.customValidators left ∧ ∀ run, Arranges run left → run = v.customValidators) ∧
      v.count = left.length ∧
      ∀ name, (v.isRegistered name = true ↔ ∃ c ∈ v.customValidators, c.card.name = name) ∧
        (v.isRegistered name = true ↔ (v.unregister name).count ≠ v.count) ∧
        (v.unregister name).customValidators =
          v.customValidators.filter fun c => c.card.name ≠ name := by
  intro v left
  have harranges : Arranges v.customValidators left := by
    have h := arranges_after (cs.map .register ++ history)
    rw [← after_ofList] at h
    exact h
  refine ⟨⟨harranges, fun run hrun => hrun.unique harranges⟩, ?_, fun name => ?_⟩
  · rw [← harranges.perm.length_eq, count, customValidators, List.length_map]
  · exact ⟨isRegistered_iff, isRegistered_iff_count_ne, customValidators_unregister _ name⟩

end Validator
end PlotGraph
