import PlotGraph.Proofs.Validator.Run

/-!
# Where a run is cancelled

A token that turns cancelled after some looks cancels a run before exactly one of its entries,
or not at all (`Validator.validate_countdown`). What the run leaves behind is then what it had
when it had done the entries before; if the token outlasts the entries, it leaves no trace.

The entries are known beforehand: the enabled stages, and the custom validators in run order.
Only where a custom validator registers another one while the run goes on do more entries follow
(`Validator.lateComer`).
-/

namespace PlotGraph
namespace Validator

open RunState Progress

/-! ### The entries -/

/-- The custom validators that a run comes to: those registered, in run order, unless one of
them can register another. -/
theorem exists_runs_start (v : Validator) (g : Graph) (o : Options) (cancelled : Bool) :
    ∃ custom last, Runs g o ((Stage.enabled o).map Stage.name ++ custom)
        (v.start g o cancelled) last ∧ last.next? g o = none ∧
      ((∀ c ∈ v.customValidators, reserve c.behaviour = 0) →
        custom = v.customValidators.map fun c => customStage c.card.name) := by
  by_cases h : ∀ c ∈ v.customValidators, reserve c.behaviour = 0
  · obtain ⟨last, -, hruns, hlast⟩ := runs_of_reserve g o cancelled h
    exact ⟨_, last, hruns, hlast, fun _ => rfl⟩
  · -- which custom validators there will be only the run itself can tell
    obtain ⟨custom, last, hcustom, hlast⟩ := exists_runs g o ⟨v.stagesDone g o cancelled, [], 0⟩
    exact ⟨custom, last, (runs_enabled v g o cancelled).trans hcustom, hlast, fun hc => absurd hc h⟩

/-! ### The one point of cancellation -/

/-- **Where a run is cancelled.** A run goes through the enabled stages and then through
custom validators, which are those registered, in run order, unless one of them can register
another. With a token that turns cancelled after fewer looks than there are entries, it does as
many entries as there are looks and is cancelled before the next one; with one that turns
cancelled later, it leaves behind what it leaves without a token. With options that are refused
there is no run, and whatever the token says the refusal is the answer. -/
theorem validate_countdown (v : Validator) (g : Graph) (o : Options) (cancelled : Bool) :
    ∃ custom last,
      let entries := (Stage.enabled o).map Stage.name ++ custom
      (Runs g o entries (v.start g o cancelled) last ∧ last.next? g o = none ∧
        v.validate g o .nothing cancelled = ending last.state) ∧
      ((∀ c ∈ v.customValidators, reserve c.behaviour = 0) →
        custom = v.customValidators.map fun c => customStage c.card.name) ∧
      (∀ k, ∀ hk : k < entries.length, ∃ reached,
        Runs g o (entries.take k) (v.start g o cancelled) reached ∧
        v.validate g o (.countdown k) cancelled = cancelledBefore g entries[k] reached.state) ∧
      (∀ k, entries.length ≤ k →
        v.validate g o (.countdown k) cancelled = v.validate g o .nothing cancelled) ∧
      ∀ fields e, Options.ofFields fields = .error e →
        ∀ watch, v.validateFields g fields watch cancelled = .error e := by
  obtain ⟨custom, last, hruns, hlast, hcustom⟩ := exists_runs_start v g o cancelled
  refine ⟨custom, last, ⟨hruns, hlast, validate_of_runs hruns hlast⟩, hcustom, ?_, ?_, ?_⟩
  · intro k hk
    obtain ⟨reached, next, hreached, hnext⟩ := hruns.exists_next? hk
    refine ⟨reached, hreached, ?_⟩
    have hcancelled := validate_countdown_of_next? hreached hnext
    rw [List.length_take_of_le (Nat.le_of_lt hk)] at hcancelled
    exact hcancelled
  · intro k hk
    rw [validate_countdown_of_runs hruns hlast hk, validate_of_runs hruns hlast]
  · intro fields e he watch
    rw [validateFields, he]
    rfl

/-- A validator with one custom validator, which registers a second one when it is called. -/
def lateComer : Validator := .ofList [⟨{ name := "first" },
  .register (fun _ => []) { name := "second", priority := -1 } (.answer fun _ => .nothing)
    (fun _ => []) (fun _ => .nothing) (.answer fun _ => .nothing)⟩]

/-- The second custom validator is an entry more than the validator had registered when the run
began. -/
theorem lateComer_cancelled :
    let entries := (Stage.enabled {}).map Stage.name ++
      lateComer.customValidators.map fun c => customStage c.card.name
    entries.length = 10 ∧
      (lateComer.validate { id := "g" } {} (.countdown 10) false).outcome =
        .error ⟨"g", "custom validator 'second'"⟩ ∧
      ∃ report, (lateComer.validate { id := "g" } {} .nothing false).outcome = .ok report := by
  let g : Graph := { id := "g" }
  -- the stages need not be evaluated, since they leave the custom validators alone
  obtain ⟨t, hfirst, u, hsecond⟩ :
      ∃ t, next? g {} ⟨lateComer.stagesDone g {} false, [], 0⟩ =
        some ("custom validator 'first'", t) ∧
      ∃ u, next? g {} t = some ("custom validator 'second'", u) := ⟨_, rfl, _, rfl⟩
  refine ⟨rfl, ?_, ?_⟩
  · have hcancelled := validate_countdown_of_next?
      ((runs_enabled lateComer g {} false).trans (.step hfirst (.refl t))) hsecond
    exact congrArg RunResult.outcome hcancelled
  · obtain ⟨custom, last, hruns, hlast, -⟩ := exists_runs_start lateComer g {} false
    exact ⟨_, congrArg RunResult.outcome (validate_of_runs hruns hlast)⟩

end Validator
end PlotGraph
