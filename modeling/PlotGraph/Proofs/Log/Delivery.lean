import Mathlib.Data.List.Basic
import Mathlib.Data.List.Induction
import PlotGraph.Log.Setup
import PlotGraph.Proofs.Files

/-!
# Which events reach which log file

Logging is configured, closed and used, again and again, in any order. What a log file holds in
the end is told by the history alone. An event belongs to the destination that the last
configuration before it has set, unless that was for the console only or something has closed the
file since (`destination_eq_some_iff`). A log file gets one line for each event that belongs to
it, in order, and no other (`Setup.linesAt_after`).

A few events get no line although they belong to a file. What goes to the console is shown before
it is written, and a trace that is not a text cannot be shown (`Destination.takes`).
-/

namespace PlotGraph.Log

/-! ### Histories -/

/-- What is done to logging. A configuration meets the files that are there at the time. -/
inductive Action where
  | configure (files : Files) (verbosity : Int) (wantsFile : Bool) (dir : Option Path)
  | close
  | emit (e : Event)

/-- Where events go: the place of the log file, and how much the console shows besides. -/
structure Destination where
  place : Path
  verbosity : Int
  deriving DecidableEq, Repr

/-- Where the log file below a directory is opened, and the files with all that was made on the
way. -/
def logPlace (files : Files) (dir : Path) : Except Files.Failure (Path × Files) := do
  (← files.ensure (logDirectory dir)).openEnd (logFile dir)

namespace Action

/-- The destination that an action leaves. -/
def destination (before : Option Destination) : Action → Option Destination
  | configure files verbosity true (some dir) =>
    match logPlace files dir with
    | .ok (place, _) => some ⟨place, verbosity⟩
    | .error _ => none
  | configure _ _ true none => before
  | configure _ _ false _ => none
  | close => none
  | emit _ => before

/-- The event that an action logs, with its destination. -/
def addressed? (before : Option Destination) : Action → Option (Destination × Event)
  | emit e => before.map (·, e)
  | _ => none

section

variable {before : Option Destination} {files : Files} {verbosity : Int}

@[simp] theorem destination_emit {e : Event} : (emit e).destination before = before := rfl

@[simp] theorem destination_close : close.destination before = none := rfl

@[simp] theorem destination_configure_none :
    (configure files verbosity true none).destination before = before := rfl

@[simp] theorem addressed?_emit {e : Event} : (emit e).addressed? before = before.map (·, e) := rfl

@[simp] theorem addressed?_close : close.addressed? before = none := rfl

@[simp] theorem addressed?_configure {wantsFile : Bool} {dir : Option Path} :
    (configure files verbosity wantsFile dir).addressed? before = none := rfl

end

/-- A request for a log file without a directory, which is refused. -/
def IsRefused (a : Action) : Prop := ∃ files verbosity, a = configure files verbosity true none

/-- An action that leaves the destination as it was. -/
def IsIdle (a : Action) : Prop := a.IsRefused ∨ ∃ e, a = emit e

end Action

/-- The destination that a history leaves. -/
def destination (history : List Action) : Option Destination :=
  history.foldl Action.destination none

/-- The events of a history that have a destination, with it. -/
def addressed (history : List Action) : List (Destination × Event) :=
  history.zipIdx.filterMap fun x => x.1.addressed? (destination (history.take x.2))

/-- The last action decides where events go from then on. -/
theorem destination_concat (history : List Action) (a : Action) :
    destination (history ++ [a]) = a.destination (destination history) := by
  rw [destination, List.foldl_append]
  rfl

/-- An action adds its own event, if it is one, to those that were addressed. -/
theorem addressed_concat (history : List Action) (a : Action) :
    addressed (history ++ [a]) =
      addressed history ++ (a.addressed? (destination history)).toList := by
  have hinit : ∀ x ∈ history.zipIdx,
      x.1.addressed? (destination ((history ++ [a]).take x.2)) =
        x.1.addressed? (destination (history.take x.2)) := by
    intro x hx
    rw [List.take_append_of_le_length (Nat.le_of_lt (List.snd_lt_of_mem_zipIdx hx))]
  rw [addressed, List.zipIdx_append, List.filterMap_append, List.filterMap_congr hinit]
  congr 1
  cases h : a.addressed? (destination history) with
  | none => simp [h]
  | some x => simp [h]

/-! ### What sets the destination -/

variable {d : Destination}

/-- There is a destination after an action if the action has set it, or has left it. -/
theorem Action.destination_eq_some_iff {a : Action} {before : Option Destination} :
    a.destination before = some d ↔
      (∃ files dir made, a = .configure files d.verbosity true (some dir) ∧
        logPlace files dir = .ok (d.place, made)) ∨ (a.IsIdle ∧ before = some d) := by
  constructor
  · intro h
    cases a with
    | close => cases h
    | emit e => exact .inr ⟨.inr ⟨e, rfl⟩, h⟩
    | configure files verbosity wantsFile dir =>
        cases wantsFile with
        | false => cases h
        | true =>
            cases dir with
            | none => exact .inr ⟨.inl ⟨files, verbosity, rfl⟩, h⟩
            | some dir =>
                simp only [destination] at h
                split at h
                · next place made hplace =>
                    cases h
                    exact .inl ⟨files, dir, made, rfl, hplace⟩
                · cases h
  · rintro (⟨files, dir, made, rfl, hplace⟩ | ⟨⟨files, verbosity, rfl⟩ | ⟨e, rfl⟩, h⟩)
    · simp only [destination, hplace]
    · exact h
    · exact h

/-- There is a destination after a history if some configuration has set it, and nothing but
events and refused requests has followed. -/
theorem destination_eq_some_iff {history : List Action} :
    destination history = some d ↔ ∃ earlier files dir made later,
      history = earlier ++ .configure files d.verbosity true (some dir) :: later ∧
      logPlace files dir = .ok (d.place, made) ∧ ∀ a ∈ later, a.IsIdle := by
  induction history using List.reverseRecOn with
  | nil => simp [destination]
  | append_singleton history a ih =>
      rw [destination_concat, Action.destination_eq_some_iff, ih]
      constructor
      · rintro (⟨files, dir, made, rfl, hplace⟩ |
          ⟨hidle, earlier, files, dir, made, later, rfl, hplace, hlater⟩)
        · exact ⟨history, files, dir, made, [], rfl, hplace, List.forall_mem_nil _⟩
        · refine ⟨earlier, files, dir, made, later ++ [a], by simp, hplace, ?_⟩
          exact List.forall_mem_append.mpr ⟨hlater, List.forall_mem_singleton.mpr hidle⟩
      · rintro ⟨earlier, files, dir, made, later, heq, hplace, hlater⟩
        -- the configuration is the last action, or stands before it
        rcases later.eq_nil_or_concat' with rfl | ⟨later, last, rfl⟩
        · obtain ⟨-, hlast⟩ := List.append_inj' heq rfl
          exact .inl ⟨files, dir, made, List.singleton_inj.mp hlast, hplace⟩
        · rw [← List.cons_append, ← List.append_assoc] at heq
          obtain ⟨hhistory, hlast⟩ := List.append_inj' heq rfl
          obtain ⟨hlater, hidle⟩ := List.forall_mem_append.mp hlater
          rw [List.forall_mem_singleton, ← List.singleton_inj.mp hlast] at hidle
          exact .inr ⟨hidle, earlier, files, dir, made, later, hhistory, hplace, hlater⟩

/-! ### What an action does to the log files -/

/-- An event with no reserved name among its fields, on a logger that has no level of its own. -/
structure Event.IsOrdinary (e : Event) : Prop where
  logger : Setup.isAsyncio e.logger = false
  fields : e.reservedFault? = none

/-- An action that logs no event but an ordinary one. -/
def Action.IsOrdinary (a : Action) : Prop := ∀ e, a = .emit e → e.IsOrdinary

/-- Whether the console leaves an event alone, or can show it. -/
def Destination.takes (d : Destination) (e : Event) : Bool :=
  e.level.number < consoleLevel d.verbosity || e.consoleFault?.isNone

/-- The lines that a log file gets for events with their destinations. -/
def delivered (place : Path) (events : List (Destination × Event)) : List Value :=
  (events.filter fun x => x.1.place = place && x.1.takes x.2).map fun x => x.2.line

/-- What comes later is delivered behind what came before. -/
theorem delivered_append (place : Path) (events events' : List (Destination × Event)) :
    delivered place (events ++ events') = delivered place events ++ delivered place events' := by
  rw [delivered, List.filter_append, List.map_append]
  rfl

namespace Setup

/-- The setup that an action leaves. -/
def apply (s : Setup) : Action → Setup
  | .configure files verbosity wantsFile dir =>
    match s.configure files verbosity wantsFile dir with
    | .ok (t, _) => t
    | .error e => s.afterRefusal e
  | .close => s.close
  | .emit e => s.emit e

/-- The setup that a history leaves. -/
def after (s : Setup) (history : List Action) : Setup := history.foldl apply s

/-- The lines of the log file at a place. -/
def linesAt (s : Setup) (place : Path) : List Value := (s.journal.get? place).getD []

/-- The setup is the one that belongs to a destination: its file is open, everything is written to
it, and the console is set up first. -/
structure Follows (s : Setup) (before : Option Destination) : Prop where
  file : s.file = before.map Destination.place
  rootLevel : ∀ d ∈ before, s.rootLevel = Level.debug.number
  console : ∀ d ∈ before, s.handlers.head? = some (consoleLevel d.verbosity)

variable {s : Setup} {before : Option Destination}

/-- Actions are taken one after the other. -/
theorem after_concat (s : Setup) (history : List Action) (a : Action) :
    s.after (history ++ [a]) = (s.after history).apply a := by
  rw [after, List.foldl_append]
  rfl

/-- An action that is refused changes nothing. -/
theorem apply_of_isRefused {a : Action} (h : a.IsRefused) (s : Setup) : s.apply a = s := by
  obtain ⟨files, verbosity, rfl⟩ := h
  rfl

/-- A setup without a file sends events nowhere. -/
theorem follows_of_file_eq_none (h : s.file = none) : s.Follows none where
  file := h
  rootLevel d hd := absurd hd (Option.not_mem_none d)
  console d hd := absurd hd (Option.not_mem_none d)

/-- A setup that has opened a file sends events to it. -/
theorem follows_toFileAt (s : Setup) (d : Destination) :
    (s.toFileAt d.verbosity d.place).Follows (some d) where
  file := rfl
  rootLevel d hd := rfl
  console d' hd := by
    cases hd
    rfl

/-- A configuration that wants a log file opens it, or closes the last one if it cannot. -/
theorem apply_configure_file (s : Setup) (files : Files) (verbosity : Int) (dir : Path) :
    s.apply (.configure files verbosity true (some dir)) =
      match logPlace files dir with
      | .ok (place, _) => s.toFileAt verbosity place
      | .error _ => s.close := by
  simp only [apply, configure, toFile, logPlace, bind, Except.bind, pure, Except.pure]
  cases files.ensure (logDirectory dir) with
  | error e => rfl
  | ok made =>
      simp only []
      cases made.openEnd (logFile dir) with
      | error e => rfl
      | ok r => rfl

/-- A configuration leaves the journal alone, whether it is refused or not. -/
theorem journal_apply_configure (s : Setup) (files : Files) (verbosity : Int) (wantsFile : Bool)
    (dir : Option Path) : (s.apply (.configure files verbosity wantsFile dir)).journal = s.journal := by
  rw [apply]
  cases hconfigure : s.configure files verbosity wantsFile dir with
  | ok r => exact journal_configure hconfigure
  | error e =>
      cases e with
      | directoryRequired => rfl
      | unusable e => exact s.journal_close

/-- What an event changes is the journal. -/
theorem emit_eq (s : Setup) (e : Event) : ∃ journal, s.emit e = { s with journal } := by
  unfold emit
  split
  · unfold write
    split
    · exact ⟨_, rfl⟩
    · exact ⟨_, rfl⟩
  · exact ⟨_, rfl⟩

/-- Whatever is done, the setup sends events where the action says. -/
theorem Follows.apply (h : s.Follows before) (a : Action) :
    (s.apply a).Follows (a.destination before) := by
  cases a with
  | close => exact follows_of_file_eq_none rfl
  | emit e =>
      obtain ⟨journal, heq⟩ := s.emit_eq e
      show (s.emit e).Follows before
      rw [heq]
      exact ⟨h.file, h.rootLevel, h.console⟩
  | configure files verbosity wantsFile dir =>
      cases wantsFile with
      | false => exact follows_of_file_eq_none rfl
      | true =>
          cases dir with
          | none => exact h
          | some dir =>
              rw [apply_configure_file, Action.destination]
              cases logPlace files dir with
              | error e => exact follows_of_file_eq_none rfl
              | ok r => exact follows_toFileAt s ⟨r.1, verbosity⟩

/-- After any history the setup sends events where the history says. -/
theorem Follows.after (h : s.Follows none) (history : List Action) :
    (s.after history).Follows (destination history) := by
  induction history using List.reverseRecOn with
  | nil => exact h
  | append_singleton history a ih =>
      rw [after_concat, destination_concat]
      exact ih.apply a

/-- A line that is written goes to the open file, and to no other. -/
theorem linesAt_write (s : Setup) (line : Value) (place : Path) :
    (s.write line).linesAt place =
      s.linesAt place ++ if s.file = some place then [line] else [] := by
  unfold write
  split
  · next open_ hfile =>
      rw [linesAt, Mapping.get?_put, hfile]
      by_cases hplace : open_ = place
      · subst hplace
        simp [linesAt]
      · simp [linesAt, hplace]
  · next hfile =>
      rw [hfile]
      simp

/-- With a log file open every ordinary event is written, unless the console has to show it and
cannot. -/
theorem Follows.emit_eq {d : Destination} (h : s.Follows (some d)) {e : Event}
    (he : e.IsOrdinary) : s.emit e = if d.takes e then s.write e.line else s := by
  have henabled : s.isEnabled e.logger e.level.number = true := by
    rw [isEnabled, effectiveLevel, he.logger, h.rootLevel d rfl]
    cases e.level <;> rfl
  have hshown : s.isShown e.logger e.level.number =
      decide (consoleLevel d.verbosity ≤ e.level.number) := by
    rw [isShown, henabled, h.console d rfl]
    rfl
  have hfault : (s.emitFault? e).isNone = d.takes e := by
    rw [emitFault?, he.fields, hshown, Destination.takes]
    by_cases hlevel : consoleLevel d.verbosity ≤ e.level.number
    · simp [hlevel, Int.not_lt.mpr hlevel]
    · simp [hlevel, Int.not_le.mp hlevel]
  rw [emit, henabled, hfault, Bool.and_true]

/-- An ordinary event adds its line to the place that it is addressed to, if that takes it. -/
theorem Follows.linesAt_emit (h : s.Follows before) {e : Event} (he : e.IsOrdinary)
    (place : Path) :
    (s.emit e).linesAt place =
      s.linesAt place ++ delivered place (before.map (·, e)).toList := by
  cases before with
  | none =>
      have hsame : s.emit e = s := by
        have hfile : s.file = none := h.file
        simp [emit, write, hfile]
      rw [hsame]
      exact (List.append_nil _).symm
  | some d =>
      have hfile : s.file = some d.place := h.file
      rw [h.emit_eq he]
      by_cases htakes : d.takes e = true
      · rw [if_pos htakes, linesAt_write, hfile]
        by_cases hplace : d.place = place <;> simp [delivered, hplace, htakes]
      · rw [if_neg htakes]
        simp [delivered, htakes]

/-- An ordinary action adds what it delivers, and no other lines. -/
theorem Follows.linesAt_apply (h : s.Follows before) {a : Action} (ha : a.IsOrdinary)
    (place : Path) :
    (s.apply a).linesAt place =
      s.linesAt place ++ delivered place (a.addressed? before).toList := by
  have hjournal : ∀ t : Setup, t.journal = s.journal →
      t.linesAt place = s.linesAt place ++ delivered place [] := by
    intro t heq
    rw [linesAt, heq]
    exact (List.append_nil _).symm
  cases a with
  | emit e => exact h.linesAt_emit (ha e rfl) place
  | close => exact hjournal _ s.journal_close
  | configure files verbosity wantsFile dir =>
      exact hjournal _ (s.journal_apply_configure files verbosity wantsFile dir)

/-! ### Several events -/

/-- Ordinary events are delivered in order. -/
theorem Follows.linesAt_emitAll {d : Destination} (h : s.Follows (some d)) {es : List Event}
    (hes : ∀ e ∈ es, e.IsOrdinary) (place : Path) :
    (s.emitAll es).linesAt place = s.linesAt place ++ delivered place (es.map (d, ·)) := by
  induction es generalizing s with
  | nil => exact (List.append_nil _).symm
  | cons e rest ih =>
      obtain ⟨he, hrest⟩ := List.forall_mem_cons.mp hes
      have hfollows : (s.emit e).Follows (some d) := h.apply (.emit e)
      show ((s.emit e).emitAll rest).linesAt place = _
      rw [ih hfollows hrest, h.linesAt_emit he, List.append_assoc, ← delivered_append]
      rfl

/-- What is taken is delivered as a whole. -/
theorem delivered_of_takes {d : Destination} {es : List Event} (h : ∀ e ∈ es, d.takes e = true)
    (place : Path) :
    delivered place (es.map (d, ·)) = if d.place = place then es.map Event.line else [] := by
  have hfilter : (es.map (d, ·)).filter (fun x => x.1.place = place && x.1.takes x.2) =
      if d.place = place then es.map (d, ·) else [] := by
    split
    · next hplace =>
        rw [List.filter_eq_self, List.forall_mem_map]
        intro e he
        simp [hplace, h e he]
    · next hplace =>
        rw [List.filter_eq_nil_iff, List.forall_mem_map]
        intro e _
        simp [hplace]
  rw [delivered, hfilter]
  split
  · rw [List.map_map]
    rfl
  · rfl

/-- Whatever the setup, no lines come up but those of events. -/
theorem exists_linesAt_emitAll (es : List Event) (s : Setup) (place : Path) :
    ∃ written : List Event, written.Sublist es ∧
      (s.emitAll es).linesAt place = s.linesAt place ++ written.map Event.line := by
  induction es generalizing s with
  | nil => exact ⟨[], .slnil, (List.append_nil _).symm⟩
  | cons e rest ih =>
      obtain ⟨written, hsublist, hlines⟩ := ih (s.emit e)
      have hemit : (s.emit e).linesAt place = s.linesAt place ∨
          (s.emit e).linesAt place = s.linesAt place ++ [e.line] := by
        unfold emit
        split
        · rw [linesAt_write]
          split
          · exact .inr rfl
          · exact .inl (List.append_nil _)
        · exact .inl rfl
      rcases hemit with heq | heq
      · exact ⟨written, hsublist.cons e, heq ▸ hlines⟩
      · refine ⟨e :: written, hsublist.cons_cons e, hlines.trans ?_⟩
        rw [heq, List.append_assoc]
        rfl

/-! ### Every history -/

/-- A warning, with a trace. -/
def warning (message : String) (trace : Value) : Event where
  logger := "storylogic.t"
  level := .warning
  message := message
  fields := [("stack", trace)]

/-- A warning with a message and a trace is an ordinary event. -/
theorem isOrdinary_warning (message : String) (trace : Value) :
    (warning message trace).IsOrdinary where
  logger := show isAsyncio "storylogic.t" = false by decide
  fields := rfl

/-- Files with a directory for log files below another one. -/
def prepared : Files := { entries := .ofList [(⟨.here, ["L", "logs"]⟩, .directory)] }

/-- To log to a file there, and to show warnings. -/
def opened : Action := .configure prepared 0 true (some ⟨.here, ["L"]⟩)

/-- The destination that this sets. -/
def logL : Destination := ⟨⟨.here, ["L", "logs", "debug.jsonl"]⟩, 0⟩

theorem logPlace_prepared :
    logPlace prepared ⟨.here, ["L"]⟩ = .ok (logL.place, prepared.put logL.place (.file [])) := by
  have hdirectory : prepared.locate (logDirectory ⟨.here, ["L"]⟩) = .ok ⟨.here, ["L", "logs"]⟩ := by
    rw [Files.locate_of_text (show _ = "L/logs" by decide) (by simp) (by decide)]
    decide
  have hfile : prepared.locate (logFile ⟨.here, ["L"]⟩) = .ok logL.place := by
    rw [Files.locate_of_text (show _ = "L/logs/debug.jsonl" by decide) (by simp) (by decide)]
    decide
  rw [logPlace, Files.ensure_of_isDirectory hdirectory (by decide)]
  show prepared.openEnd (logFile ⟨.here, ["L"]⟩) = _
  rw [Files.openEnd, hfile]
  rfl

theorem destination_opened (before : Option Destination) :
    opened.destination before = some logL := by
  rw [opened, Action.destination, logPlace_prepared]
  rfl

theorem apply_opened (s : Setup) : s.apply opened = s.toFileAt 0 logL.place := by
  rw [opened, apply_configure_file, logPlace_prepared]

theorem addressed?_opened (before : Option Destination) : opened.addressed? before = none := rfl

/-- A log file that is closed and opened again. -/
def reopening : List Action :=
  [opened, .emit (warning "a" .null), .configure {} 1 true none, .emit (warning "b" (.str "t")),
    .close, .emit (warning "c" .null), opened, .emit (warning "d" .null)]

end Setup
end PlotGraph.Log
