import PlotGraph.Proofs.CommandLine.Display
import PlotGraph.Proofs.CommandLine.Limits
import PlotGraph.Proofs.Graph.Refusal

/-!
# What comes of files that cannot be loaded

Options that cannot be loaded from a file are always reported with the path of the file
(`ConfigFile.reports_load`). A graph that cannot be loaded is, unless its bytes are no text, a
number in it has too many digits, or a coordinate of it is past the floating-point range
(`GraphFile.reports_load_iff`): these faults end a command without an exit code.
-/

namespace PlotGraph

/-! ### Options -/

namespace ConfigFile

/-- Options are loaded, or it is reported why not, with the path of the file. -/
def Reports (p : Path) (result : Except Failure Options) : Prop :=
  (∃ o, result = .ok o) ∨ ∃ reason, result = .error (.load ⟨p, reason⟩)

/-- Whatever stands at the path, options are loaded or it is reported why not. -/
theorem reports_load {files : Files} {p : Path} (h : files.Answers p) (env : Environment) :
    Reports p (load files env p) := by
  obtain ⟨opened, hread⟩ := Files.read_of_answers h
  cases hload : load files env p with
  | ok o => exact .inl ⟨o, rfl⟩
  | error e =>
    simp only [load, hread, bind_eq_error_iff, mapError_eq_error_iff, mapError_eq_ok_iff] at hload
    obtain ⟨_, hnone, -⟩ | ⟨_, -, reason, -, rfl⟩ := hload
    · cases hnone
    · exact .inr ⟨reason, rfl⟩

end ConfigFile

/-! ### Graphs -/

namespace Graph

/-- An object is a graph exactly if none of its coordinates is past the range. -/
theorem exists_ofValue_obj_iff (fields : List (String × Value)) :
    (∃ g, ofValue (.obj fields) = .ok g) ↔
      ∀ key axis, ¬ IsPastRange (.obj fields) key axis := by
  by_cases h : pastRange (.obj fields) = []
  · refine iff_of_true ⟨_, ofValue_of_pastRange_eq_nil h⟩ fun key axis hpast => ?_
    simpa [h] using (mem_pastRange_iff _ key axis).mpr hpast
  · refine iff_of_false ?_ fun hnone => ?_
    · rintro ⟨g, hg⟩
      rw [ofValue_of_pastRange_ne_nil h] at hg
      cases hg
    · obtain ⟨⟨key, axis⟩, hmem⟩ := List.exists_mem_of_ne_nil _ h
      exact hnone key axis ((mem_pastRange_iff _ key axis).mp hmem)

end Graph

namespace GraphFile

/-- A graph is loaded, or it is reported why not, with the path of the file. -/
def Reports (p : Path) (result : Except Failure Graph) : Prop :=
  (∃ g, result = .ok g) ∨ ∃ f, result = .error (.fault p f)

/-- A document holds a graph with a coordinate past the floating-point range. -/
def HoldsPastRange (document : Value) : Prop :=
  ∃ fields key axis, unwrap document = .obj fields ∧ Graph.IsPastRange (.obj fields) key axis

/-- Bytes are at fault in a way that is not reported with the path of the file. -/
def Escapes (bytes : List UInt8) : Prop :=
  (∃ e, Text.Utf8.decode bytes = .error e) ∨
    ∃ cs, Text.Utf8.decode bytes = .ok cs ∧
      ((∃ n, Json.parse (Text.Lines.normalize cs) = .error (.tooManyDigits n)) ∨
        ∃ document, Json.parse (Text.Lines.normalize cs) = .ok document ∧
          HoldsPastRange document)

theorem reports_error_iff {p : Path} {e : Failure} :
    Reports p (.error e) ↔ ∃ f, e = .fault p f := by
  simp [Reports]

theorem reports_mapError_refused_iff (p : Path) (result : Except ReadError Graph) :
    Reports p (result.mapError .refused) ↔ ∃ g, result = .ok g := by
  simp [Reports, mapError_eq_ok_iff, mapError_eq_error_iff]

/-- What a document holds is reported on unless a coordinate is past the range. -/
theorem reports_readGraph_iff (p : Path) (document : Value) :
    Reports p (readGraph p document) ↔ ¬ HoldsPastRange document := by
  unfold readGraph HoldsPastRange
  cases hv : unwrap document with
  | obj fields =>
    show Reports p ((Graph.ofValue (.obj fields)).mapError .refused) ↔ _
    rw [reports_mapError_refused_iff, Graph.exists_ofValue_obj_iff]
    simp
  | _ =>
    -- not an object, which is reported
    refine iff_of_true (.inr ⟨_, rfl⟩) ?_
    rintro ⟨fields, key, axis, heq, -⟩
    cases heq

/-- A text is reported on unless a number in it has too many digits or a coordinate is past the
range. -/
theorem reports_readDocument_iff (p : Path) (cs : List Char) :
    Reports p (readDocument p cs >>= readGraph p) ↔
      ¬ ((∃ n, Json.parse cs = .error (.tooManyDigits n)) ∨
        ∃ document, Json.parse cs = .ok document ∧ HoldsPastRange document) := by
  unfold readDocument
  cases hparse : Json.parse cs with
  | ok document =>
    show Reports p (readGraph p document) ↔ _
    simp [reports_readGraph_iff]
  | error e =>
    cases e with
    | malformed problem place => exact iff_of_true (.inr ⟨_, rfl⟩) (by simp)
    | tooManyDigits n =>
      show Reports p (.error (.tooManyDigits n)) ↔ _
      simp [reports_error_iff]

/-- Some file is at a path whose bytes are at fault in a way that is not reported with it. -/
def EscapesAt (files : Files) (p : Path) : Prop :=
  ∃ bytes, files.get p = .ok (.file bytes) ∧ Escapes bytes

/-- A graph is loaded, or it is reported why not, exactly if the bytes of its file are not at
fault in one of these ways. -/
theorem reports_load_iff {files : Files} {p : Path} (h : files.Answers p) :
    Reports p (load files p) ↔ ¬ EscapesAt files p := by
  unfold load Files.read EscapesAt
  cases hget : files.get p with
  | error problem =>
    refine iff_of_true ?_ (by simp)
    cases problem with
    | nameTooLong => exact absurd hget h
    | _ => exact .inr ⟨.unopened .missing, rfl⟩
  | ok entry =>
    cases entry with
    | directory => exact iff_of_true (.inr ⟨.unopened .directory, rfl⟩) (by simp)
    | file bytes =>
      show Reports p ((Text.Utf8.decode bytes).mapError .undecodable >>= fun cs =>
        readDocument p (Text.Lines.normalize cs) >>= readGraph p) ↔ _
      cases hdecode : Text.Utf8.decode bytes with
      | error e =>
        show Reports p (.error (.undecodable e)) ↔ _
        simp [reports_error_iff, Escapes, hdecode]
      | ok cs =>
        refine (reports_readDocument_iff p (Text.Lines.normalize cs)).trans ?_
        simp [Escapes, hdecode]

/-- A fault is reported with the path that was to be loaded. -/
theorem path_eq_of_load {files : Files} {p q : Path} {f : Fault}
    (h : load files p = .error (.fault q f)) : q = p := by
  simp only [load, readDocument, readGraph, bind_eq_error_iff, mapError_eq_error_iff] at h
  obtain ⟨_, -, h⟩ | ⟨_, -, ⟨_, -, h⟩ | ⟨_, -, ⟨_, -, h⟩ | ⟨_, -, h | ⟨document, -, h⟩⟩⟩⟩ := h
  · cases h
  · cases h
    rfl
  · cases h
  · split at h <;> cases h
    rfl
  · split at h
    · obtain ⟨_, -, h⟩ := mapError_eq_error_iff.mp h
      cases h
    · cases h
      rfl

end GraphFile

/-! ### Commands -/

namespace CommandLine

/-- Whether there is a default configuration file can always be told. -/
theorem answers_default (files : Files) : files.Answers (Path.ofText defaultConfigName) := by
  have hpath : Path.ofText defaultConfigName = ⟨.here, ["storylogic.yaml"]⟩ := rfl
  rw [hpath]
  exact Files.answers_of_name (by decide) (by decide) files

/-- Options are in force, or it is reported why not. -/
theorem loadOptions_reports {files : Files} {env : ConfigFile.Environment} {given : Option Path}
    (h : ∀ p, configPath env given = some p → files.Answers p) :
    (∃ o, loadOptions files env given = .ok o) ∨
      ∃ e, loadOptions files env given = .error (.load e) := by
  have hload : ∀ p, files.Answers p → (∃ o, ConfigFile.load files env p = .ok o) ∨
      ∃ e, ConfigFile.load files env p = .error (.load e) := fun p hp =>
    (ConfigFile.reports_load hp env).imp id fun ⟨reason, hreason⟩ => ⟨⟨p, reason⟩, hreason⟩
  unfold loadOptions
  cases hpath : configPath env given with
  | some p => exact hload p (h p hpath)
  | none =>
    obtain ⟨found, hfound⟩ := Files.contains_of_answers (answers_default files)
    simp only [hfound]
    cases found with
    | true => exact hload _ (answers_default files)
    | false => exact .inl ⟨{}, rfl⟩

/-- What a validation says when the options or the graph cannot be loaded, and it is reported
why. -/
def loadingError? (files : Files) (env : ConfigFile.Environment) (v : Validation) :
    Option String :=
  match loadOptions files env v.config with
  | .error (.load e) => some e.message
  | .error (.inaccessible _) => none
  | .ok _ =>
    match GraphFile.load files v.graph with
    | .error (.fault p f) => some (GraphFile.loadMessage p (f.message p))
    | _ => none

section Ends

variable {files : Files} {env : ConfigFile.Environment} {log : Log.Setup} {v : Validation}

/-- Where options or the graph cannot be loaded, a validation fails with what is reported, or it
ends without an exit code. -/
theorem run_of_loadingError (log : Log.Setup)
    (hfails : (∀ o, loadOptions files env v.config ≠ .ok o) ∨
      ∀ g, GraphFile.load files v.graph ≠ .ok g) :
    match loadingError? files env v with
    | some message => (Command.validate v).run files env log = .ok (failed files log message)
    | none => ∃ e, (Command.validate v).run files env log = .error e := by
  show match loadingError? files env v with
    | some message => validate files env log v = .ok (failed files log message)
    | none => ∃ e, validate files env log v = .error e
  unfold loadingError? validate
  cases hoptions : loadOptions files env v.config with
  | error e =>
    cases e with
    | load e => rfl
    | inaccessible e => exact ⟨_, rfl⟩
  | ok o =>
    -- the options are in force, so it is the graph that cannot be loaded
    have hnone := hfails.resolve_left fun hno => hno o hoptions
    cases hgraph : GraphFile.load files v.graph with
    | ok g => exact absurd hgraph (hnone g)
    | error e =>
      cases e with
      | fault p f => rfl
      | _ => exact ⟨_, rfl⟩

/-- It is reported why options or the graph cannot be loaded, unless the options load and the bytes
of the graph's file are at fault in one of three ways. -/
theorem exists_loadingError_iff (hgraph : files.Answers v.graph)
    (hconfig : ∀ p, configPath env v.config = some p → files.Answers p)
    (hfails : (∀ o, loadOptions files env v.config ≠ .ok o) ∨
      ∀ g, GraphFile.load files v.graph ≠ .ok g) :
    (∃ message, loadingError? files env v = some message) ↔
      (∀ o, loadOptions files env v.config ≠ .ok o) ∨ ¬ GraphFile.EscapesAt files v.graph := by
  rw [← GraphFile.reports_load_iff hgraph]
  unfold loadingError?
  obtain ⟨o, ho⟩ | ⟨e, he⟩ := loadOptions_reports hconfig
  · have hnograph : ∀ g, GraphFile.load files v.graph ≠ .ok g :=
      hfails.resolve_left fun hnone => hnone o ho
    cases hload : GraphFile.load files v.graph with
    | ok g => exact absurd hload (hnograph g)
    | error e =>
      cases e with
      | fault p f =>
        have hpath : p = v.graph := GraphFile.path_eq_of_load hload
        subst hpath
        exact iff_of_true ⟨_, by rw [ho]⟩ (.inr (.inr ⟨f, rfl⟩))
      | _ => simp [ho, GraphFile.reports_error_iff]
  · refine iff_of_true ⟨_, by rw [he]⟩ (.inl fun o ho => ?_)
    rw [he] at ho
    cases ho

/-- A validation that fails with a message ends with the exit code for that if the message can be
shown. -/
theorem ending_failed (c : Console) (message : String) :
    (failed files log message).ending c =
      match c.display (errorLine message) with
      | .ok shown => { status := 2, written := shown }
      | .error f => { status := 1, fault := some (.display f) } := by
  have hprinted : (failed files log message).printed = [errorLine message] := rfl
  rw [Outcome.ending_of_printed rfl rfl, hprinted, Console.displayAll_singleton]
  cases c.display (errorLine message) with
  | ok shown => rfl
  | error f => rfl

end Ends

section Closes

variable {files : Files} {env : ConfigFile.Environment} {log : Log.Setup} {v : Validation}

/-- Where the first tag of what is reported closes a style, the exit status is one on every
console. -/
theorem status_of_closes (c : Console)
    (hfails : (∀ o, loadOptions files env v.config ≠ .ok o) ∨
      ∀ g, GraphFile.load files v.graph ≠ .ok g) {message : String}
    (herror : loadingError? files env v = some message) (hcloses : Closes message) :
    (endingOf c ((Command.validate v).run files env log)).status = 1 := by
  have hrun := run_of_loadingError log hfails
  rw [herror] at hrun
  obtain ⟨f, hf⟩ := hcloses.exists_display_errorLine_eq_error c
  rw [hrun, endingOf, ending_failed, hf]

/-- A message about a path whose first tag closes a style closes it as well. -/
theorem closes_loadMessage {p : Path} (hpath : Closes p.text) (reason : String) :
    Closes (GraphFile.loadMessage p reason) := by
  have hprior : IsPlain "Failed to load logic graph at " := by simp [IsPlain]
  have hcloses := hpath.append hprior (": " ++ reason)
  rw [← String.append_assoc] at hcloses
  exact hcloses

/-- A graph whose fault is reported with such a path: what is reported is shown on no console. -/
theorem status_of_closing_path (c : Console) {o : Options} {f : GraphFile.Fault}
    (hoptions : loadOptions files env v.config = .ok o)
    (hgraph : GraphFile.load files v.graph = .error (.fault v.graph f))
    (hpath : Closes v.graph.text) :
    (endingOf c ((Command.validate v).run files env log)).status = 1 := by
  have hnone : ∀ g, GraphFile.load files v.graph ≠ .ok g := by
    intro g hg
    cases hgraph.symm.trans hg
  have herror : loadingError? files env v =
      some (GraphFile.loadMessage v.graph (f.message v.graph)) := by
    rw [loadingError?, hoptions, hgraph]
  exact status_of_closes c (.inr hnone) herror (closes_loadMessage hpath _)

end Closes

/-! ### A file that is not a text -/

/-- A file with one byte that begins no character. -/
def undecodable : Files := .single ⟨.here, ["g.json"]⟩ [0xff]

theorem answers_undecodable : undecodable.Answers ⟨.here, ["g.json"]⟩ :=
  Files.answers_of_name (by decide) (by decide) undecodable

theorem load_undecodable : GraphFile.load undecodable ⟨.here, ["g.json"]⟩ =
    .error (.undecodable ⟨.startByte, 0xff, 0, 1⟩) := by
  rw [undecodable, load_single_graph]
  decide +kernel

end CommandLine
end PlotGraph
