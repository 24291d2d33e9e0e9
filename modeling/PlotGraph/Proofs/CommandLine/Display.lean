import PlotGraph.Proofs.CommandLine.Console
import PlotGraph.Proofs.Json.RoundTrip
import PlotGraph.Proofs.Number.Decimal
import PlotGraph.Proofs.Report.Wire
import PlotGraph.Proofs.Validator.Custom

/-!
# What a console makes of a report

A report goes out as a document or as it is printed. The document holds the report
(`parse_document`), and is written unless the console lacks one of its characters. What is printed
has markup in it, and texts of the author stand in it as they are, so that the markup may be at
fault. It is not if the texts of the report have neither a bracket nor a backslash in them
(`exists_unmarked_of_plain`).
-/

namespace PlotGraph

/-! ### The document of a report -/

section Wordy

open Json (Wordy)

/-- A field that may be missing is wordy if its value is. -/
theorem wordy_optionalField {name : String} {value : Option Value} (h : ∀ v ∈ value, Wordy v) :
    ∀ f ∈ Value.optionalField name value, Wordy f.2 := by
  cases value with
  | none => exact List.forall_mem_nil _
  | some v => exact List.forall_mem_singleton.mpr (h v rfl)

theorem wordy_optionalText (name : String) (text : Option String) :
    ∀ f ∈ Value.optionalText name text, Wordy f.2 := by
  refine wordy_optionalField fun v hv => ?_
  obtain ⟨s, -, rfl⟩ := Option.map_eq_some_iff.mp hv
  exact .str s

/-- A record is wordy if its fields are. -/
theorem Value.IsRecord.wordy {fs : List (String × Value)} (h : (obj fs).IsRecord)
    (hfs : ∀ f ∈ fs, Wordy f.2) : Wordy (obj fs) := by
  obtain ⟨fs', heq, hnodup, -⟩ := h
  cases heq
  exact .obj hnodup hfs

theorem Fix.wordy_toValue (f : Fix) : Wordy f.toValue :=
  (tells.record f).wordy (by simp [Wordy.str, Wordy.bool])

/-- There are no numbers in the shape of a defect, and no field is named twice. -/
theorem Defect.wordy_toValue (d : Defect) : Wordy d.toValue := by
  have hfix : ∀ v ∈ d.fix.map (·.toValue), Wordy v := by
    intro v hv
    obtain ⟨f, -, rfl⟩ := Option.map_eq_some_iff.mp hv
    exact f.wordy_toValue
  refine (tells.record d).wordy ?_
  simp only [List.forall_mem_append, List.forall_mem_cons]
  exact ⟨⟨⟨⟨⟨.str _, .str _, .str _, List.forall_mem_nil _⟩, wordy_optionalText _ _⟩,
    wordy_optionalText _ _⟩, ⟨.str _, List.forall_mem_nil _⟩⟩, wordy_optionalField hfix⟩

theorem Warning.wordy_toValue (w : Warning) : Wordy w.toValue := by
  refine (tells.record w).wordy ?_
  simp only [List.forall_mem_append, List.forall_mem_cons]
  exact ⟨⟨⟨⟨.str _, .str _, .str _, List.forall_mem_nil _⟩, wordy_optionalText _ _⟩,
    wordy_optionalText _ _⟩, wordy_optionalText _ _⟩

theorem Note.wordy_toValue (n : Note) : Wordy n.toValue := by
  refine (tells.record n).wordy ?_
  simp only [List.forall_mem_append, List.forall_mem_cons]
  exact ⟨⟨.str _, .str _, List.forall_mem_nil _⟩, wordy_optionalText _ _⟩

theorem Suggestion.wordy_toValue (s : Suggestion) : Wordy s.toValue := by
  refine (tells.record s).wordy ?_
  simp only [List.forall_mem_append, List.forall_mem_cons]
  exact ⟨⟨⟨.str _, .str _, List.forall_mem_nil _⟩, wordy_optionalText _ _⟩,
    wordy_optionalText _ _⟩

theorem wordy_map {α : Type} {shape : α → Value} (h : ∀ x, Wordy (shape x)) (xs : List α) :
    Wordy (.arr (xs.map shape)) :=
  .arr (List.forall_mem_map.mpr fun x _ => h x)

/-- The wire shape of a report has no numbers in it, and names no field twice. -/
theorem Report.wordy_toValue (r : Report) : Wordy r.toValue := by
  refine (tells.record r).wordy ?_
  simp only [List.forall_mem_cons]
  exact ⟨.bool _, wordy_map Defect.wordy_toValue _, wordy_map Warning.wordy_toValue _,
    wordy_map Note.wordy_toValue _, wordy_map Suggestion.wordy_toValue _, List.forall_mem_nil _⟩

end Wordy

namespace CommandLine

/-- **The document is the report.** What the document of a report holds is its wire shape. -/
theorem parse_document (r : Report) : Json.parse (document r).toList = .ok r.toValue :=
  Json.parse_pretty r.wordy_toValue

/-! ### What is printed of a report -/

/-- A text has neither a bracket nor a backslash. -/
def IsPlain (text : String) : Prop := ∀ ch ∈ text.toList, ch ≠ '[' ∧ ch ≠ '\\'

theorem IsPlain.not_mem {text : String} (h : IsPlain text) : '[' ∉ text.toList :=
  fun hmem => (h '[' hmem).1 rfl

/-- The texts of a report that are printed have neither brackets nor backslashes. -/
structure IsPlainReport (r : Report) : Prop where
  errors : ∀ d ∈ r.errors, IsPlain d.severity.word ∧ IsPlain d.code ∧
    IsPlain ((targetOf d.nodeId d.connectionId).getD "") ∧ IsPlain d.plainMessage
  warnings : ∀ w ∈ r.warnings, IsPlain w.code ∧
    IsPlain ((targetOf w.nodeId w.connectionId).getD "") ∧ IsPlain w.plainMessage
  notes : ∀ n ∈ r.notes, IsPlain n.code ∧ IsPlain (n.nodeId.getD "") ∧ IsPlain n.message
  suggestions : ∀ s ∈ r.suggestions, IsPlain s.kind.word ∧ IsPlain (s.nodeId.getD "") ∧
    IsPlain s.message

/-- The styles of what is printed of a report. -/
def styles : List String := ["red", "yellow", "blue", "cyan", "green"]

/-- The styles of a report are written as styles. -/
theorem isStyle_of_mem {style : String} (h : style ∈ styles) : Console.IsStyle style := by
  have hwords : ∀ style ∈ styles, style ≠ "" ∧ ∀ ch ∈ style.toList, 'a' ≤ ch ∧ ch ≤ 'z' := by
    simp [styles]
  obtain ⟨hne, hletters⟩ := hwords style h
  exact Console.isStyle_of_letters hne hletters

section Console

variable {c : Console} {r : Report}

/-- The console knows the styles of what is printed of a report. -/
def Console.KnowsStyles (c : Console) : Prop :=
  ∀ style ∈ styles, (c.styleOf? { name := style }).isSome = true

/-- A plain text in one of these styles is shown, with whatever stands behind it. -/
theorem Console.KnowsStyles.plain_styled (h : c.KnowsStyles) {style text rest : String}
    (hstyle : style ∈ styles) (htext : IsPlain text) (hrest : '[' ∉ rest.toList) :
    ∃ shown, c.plain (styled style text ++ rest) = .ok shown :=
  c.exists_plain_styled (isStyle_of_mem hstyle) (h style hstyle) htext hrest

/-- The cells of a row of plain texts are shown. -/
theorem Console.KnowsStyles.plain_row (h : c.KnowsStyles) {style level code message : String}
    {target : Option String} (hstyle : style ∈ styles) (hlevel : IsPlain level)
    (hcode : IsPlain code) (htarget : IsPlain (target.getD "")) (hmessage : IsPlain message) :
    ∀ cell ∈ row style level code target message, ∃ shown, c.plain cell = .ok shown := by
  have hempty : '[' ∉ "".toList := by simp
  have hfirst := h.plain_styled hstyle hlevel hempty
  rw [String.append_empty] at hfirst
  simp only [row, List.forall_mem_cons]
  exact ⟨hfirst, c.plain_of_not_mem hcode.not_mem, c.plain_of_not_mem htarget.not_mem,
    c.plain_of_not_mem hmessage.not_mem, List.forall_mem_nil _⟩

/-- All cells of a plain report are shown. -/
theorem Console.KnowsStyles.plain_rows (h : c.KnowsStyles) (hr : IsPlainReport r) :
    ∀ cells ∈ rows r, ∀ cell ∈ cells, ∃ shown, c.plain cell = .ok shown := by
  have hwarning : IsPlain "warning" := by simp [IsPlain]
  have hinfo : IsPlain "info" := by simp [IsPlain]
  have hsuggestion : IsPlain "suggestion" := by simp [IsPlain]
  simp only [rows, List.forall_mem_append, List.forall_mem_map]
  refine ⟨⟨⟨fun d hd => ?_, fun w hw => ?_⟩, fun n hn => ?_⟩, fun s hs => ?_⟩
  · obtain ⟨hlevel, hcode, htarget, hmessage⟩ := hr.errors d hd
    exact h.plain_row (by decide) hlevel hcode htarget hmessage
  · obtain ⟨hcode, htarget, hmessage⟩ := hr.warnings w hw
    exact h.plain_row (by decide) hwarning hcode htarget hmessage
  · obtain ⟨hcode, htarget, hmessage⟩ := hr.notes n hn
    exact h.plain_row (by decide) hinfo hcode htarget hmessage
  · obtain ⟨hcode, htarget, hmessage⟩ := hr.suggestions s hs
    exact h.plain_row (by decide) hsuggestion hcode htarget hmessage

/-- A character of joined parts is one of the parts or of what separates them. -/
theorem not_mem_intercalate {sep : List Char} {parts : List (List Char)} {ch : Char}
    (hsep : ch ∉ sep) (hparts : ∀ part ∈ parts, ch ∉ part) : ch ∉ sep.intercalate parts := by
  induction parts with
  | nil => simp
  | cons part rest ih =>
    obtain ⟨hpart, hrest⟩ := List.forall_mem_cons.mp hparts
    cases rest with
    | nil => simpa using hpart
    | cons next more =>
      simp only [List.intercalate_cons_cons, List.mem_append, not_or]
      exact ⟨⟨hpart, hsep⟩, ih hrest⟩

/-- There are no brackets in the numbers of findings. -/
theorem not_mem_summary (r : Report) : '[' ∉ r.summary.toList := by
  have hcount : ∀ (n : Nat) (noun : String), '[' ∉ noun.toList →
      ∀ part ∈ Report.countText n noun, '[' ∉ part.toList := by
    intro n noun hnoun part hpart
    unfold Report.countText at hpart
    split at hpart
    · cases hpart
    · rw [List.mem_singleton.mp hpart]
      have hdigits : '[' ∉ Decimal.digits n := fun hmem =>
        absurd (Decimal.isDigit_of_mem_digits hmem) (by decide)
      simp [Decimal.ofNat, hdigits, hnoun]
  have hparts : ∀ part ∈ Report.countText r.errors.length "errors" ++
      Report.countText r.warnings.length "warnings" ++ Report.countText r.notes.length "info" ++
      Report.countText r.suggestions.length "suggestions", '[' ∉ part.toList := by
    simp only [List.forall_mem_append]
    exact ⟨⟨⟨hcount _ _ (by decide), hcount _ _ (by decide)⟩, hcount _ _ (by decide)⟩,
      hcount _ _ (by decide)⟩
  unfold Report.summary
  split
  · decide
  · rw [String.toList_intercalate]
    exact not_mem_intercalate (by decide) (List.forall_mem_map.mpr hparts)

/-- Where the texts of a report have neither brackets nor backslashes, its markup is in order. -/
theorem exists_unmarked_of_plain (h : c.KnowsStyles) (hr : IsPlainReport r) :
    ∀ p ∈ printReport r, ∃ p', c.unmarked p = .ok p' := by
  have htable : ∃ p', c.unmarked (.table (tableOf r)) = .ok p' := by
    have hheads : ∀ head ∈ ["Level", "Code", "Target", "Message"], '[' ∉ head.toList := by decide
    exact c.exists_unmarked_table
      (c.plain_of_not_mem (show '[' ∉ "Logic validation".toList by decide))
      (fun head hhead => c.plain_of_not_mem (hheads head hhead)) (h.plain_rows hr)
  have hverdict : ∃ p', c.unmarked (verdict r) = .ok p' := by
    have hsummary : '[' ∉ (" (" ++ (r.summary ++ ")")).toList := by simp [not_mem_summary r]
    refine c.exists_unmarked_markup ?_
    rw [String.append_assoc, String.append_assoc]
    cases r.valid with
    | true =>
      have hvalid : IsPlain "✓ Valid" := by simp [IsPlain]
      exact h.plain_styled (by decide) hvalid hsummary
    | false =>
      have hinvalid : IsPlain "✗ Invalid" := by simp [IsPlain]
      exact h.plain_styled (by decide) hinvalid hsummary
  unfold printReport
  rw [List.forall_mem_append]
  refine ⟨?_, List.forall_mem_singleton.mpr hverdict⟩
  split
  · exact List.forall_mem_nil _
  · exact List.forall_mem_singleton.mpr htable

/-- The first tag of a text closes a style. -/
def Closes (text : String) : Prop :=
  ∃ before inside after, (∀ ch ∈ before, ch ≠ '[' ∧ ch ≠ '\\') ∧
    (∀ ch ∈ inside, isBracket ch = false) ∧
    text.toList = before ++ '[' :: ('/' :: inside ++ ']' :: after)

/-- A text whose first tag closes a style is shown on no console. -/
theorem Closes.exists_plain_eq_error {text : String} (h : Closes text) (c : Console) :
    ∃ f, c.plain text = .error f := by
  obtain ⟨before, inside, after, hbefore, hinside, htext⟩ := h
  obtain ⟨f, hf⟩ := c.feedAll_closing hbefore hinside
  rw [Console.plain, htext, hf]
  exact ⟨f, rfl⟩

/-- It still closes that style with other texts around it. -/
theorem Closes.append {text prior : String} (h : Closes text) (hprior : IsPlain prior)
    (next : String) : Closes (prior ++ text ++ next) := by
  obtain ⟨before, inside, after, hbefore, hinside, htext⟩ := h
  refine ⟨prior.toList ++ before, inside, after ++ next.toList,
    List.forall_mem_append.mpr ⟨hprior, hbefore⟩, hinside, ?_⟩
  simp [htext]

/-- An error with such a message is shown on no console, whether it knows the style of errors or
not. -/
theorem Closes.exists_display_errorLine_eq_error {message : String} (h : Closes message)
    (c : Console) : ∃ f, c.display (errorLine message) = .error f := by
  have herror : IsPlain "Error:" := by simp [IsPlain]
  have hred : Console.IsStyle "red" := isStyle_of_mem (by decide)
  have hfeed : ∃ f, c.feedAll [] (partsOf (styled "red" "Error:" ++ (" " ++ message)).toList) =
      .error f := by
    cases hknown : c.styleOf? { name := "red" } with
    | none => exact c.feedAll_styled_of_eq_none hred hknown herror _
    | some name =>
      have hspace : IsPlain " " := by simp [IsPlain]
      obtain ⟨before, inside, after, hbefore, hinside, htext⟩ := h.append hspace ""
      rw [String.append_empty] at htext
      rw [c.feedAll_styled hred (by rw [hknown]; rfl) herror, htext]
      exact c.feedAll_closing hbefore hinside
  obtain ⟨f, hf⟩ := hfeed
  have hplain : c.plain (styled "red" "Error:" ++ " " ++ message) = .error f := by
    rw [Console.plain, String.append_assoc, hf]
    rfl
  rw [Console.display, errorLine, Console.unmarked, hplain]
  exact ⟨f, rfl⟩

/-- A report with such a text in its rows is shown on no console. -/
theorem exists_fault_of_closes (c : Console) {cells : List String} {cell : String}
    (hcells : cells ∈ rows r) (hcell : cell ∈ cells) (h : Closes cell) :
    ∃ f, (c.displayAll (printReport r)).2 = some f := by
  have hrows : (rows r).isEmpty = false := by
    cases hr : rows r with
    | nil => simp [hr] at hcells
    | cons _ _ => rfl
  have hprint : printReport r = [.table (tableOf r), verdict r] := by
    simp [printReport, hrows]
  obtain ⟨f, hf⟩ := c.exists_unmarked_table_eq_error (t := tableOf r) hcells hcell
    (h.exists_plain_eq_error c)
  have hdisplay : c.display (.table (tableOf r)) = .error f := by
    rw [Console.display, hf]
    rfl
  rw [hprint, Console.displayAll, hdisplay]
  exact ⟨f, rfl⟩

/-- The report on a graph is shown on no console if a node without a position has such a text for
its id. -/
theorem exists_fault_of_unplaced (c : Console) {g : Graph} {n : Node} (hn : n ∈ g.nodes.values)
    (hposition : n.position = none) (hid : Closes n.id) (o : Options) :
    ∃ f, (c.displayAll (printReport (g.validate o))).2 = some f := by
  have hne : n.id ≠ "" := by
    rintro hempty
    obtain ⟨before, inside, after, -, -, htext⟩ := hid
    simp [hempty] at htext
  -- the first of its warnings is that it has no position
  obtain ⟨w, hw, hnode⟩ : ∃ w ∈ n.checkPosition.warnings, w.nodeId = anchor n.id := by
    rw [Node.checkPosition, hposition]
    exact ⟨_, List.mem_singleton_self _, rfl⟩
  have hcheck : w ∈ (n.check g.incident).warnings := by
    rw [Node.check, Report.warnings_concat]
    exact List.mem_flatMap.mpr ⟨n.checkPosition, by simp, hw⟩
  have hnodes : w ∈ (Stage.nodes.report g o).warnings := by
    rw [Stage.report, Graph.checkNodes, Report.warnings_concat]
    exact List.mem_flatMap.mpr ⟨_, List.mem_map_of_mem hn, hcheck⟩
  have hvalidate : w ∈ (g.validate o).warnings := by
    rw [Validator.validate_eq_finalize]
    show w ∈ (g.findings o).warnings
    rw [Graph.findings, Report.warnings_concat]
    exact List.mem_flatMap.mpr ⟨_, List.mem_map_of_mem (Stage.mem_enabled.mpr rfl), hnodes⟩
  have htarget : (targetOf w.nodeId w.connectionId).getD "" = n.id := by
    simp [targetOf, hnode, anchor, hne, Option.filter]
  have hrow : row "yellow" "warning" w.code (targetOf w.nodeId w.connectionId) w.plainMessage ∈
      rows (g.validate o) := by
    simp only [rows, List.mem_append, List.mem_map]
    exact .inl (.inl (.inr ⟨w, hvalidate, rfl⟩))
  have hcell : n.id ∈ row "yellow" "warning" w.code (targetOf w.nodeId w.connectionId)
      w.plainMessage := by simp [row, htarget]
  exact exists_fault_of_closes c hrow hcell hid

end Console

end CommandLine
end PlotGraph
