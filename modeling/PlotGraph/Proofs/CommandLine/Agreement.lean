import PlotGraph.Proofs.CommandLine.Display
import PlotGraph.Proofs.CommandLine.Limits
import PlotGraph.Proofs.CommandLine.Reading
import PlotGraph.Proofs.Validator.Custom
import PlotGraph.Proofs.Validator.Validity

/-!
# The command line and the validator

A command line that validates a graph says which options replace those that were loaded
(`Validates`, `InForce`). What it then reports is what the validator finds in the graph with these
options, and the exit status tells whether that has errors, however the report is shown
(`validate_agrees`).
-/

namespace PlotGraph.CommandLine

open Arguments (Spells Regular read_eq_some_iff)

/-! ### Command lines that validate a graph -/

theorem CommonOption.regular_forms : Regular forms := ⟨by decide, by decide, by decide⟩

theorem ValidationOption.regular_forms : Regular forms := ⟨by decide, by decide, by decide⟩

/-- The words ask for a validation: some options stand before the name of the command, and behind
it stand others and a graph. Nobody asks for help, and what is given for a limit last is an
integer. -/
structure Validates (words : List String) (common : Arguments CommonOption)
    (a : Arguments ValidationOption) (graph : String) : Prop where
  said : ∃ rest, Spells CommonOption.forms false words common ∧
    common.operands = "validate" :: rest ∧ Spells ValidationOption.forms true rest a
  operands : a.operands = [graph]
  noHelp : common.has .help = false ∧ a.has .help = false
  integers : ∀ l, ∀ value ∈ a.last? (.limit l), ∃ k, Decimal.readInt? value.toList = some k

/-- What is asked of the validation. -/
def validationOf (a : Arguments ValidationOption) (graph : String) : Validation where
  graph := .ofText graph
  config := (a.last? .config).map Path.ofText
  overrides := overridesOf a
  asJson := a.has .json

variable {words : List String} {common : Arguments CommonOption}
  {a : Arguments ValidationOption} {graph : String}

/-- The limits are integers exactly if what is given last for each of them is read as one. -/
theorem limitsAreIntegers_iff : limitsAreIntegers a = true ↔
    ∀ l, ∀ value ∈ a.last? (.limit l), ∃ k, Decimal.readInt? value.toList = some k := by
  rw [limitsAreIntegers, List.all_eq_true]
  constructor
  · intro h l value hvalue
    have hl := h l l.mem_all
    rw [Option.mem_def.mp hvalue] at hl
    exact Option.isSome_iff_exists.mp hl
  · intro h l _
    cases hvalue : a.last? (.limit l) with
    | none => rfl
    | some value => exact Option.isSome_iff_exists.mpr (h l value hvalue)

/-- The words behind the name of the command ask for the validation. -/
theorem readValidation_of_validates (hwords : Validates words common a graph) :
    ∃ rest, common.operands = "validate" :: rest ∧
      readValidation rest = .command (.validate (validationOf a graph)) := by
  obtain ⟨rest, -, hcommon, hsaid⟩ := hwords.said
  refine ⟨rest, hcommon, ?_⟩
  rw [readValidation, (read_eq_some_iff ValidationOption.regular_forms).mpr hsaid]
  simp only [hwords.noHelp.2, hwords.operands, limitsAreIntegers_iff.mpr hwords.integers]
  rfl

/-- Words that ask for a validation are taken for it. -/
theorem ofWords_of_validates (hwords : Validates words common a graph) :
    Request.ofWords words =
      .invocation (invocationOf common (.command (.validate (validationOf a graph)))) := by
  obtain ⟨-, hsaid, -, -⟩ := hwords.said
  obtain ⟨rest, hrest, hread⟩ := readValidation_of_validates hwords
  rw [Request.ofWords, (read_eq_some_iff CommonOption.regular_forms).mpr hsaid]
  simp only [hwords.noHelp.1, hrest, readCommand?, hread]
  rfl

/-- Only such words are taken for a validation. -/
theorem exists_validates_of_ofWords {i : Invocation} {v : Validation}
    (hwords : Request.ofWords words = .invocation i)
    (hrequest : i.request = .command (.validate v)) :
    ∃ common a graph, Validates words common a graph ∧
      i = invocationOf common (.command (.validate (validationOf a graph))) := by
  obtain ⟨common, rest, hread, hhelp, hcommon, hi, hvalidation⟩ :=
    exists_common_of_ofWords hwords hrequest
  rw [readValidation] at hvalidation
  split at hvalidation
  · cases hvalidation
  · next a hsaid =>
      split at hvalidation
      · cases hvalidation
      · next hnone =>
          split at hvalidation
          · next graph hoperands hintegers =>
              refine ⟨common, a, graph, ⟨⟨rest, ?_, hcommon, ?_⟩, hoperands, ⟨hhelp, ?_⟩, ?_⟩, ?_⟩
              · exact (read_eq_some_iff CommonOption.regular_forms).mp hread
              · exact (read_eq_some_iff ValidationOption.regular_forms).mp hsaid
              · simpa using hnone
              · exact limitsAreIntegers_iff.mp hintegers
              · rw [hi, hrequest, ← hvalidation]
                rfl
          · cases hvalidation

/-- These are all the command lines that validate a graph. -/
theorem exists_validates_iff :
    (∃ common a graph, Validates words common a graph) ↔
      ∃ i v, Request.ofWords words = .invocation i ∧ i.request = .command (.validate v) := by
  constructor
  · rintro ⟨common, a, graph, hwords⟩
    exact ⟨_, _, ofWords_of_validates hwords, rfl⟩
  · rintro ⟨i, v, hwords, hrequest⟩
    obtain ⟨common, a, graph, hvalidates, -⟩ := exists_validates_of_ofWords hwords hrequest
    exact ⟨common, a, graph, hvalidates⟩

/-! ### Options that are replaced -/

/-- The options are those that were loaded, but each switch that is turned off is off, and each
limit that is given has the last integer that is given for it. -/
structure InForce (a : Arguments ValidationOption) (loaded o : Options) : Prop where
  switch : ∀ s, o.switch s = (loaded.switch s && !a.has (.off s))
  given : ∀ l, ∀ value ∈ a.last? (.limit l), Decimal.readInt? value.toList = some (o.limit l)
  kept : ∀ l, a.last? (.limit l) = none → o.limit l = loaded.limit l

/-- What replaces the loaded options is what the words say. -/
theorem inForce_override (o : Options) (hintegers : ∀ l, ∀ value ∈ a.last? (.limit l),
    ∃ k, Decimal.readInt? value.toList = some k) : InForce a o (o.override (overridesOf a)) where
  switch s := by
    rw [Options.switch_override, overridesOf]
    cases hoff : a.has (.off s) <;> simp [hoff]
  given l value hvalue := by
    obtain ⟨k, hk⟩ := hintegers l value hvalue
    rw [Options.limit_override, overridesOf]
    simp [Option.mem_def.mp hvalue, hk]
  kept l hnone := by
    rw [Options.limit_override, overridesOf]
    simp [hnone]

/-- What is said besides how the report is to be shown. -/
def besidesJson (a : Arguments ValidationOption) : List (ValidationOption × String) :=
  a.options.filter fun o => o.1 ≠ .json

section Besides

variable {a' : Arguments ValidationOption} {key : ValidationOption}

/-- An option that is looked for is found among these, unless it is the one left out. -/
theorem ne_json_and_beq (h : key ≠ .json) (o : ValidationOption × String) :
    (decide (o.1 ≠ .json) && o.1 == key) = (o.1 == key) := by
  by_cases heq : o.1 = key
  · simp [heq, h]
  · simp [heq]

/-- Whether an option is given can be told without the one that asks for a document. -/
theorem has_eq (h : key ≠ .json) : a.has key = (besidesJson a).any fun o => o.1 == key := by
  rw [besidesJson, List.any_filter]
  simp only [ne_json_and_beq h]
  rfl

/-- So can what is given for it last. -/
theorem last?_eq (h : key ≠ .json) :
    a.last? key = ((besidesJson a).reverse.find? fun o => o.1 == key).map Prod.snd := by
  rw [besidesJson, ← List.filter_reverse, List.find?_filter]
  simp only [Bool.decide_and, Bool.decide_eq_true, ne_json_and_beq h]
  rfl

/-- Words that differ only in how the report is to be shown replace the same options. -/
theorem overridesOf_congr (h : besidesJson a' = besidesJson a) :
    overridesOf a' = overridesOf a := by
  rw [overridesOf, overridesOf]
  congr 1
  · funext s
    rw [has_eq (by simp), has_eq (by simp), h]
  · funext l
    rw [last?_eq (by simp), last?_eq (by simp), h]

end Besides

/-! ### What is reported -/

/-- What keeps a console from telling what was found, if anything does: an event that comes first
and cannot be shown, a character of the document that cannot be written, or something printed that
cannot be shown. -/
def obstacle? (c : Console) (log : Log.Setup) (o : Options) (r : Report) (asJson : Bool) :
    Option Fault :=
  if isCutShort log o then some .unshowable
  else if asJson then ((document r).toList.find? (!c.writes ·)).map (.display ∘ .unwritable)
  else (c.displayAll (printReport r)).2.map .display

/-- How the command line ends that reports on a graph: with zero exactly if there are no defects and
nothing is in the way. If nothing is, what it has written is the report. -/
structure Ending.Tells (e : Ending) (c : Console) (log : Log.Setup) (o : Options) (r : Report)
    (asJson : Bool) : Prop where
  fault : e.fault = obstacle? c log o r asJson
  status : e.status = if e.fault = none ∧ r.errors = [] then 0 else 1
  document : asJson = true → e.fault = none →
    e.written = Json.pretty r.toValue ++ "\n" ∧ Json.parse e.written.toList = .ok r.toValue
  printed : asJson = false → e.fault = none → e.written = (c.displayAll (printReport r)).1

/-- Two command lines that tell the same report end alike, unless there are no defects and something
is in the way of only one of them. -/
theorem Ending.Tells.status_eq_iff {c : Console} {log : Log.Setup} {o : Options} {r : Report}
    {e e' : Ending} {asJson asJson' : Bool} (h' : e'.Tells c log o r asJson')
    (h : e.Tells c log o r asJson) :
    e'.status = e.status ↔ r.errors ≠ [] ∨ (e'.fault = none ↔ e.fault = none) := by
  rw [h'.status, h.status]
  by_cases hr : r.errors = []
  · by_cases hf' : e'.fault = none <;> by_cases hf : e.fault = none <;> simp [hr, hf', hf]
  · simp [hr]

/-- Only a character that the console cannot write is in the way of a report whose texts have
neither brackets nor backslashes, on a console that knows the styles. -/
theorem obstacle?_of_plain {c : Console} (hstyles : c.KnowsStyles) {r : Report}
    (hr : IsPlainReport r) {log : Log.Setup} {o : Options} (hcut : isCutShort log o = false)
    {asJson : Bool} {f : Fault} (hf : obstacle? c log o r asJson = some f) :
    ∃ ch, c.writes ch = false ∧ f = .display (.unwritable ch) := by
  rw [obstacle?, hcut, if_neg Bool.false_ne_true] at hf
  cases asJson with
  | true =>
    obtain ⟨ch, hch, rfl⟩ := Option.map_eq_some_iff.mp hf
    exact ⟨ch, by simpa using List.find?_some hch, rfl⟩
  | false =>
    obtain ⟨shown, hshown, rfl⟩ := Option.map_eq_some_iff.mp hf
    obtain ⟨ch, hch, rfl⟩ := c.exists_unwritable (exists_unmarked_of_plain hstyles hr) hshown
    exact ⟨ch, hch, rfl⟩

/-- The exit status of such a report tells whether there are defects, if the console can write all
characters. -/
theorem Ending.Tells.status_of_plain {e : Ending} {c : Console} {log : Log.Setup} {o : Options}
    {r : Report} {asJson : Bool} (h : e.Tells c log o r asJson) (hstyles : c.KnowsStyles)
    (hwrites : ∀ ch, c.writes ch = true) (hr : IsPlainReport r) (hcut : isCutShort log o = false) :
    e.status = if r.errors = [] then 0 else 1 := by
  have hfault : e.fault = none := by
    rw [h.fault, Option.eq_none_iff_forall_ne_some]
    intro f hf
    obtain ⟨ch, hch, -⟩ := obstacle?_of_plain hstyles hr hcut hf
    rw [hwrites ch] at hch
    cases hch
  rw [h.status, hfault]
  simp

/-- A report that is not cut short gives the exit code, and either the document or what is
printed. -/
theorem report_eq (files : Files) {log : Log.Setup} (v : Validation) {o : Options} (g : Graph)
    (hcut : isCutShort log o = false) : ∃ log', report files log v o g = {
      exitCode := if (g.validate o).valid then 0 else 1
      printed := if v.asJson then [] else printReport (g.validate o)
      document := if v.asJson then some (document (g.validate o)) else none
      files, log := log' } := by
  rw [report, hcut]
  exact ⟨_, rfl⟩

/-- A report that is made ends the command line as it should. -/
theorem tells_report (c : Console) (files : Files) (log : Log.Setup) (v : Validation)
    (o : Options) (g : Graph) :
    ((report files log v o g).ending c).Tells c log o (g.validate o) v.asJson := by
  have hvalid : (g.validate o).valid = true ↔ (g.validate o).errors = [] := by
    rw [Validator.validate_eq_finalize]
    exact Graph.valid_finalize_iff
  cases hcut : isCutShort log o with
  | true => refine ⟨?_, ?_, ?_, ?_⟩ <;> simp [report, Outcome.ending, obstacle?, hcut]
  | false =>
    obtain ⟨log', hreport⟩ := report_eq files v g hcut
    rw [hreport]
    cases v.asJson with
    | true =>
      rw [Outcome.ending_of_document rfl rfl rfl]
      cases hfind : (document (g.validate o)).toList.find? (!c.writes ·) with
      | some ch => refine ⟨?_, ?_, ?_, ?_⟩ <;> simp [obstacle?, hcut, hfind]
      | none =>
        refine ⟨?_, ?_, fun _ _ => ⟨rfl, parse_document (g.validate o)⟩, ?_⟩
        · simp [obstacle?, hcut, hfind]
        · simp [hvalid]
        · simp
    | false =>
      rw [Outcome.ending_of_printed rfl rfl]
      refine ⟨?_, ?_, ?_, ?_⟩
      · simp [obstacle?, hcut]
      · simp [hvalid, ite_and]
      · simp
      · simp

/-- A graph with a node without a position whose id closes a style is not reported on as it is
printed, whether it is valid or not. -/
theorem status_of_unplaced (c : Console) {files : Files} {log : Log.Setup} {v : Validation}
    {o : Options} {g : Graph} {n : Node} (hn : n ∈ g.nodes.values) (hposition : n.position = none)
    (hid : Closes n.id) (hprinted : v.asJson = false) :
    ((report files log v o g).ending c).status = 1 := by
  have htells := tells_report c files log v o g
  obtain ⟨f, hf⟩ := exists_fault_of_unplaced c hn hposition hid o
  have hobstacle : obstacle? c log o (g.validate o) v.asJson ≠ none := by
    rw [obstacle?, hprinted, hf]
    split
    · exact Option.some_ne_none _
    · exact Option.some_ne_none _
  rw [htells.status, if_neg]
  exact fun h => hobstacle (htells.fault ▸ h.1)

section Run

variable {before files : Files} {env : ConfigFile.Environment} {log : Log.Setup} {o : Options}
  {g : Graph}

/-- Where logging is set up and both files load, the graph is validated. -/
theorem run_of_validates (hwords : Validates words common a graph)
    (hlog : (invocationOf common (.command (.validate (validationOf a graph)))).setUp before =
      .ok (log, files))
    (hoptions : loadOptions files env ((a.last? .config).map Path.ofText) = .ok o)
    (hgraph : GraphFile.load files (.ofText graph) = .ok g) :
    (Request.ofWords words).run before env =
      .ok (report files log (validationOf a graph) (o.override (overridesOf a)) g) := by
  rw [ofWords_of_validates hwords]
  show (Invocation.setUp _ before).mapError _ >>= _ = _
  rw [hlog]
  show validate files env log (validationOf a graph) = _
  rw [validate, validationOf, hoptions, hgraph]

/-- **The command line agrees with the validator unless something is in the way.** Where a command
line asks for a validation, logging is set up, and the options and the graph load, the options in
force are those that were loaded with what is given in their places. If nothing is in the way, the
command line ends with what the validator without custom validators reports on the graph under
these options, as a document that holds the report or as it is printed, and the exit status is one
exactly if there are defects. If something is in the way, the exit status is one. The same words
with and without the option that asks for a document end with the same exit status, unless there
are no defects and something is in the way of only one of the two. -/
theorem validate_agrees (c : Console) (words : List String) (common : Arguments CommonOption)
    (a : Arguments ValidationOption) (graph : String) (hwords : Validates words common a graph)
    (before files : Files) (env : ConfigFile.Environment) (log : Log.Setup) (loaded : Options)
    (g : Graph)
    (hlog : (invocationOf common (.command (.validate (validationOf a graph)))).setUp before =
      .ok (log, files))
    (hoptions : loadOptions files env ((a.last? .config).map Path.ofText) = .ok loaded)
    (hgraph : GraphFile.load files (.ofText graph) = .ok g) :
    ∃ o r e, InForce a loaded o ∧
      (Validator.validate {} g o .nothing false).outcome = .ok r ∧
      endingOf c ((Request.ofWords words).run before env) = e ∧ e.Tells c log o r (a.has .json) ∧
      ∀ words' a', Validates words' common a' graph → besidesJson a' = besidesJson a →
        ∃ e', endingOf c ((Request.ofWords words').run before env) = e' ∧
          e'.Tells c log o r (a'.has .json) ∧
          (e'.status = e.status ↔ r.errors ≠ [] ∨ (e'.fault = none ↔ e.fault = none)) := by
  have hreport : ∀ o, (Validator.validate {} g o .nothing false).outcome = .ok (g.validate o) := by
    intro o
    rw [Validator.validate_eq_finalize]
    exact Validator.outcome_validate 0 g o false
  have hrun := run_of_validates hwords hlog hoptions hgraph
  have htells := tells_report c files log (validationOf a graph) (loaded.override (overridesOf a)) g
  refine ⟨_, _, _, inForce_override loaded hwords.integers, hreport _, congrArg (endingOf c) hrun,
    htells, ?_⟩
  intro words' a' hwords' hbesides
  have hconfig : a'.last? .config = a.last? .config := by
    rw [last?_eq (by simp), last?_eq (by simp), hbesides]
  have hrun' := run_of_validates hwords' hlog (hconfig ▸ hoptions) hgraph
  rw [overridesOf_congr hbesides] at hrun'
  have htells' := tells_report c files log (validationOf a' graph) (loaded.override (overridesOf a)) g
  exact ⟨_, congrArg (endingOf c) hrun', htells', htells'.status_eq_iff htells⟩

end Run

/-- Words behind the name of the command, with options of every kind in several spellings. -/
def mixedRest : List String :=
  ["--no-cycles", "g.json", "--max-depth=0", "--json", "--max-nodes", "3"]

/-- What stands before them. -/
def verboseCommon : Arguments CommonOption where
  options := [(.verbose, "")]
  operands := "validate" :: mixedRest

/-- What they say. -/
def mixedArguments : Arguments ValidationOption where
  options := [(.off .circularDependencies, ""), (.limit .depth, "0"), (.json, ""),
    (.limit .nodeCount, "3")]
  operands := ["g.json"]

theorem spells_verboseCommon :
    Spells CommonOption.forms false ("-v" :: "validate" :: mixedRest) verboseCommon := by
  have hletter : Arguments.Letters CommonOption.forms ['v'] none [(.verbose, "")] :=
    .flag (List.mem_cons_of_mem _ List.mem_cons_self) (by decide) rfl .nil
  have hword : Arguments.Gives CommonOption.forms "-v" none [(.verbose, "")] :=
    .letters (by decide) hletter
  have hrest : Spells CommonOption.forms false ("validate" :: mixedRest)
      { operands := "validate" :: mixedRest } :=
    .operands rfl (by decide)
  exact .options (by decide) hword hrest

theorem validates_mixedRest :
    Validates ("-v" :: "validate" :: mixedRest) verboseCommon mixedArguments "g.json" where
  said := by
    refine ⟨mixedRest, spells_verboseCommon, rfl, ?_⟩
    rw [← read_eq_some_iff ValidationOption.regular_forms]
    decide +kernel
  operands := rfl
  noHelp := by decide
  integers := limitsAreIntegers_iff.mp rfl

/-- A terminal that writes every character. -/
def wide : Console := { Console.terminal with writes := fun _ => true }

/-- One switch is turned off, two limits are given, and all else is as it was. The graph has no
id, so that the exit status is one. -/
theorem validate_mixedRest :
    ∃ o r e, (Validator.validate {} {} o .nothing false).outcome = .ok r ∧
      endingOf wide ((Request.ofWords ("-v" :: "validate" :: mixedRest)).run emptyGraphFile {}) = e ∧
      o.switch .circularDependencies = false ∧ o.switch .deadCode = true ∧
      o.limit .depth = 0 ∧ o.limit .nodeCount = 3 ∧ o.limit .branches = 10 ∧
      Json.parse e.written.toList = .ok r.toValue ∧ e.status = 1 := by
  obtain ⟨o, r, e, hforce, hreport, hrun, htells, -⟩ :=
    validate_agrees wide _ _ _ _ validates_mixedRest emptyGraphFile emptyGraphFile {} _ {} {} rfl
      (loadOptions_single _) load_emptyGraphFile
  have hdepth : Decimal.readInt? "0".toList = some 0 := rfl
  have hnodes : Decimal.readInt? "3".toList = some 3 := rfl
  have herrors : r.errors ≠ [] := by
    cases (Validator.outcome_validate 0 {} o false).symm.trans hreport
    exact fun hnil => (Graph.errors_findings_eq_nil_iff.mp hnil).id rfl
  have hcut : isCutShort (({} : Log.Setup).toConsole 1) o = false := rfl
  have hwrites : (document r).toList.find? (!wide.writes ·) = none := by simp [wide]
  have hfault : e.fault = none := by
    rw [htells.fault]
    show obstacle? wide (({} : Log.Setup).toConsole 1) o r true = none
    rw [obstacle?, hcut, hwrites]
    rfl
  refine ⟨o, r, e, hreport, hrun, hforce.switch _, hforce.switch _, ?_, ?_, hforce.kept _ rfl,
    (htells.document rfl hfault).2, ?_⟩
  · exact Option.some.inj ((hforce.given .depth "0" rfl).symm.trans hdepth)
  · exact Option.some.inj ((hforce.given .nodeCount "3" rfl).symm.trans hnodes)
  · rw [htells.status, if_neg fun h => herrors h.2]

/-- A file with a graph of one node, whose id closes a style. -/
def closingGraphFile : Files := .single ⟨.here, ["g.json"]⟩ (Text.Utf8.encode
  "\x7b\"id\": \"g\", \"nodes\": [\x7b\"id\": \"[/x]\", \"type\": \"start\"\x7d]\x7d")

/-- The node. -/
def closingNode : Node := { id := "[/x]", tag := "start", config := .empty }

/-- The graph. -/
def closingGraph : Graph where
  id := "g"
  nodes := .ofList [("[/x]", closingNode)]
  connections := .empty

theorem load_closingGraphFile :
    GraphFile.load closingGraphFile ⟨.here, ["g.json"]⟩ = .ok closingGraph := by
  rw [closingGraphFile, load_single_graph]
  decide +kernel

/-- The graph has no defects. -/
theorem errors_closingGraph (o : Options) : (closingGraph.validate o).errors = [] := by
  have hnode : closingNode.WellFormed :=
    ⟨by decide, by decide, by decide, by decide⟩
  have hacyclic : closingGraph.Acyclic := by
    intro walk hwalk
    obtain ⟨c, hc⟩ := List.exists_mem_of_ne_nil walk hwalk.nonempty
    cases (hwalk.joins c hc).mem
  rw [Validator.validate_eq_finalize]
  exact Graph.errors_findings_eq_nil_iff.mpr
    ⟨by decide, List.forall_mem_singleton.mpr hnode, List.forall_mem_nil _, fun _ => hacyclic⟩

/-- What words say that only name a graph. -/
def bareArguments : Arguments ValidationOption := { operands := ["g.json"] }

theorem validates_bare :
    Validates ["validate", "g.json"] { operands := ["validate", "g.json"] } bareArguments "g.json" where
  said := ⟨["g.json"], .operands rfl (by decide), rfl,
    (read_eq_some_iff ValidationOption.regular_forms).mp (by decide +kernel)⟩
  operands := rfl
  noHelp := by decide
  integers := limitsAreIntegers_iff.mp rfl

/-- For no console it is so that the exit status of every validation tells whether there are
defects. -/
theorem not_exists_console : ¬ ∃ c : Console, ∀ (words : List String)
    (common : Arguments CommonOption) (a : Arguments ValidationOption) (graph : String)
    (before files : Files) (env : ConfigFile.Environment) (log : Log.Setup) (loaded o : Options)
    (g : Graph), Validates words common a graph →
    (invocationOf common (.command (.validate (validationOf a graph)))).setUp before =
      .ok (log, files) →
    loadOptions files env ((a.last? .config).map Path.ofText) = .ok loaded →
    GraphFile.load files (.ofText graph) = .ok g → InForce a loaded o →
    (endingOf c ((Request.ofWords words).run before env)).status =
      if (g.validate o).errors = [] then 0 else 1 := by
  rintro ⟨c, h⟩
  have hgraph : GraphFile.load closingGraphFile (.ofText "g.json") = .ok closingGraph := by
    rw [show Path.ofText "g.json" = ⟨.here, ["g.json"]⟩ from rfl]
    exact load_closingGraphFile
  have hoptions : loadOptions closingGraphFile {} none = .ok {} := loadOptions_single _
  have hclaimed := h _ _ _ _ closingGraphFile closingGraphFile {} _ {} _ closingGraph
    validates_bare rfl hoptions hgraph
    (inForce_override {} validates_bare.integers)
  have hcloses : Closes closingNode.id :=
    ⟨[], ['x'], [], List.forall_mem_nil _, List.forall_mem_singleton.mpr rfl, rfl⟩
  have hrun := run_of_validates validates_bare rfl hoptions hgraph
  rw [hrun, errors_closingGraph, if_pos rfl, endingOf, status_of_unplaced c
    (List.mem_singleton_self closingNode) rfl hcloses rfl] at hclaimed
  cases hclaimed

end PlotGraph.CommandLine
