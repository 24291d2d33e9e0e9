import PlotGraph.Proofs.Check.Isolation
import PlotGraph.Proofs.Check.Limits
import PlotGraph.Proofs.Check.SelfConnection
import PlotGraph.Proofs.Check.Suggestion
import PlotGraph.Proofs.Check.WireRule
import PlotGraph.Proofs.Graph.Listed
import PlotGraph.Proofs.Report.Wire
import PlotGraph.Proofs.Validator.Custom

/-!
# Empty anchors

A finding names the node and the connection it is about. A node or connection whose own id is
empty is not named at all (`anchor`). Four findings go by a key instead: the node at which a
cycle closes, a node that is not reached, one with too many branches and one to be joined with
the next. These give the key as it is, and a node may stand under the empty key, as may the
source of a connection be empty. Where that is so, and only there, a finding is anchored at an
empty id (`Graph.validate_anchors`).
-/

namespace PlotGraph

/-! ### What findings are about -/

/-- The node and the connection that a finding names, with its code; a suggestion has its kind in
place of a code. -/
structure Place where
  word : String
  nodeId : Option String
  connectionId : Option String
  deriving DecidableEq, Repr

/-- Neither id is given but empty. -/
def Place.Anchored (p : Place) : Prop := p.nodeId ≠ some "" ∧ p.connectionId ≠ some ""

/-- What a defect is about. -/
def Defect.place (d : Defect) : Place := ⟨d.code, d.nodeId, d.connectionId⟩

/-- What a warning is about. -/
def Warning.place (w : Warning) : Place := ⟨w.code, w.nodeId, w.connectionId⟩

/-- What a note is about. -/
def Note.place (n : Note) : Place := ⟨n.code, n.nodeId, none⟩

/-- What a suggestion is about. -/
def Suggestion.place (s : Suggestion) : Place := ⟨s.kind.word, s.nodeId, none⟩

/-- An anchor is never the empty id. -/
@[simp] theorem anchor_ne_some_empty (id : String) : anchor id ≠ some "" := by
  rw [anchor]
  split
  · simp
  · next h => simpa using h

namespace Report

/-- What the findings of a report are about. -/
def places (r : Report) : List Place :=
  r.errors.map (·.place) ++ r.warnings.map (·.place) ++ r.notes.map (·.place) ++
    r.suggestions.map (·.place)

/-- No finding names an empty id. -/
def Anchored (r : Report) : Prop := ∀ p ∈ r.places, p.Anchored

variable {r : Report} {rs : List Report} {p : Place}

/-- The places of a report are those of its findings. -/
theorem mem_places : p ∈ r.places ↔
    (∃ d ∈ r.errors, d.place = p) ∨ (∃ w ∈ r.warnings, w.place = p) ∨
      (∃ n ∈ r.notes, n.place = p) ∨ ∃ s ∈ r.suggestions, s.place = p := by
  simp only [places, List.mem_append, List.mem_map, or_assoc]

/-- The places of several reports are those of each. -/
theorem mem_places_concat : p ∈ (concat rs).places ↔ ∃ r ∈ rs, p ∈ r.places := by
  simp only [mem_places, errors_concat, warnings_concat, notes_concat, suggestions_concat,
    List.mem_flatMap]
  grind

/-- Several reports are anchored exactly if each of them is. -/
theorem anchored_concat_iff : (concat rs).Anchored ↔ ∀ r ∈ rs, r.Anchored := by
  simp only [Anchored, mem_places_concat]
  grind

@[simp] theorem anchored_empty : ({} : Report).Anchored := List.forall_mem_nil _

/-- A report under a condition has to be anchored only where the condition holds. -/
@[simp] theorem anchored_when_iff {condition : Bool} :
    (when condition r).Anchored ↔ (condition = true → r.Anchored) := by
  cases condition <;> simp [when]

@[simp] theorem anchored_ofDefect_iff {d : Defect} : (ofDefect d).Anchored ↔ d.place.Anchored := by
  simp [Anchored, places, ofDefect]

@[simp] theorem anchored_ofWarning_iff {w : Warning} :
    (ofWarning w).Anchored ↔ w.place.Anchored := by
  simp [Anchored, places, ofWarning]

@[simp] theorem anchored_ofNote_iff {n : Note} : (ofNote n).Anchored ↔ n.place.Anchored := by
  simp [Anchored, places, ofNote]

@[simp] theorem anchored_ofSuggestion_iff {s : Suggestion} :
    (ofSuggestion s).Anchored ↔ s.place.Anchored := by
  simp [Anchored, places, ofSuggestion]

/-- A finding under the word names the empty id as its node. -/
def NamesEmpty (r : Report) (word : String) : Prop :=
  ∃ p ∈ r.places, p.word = word ∧ p.nodeId = some ""

/-- Where all is anchored, nothing names the empty id. -/
theorem Anchored.not_namesEmpty (h : r.Anchored) (word : String) : ¬ r.NamesEmpty word := by
  rintro ⟨p, hp, -, hnode⟩
  exact (h p hp).1 hnode

/-- Several reports name the empty id exactly if one of them does. -/
theorem namesEmpty_concat_iff {word : String} :
    (concat rs).NamesEmpty word ↔ ∃ r ∈ rs, r.NamesEmpty word := by
  simp only [NamesEmpty, mem_places_concat]
  grind

/-- Findings under one word that name each node by a key name the empty id if that is a key. -/
theorem namesEmpty_of_places {σ : Type} {subjects : List σ} {code word : String}
    {key : σ → String} {connection : σ → Option String}
    (h : r.places = subjects.map fun s => ⟨code, some (key s), connection s⟩) :
    r.NamesEmpty word ↔ word = code ∧ ∃ s ∈ subjects, key s = "" := by
  simp only [NamesEmpty, h, List.mem_map]
  grind

/-- No finding names the empty id as its connection. -/
def NamesConnections (r : Report) : Prop := ∀ p ∈ r.places, p.connectionId ≠ some ""

/-- Where all is anchored, connections are named by ids that they have. -/
theorem Anchored.namesConnections (h : r.Anchored) : r.NamesConnections :=
  fun p hp => (h p hp).2

/-- It is enough to look at each of several reports. -/
theorem namesConnections_concat_iff :
    (concat rs).NamesConnections ↔ ∀ r ∈ rs, r.NamesConnections := by
  simp only [NamesConnections, mem_places_concat]
  grind

/-- A family of findings names connections by their ids if each of the places does. -/
theorem namesConnections_of_places {σ : Type} {subjects : List σ} {place : σ → Place}
    (h : r.places = subjects.map place)
    (hconnection : ∀ s ∈ subjects, (place s).connectionId ≠ some "") : r.NamesConnections := by
  rw [NamesConnections, h, List.forall_mem_map]
  exact hconnection

end Report

/-! ### Checks that name nothing by a key -/

namespace Node

/-- What is found in the content of a node is anchored. -/
theorem anchored_checkContent (n : Node) (c : Category) : (n.checkContent c).Anchored := by
  cases c <;> simp [checkContent, checkCondition, checkAction, checkVariable, checkEvent,
    checkCustom, Defect.place, Warning.place, Note.place, Place.Anchored]

/-- What is found about the type of a node is anchored. -/
theorem anchored_checkTag (n : Node) : n.checkTag.Anchored := by
  rw [checkTag]
  split
  · simp [Defect.place, Place.Anchored]
  · split
    · exact n.anchored_checkContent _
    · simp [Warning.place, Place.Anchored]

/-- All that is found about a node is anchored. -/
theorem anchored_check (n : Node) (incident : Mapping String Nat) :
    (n.check incident).Anchored := by
  simp [check, Report.anchored_concat_iff, anchored_checkTag, checkId, checkPosition,
    checkConnected, Defect.place, Warning.place, Place.Anchored]

end Node

namespace Connection

/-- What is found about the wire of a connection is anchored. -/
theorem anchored_checkWire (c : Connection) (g : Graph) (code : String) :
    (c.checkWire g code).Anchored := by
  rw [checkWire]
  split
  · next w hw =>
      rw [eq_wireWarning_of_wireFinding? hw, wireWarning]
      split <;> simp [Warning.place, Place.Anchored]
  · exact Report.anchored_empty

/-- A connection that leads back to its source names it; its source is not empty then. -/
theorem anchored_checkSelfLoop (c : Connection) : c.checkSelfLoop.Anchored := by
  simp [checkSelfLoop, isSelfLoop_iff, Defect.place, Place.Anchored]

/-- All that is found about a connection is anchored. -/
theorem anchored_check (c : Connection) (g : Graph) (counts : Mapping EdgeKey Nat) :
    (c.check g counts).Anchored := by
  simp [check, Report.anchored_concat_iff, anchored_checkWire, anchored_checkSelfLoop, checkId,
    checkSource, checkTarget, checkDuplicate, Defect.place, Warning.place, Place.Anchored]

end Connection

namespace Graph

theorem anchored_checkStructure (g : Graph) : g.checkStructure.Anchored := by
  have hentries : g.checkEntries.Anchored := by
    rw [checkEntries]
    split
    · simp [emptyWarning, Warning.place, Place.Anchored]
    · split <;> simp [noEntryWarning, manyEntriesWarning, Warning.place, Place.Anchored]
  simp [checkStructure, Report.anchored_concat_iff, hentries, checkId, Defect.place,
    Place.Anchored]

theorem anchored_checkNodes (g : Graph) : g.checkNodes.Anchored :=
  Report.anchored_concat_iff.mpr
    (List.forall_mem_map.mpr fun n _ => n.anchored_check g.incident)

theorem anchored_checkConnections (g : Graph) : g.checkConnections.Anchored :=
  Report.anchored_concat_iff.mpr
    (List.forall_mem_map.mpr fun c _ => c.anchored_check g g.edgeCounts)

theorem anchored_checkTypes (g : Graph) : g.checkTypes.Anchored :=
  Report.anchored_concat_iff.mpr
    (List.forall_mem_map.mpr fun c _ => c.anchored_checkWire g Connection.typeCode)

theorem anchored_checkExits (g : Graph) : g.checkExits.Anchored := by
  simp [checkExits, Note.place, Place.Anchored]

theorem anchored_suggestComments (g : Graph) : g.suggestComments.Anchored := by
  simp [suggestComments, commentSuggestion, Suggestion.place, Place.Anchored]

/-- Only the limit on branches is about single nodes. -/
theorem anchored_checkLimit (g : Graph) (o : Options) {l : Limit} (h : l ≠ .branches) :
    (g.checkLimit o l).Anchored := by
  cases l with
  | branches => exact absurd rfl h
  | nodeCount =>
      simp [checkLimit, checkNodeCount, nodeCountWarning, Warning.place, Place.Anchored]
  | connectionCount =>
      simp [checkLimit, checkConnectionCount, connectionCountWarning, Warning.place,
        Place.Anchored]
  | depth => simp [checkLimit, checkDepth, depthWarning, Warning.place, Place.Anchored]

/-! ### Checks that name a node by its key -/

/-- The finding about a cycle is at the source of its closing connection. -/
theorem places_checkCycles (g : Graph) : g.checkCycles.places = g.findCycles.map fun c =>
    ⟨"CIRCULAR_DEPENDENCY", some c.closing.source, anchor c.closing.id⟩ := by
  simp [Report.places, checkCycles, Function.comp_def, Defect.place, cycleDefect]

/-- The finding about a dead node is at its key. -/
theorem places_checkDeadCode (g : Graph) : g.checkDeadCode.places =
    (if g.startKeys.isEmpty then [] else g.deadNodes).map fun e =>
      ⟨"UNREACHABLE_NODE", some e.1, none⟩ := by
  rw [checkDeadCode]
  split
  · rfl
  · simp [Report.places, Function.comp_def, Warning.place, unreachableWarning]

/-- The finding about too many branches is at the source. -/
theorem places_checkBranches (g : Graph) (o : Options) : (g.checkBranches o).places =
    (g.sourceCounts.filter fun e => o.maxBranches < e.2).map fun e =>
      ⟨"TOO_MANY_BRANCHES", some e.1, none⟩ := by
  rw [Report.places, warnings_checkBranches]
  simp [checkBranches, Function.comp_def, Warning.place, branchesWarning]

/-- The suggestion to join two actions is at the key of the first. -/
theorem places_suggestJoins (g : Graph) : g.suggestJoins.places =
    (g.nodes.keys.filter fun key => g.HandsOn key).map fun key =>
      ⟨"simplification", some key, none⟩ := by
  rw [Report.places, suggestJoins_eq]
  simp [suggestJoins, Function.comp_def, Suggestion.place, joinSuggestion,
    SuggestionKind.simplification]

variable {g : Graph} {word : String}

/-- Dead code names the empty id where a node stands under the empty key and is not reached. -/
theorem namesEmpty_checkDeadCode_iff : g.checkDeadCode.NamesEmpty word ↔
    word = "UNREACHABLE_NODE" ∧ g.HasStart ∧
      ∃ n ∈ g.node? "", n.tag ≠ "comment" ∧ ¬ g.Reached g.startKeys "" := by
  rw [Report.namesEmpty_of_places g.places_checkDeadCode]
  refine and_congr_right fun _ => ?_
  by_cases hstart : g.HasStart
  · rw [if_neg fun h => g.startKeys_isEmpty_iff.mp h hstart]
    simp only [hstart, true_and]
    constructor
    · rintro ⟨⟨key, n⟩, he, rfl⟩
      have hnode : g.node? "" = some n :=
        (g.nodes.get?_eq_some_iff "" n).mpr (List.mem_filter.mp he).1
      exact ⟨n, hnode, ((mem_deadNodes_iff hnode).mp he).symm⟩
    · rintro ⟨n, hnode, htag, hreached⟩
      exact ⟨("", n), (mem_deadNodes_iff hnode).mpr ⟨hreached, htag⟩, rfl⟩
  · rw [if_pos (g.startKeys_isEmpty_iff.mpr hstart)]
    simp [hstart]

/-- Too many branches name the empty id where they come from the empty source. -/
theorem namesEmpty_checkBranches_iff {o : Options} : (g.checkBranches o).NamesEmpty word ↔
    word = "TOO_MANY_BRANCHES" ∧ (∃ c ∈ g.wires, c.source = "") ∧
      o.maxBranches < g.wires.countP fun c => c.source = "" := by
  rw [Report.namesEmpty_of_places (g.places_checkBranches o)]
  refine and_congr_right fun _ => ?_
  have hsome : (g.wires.countP fun c => c.source = "") ≠ 0 ↔ ∃ c ∈ g.wires, c.source = "" := by
    rw [← Nat.pos_iff_ne_zero, List.countP_pos_iff]
    simp only [decide_eq_true_iff]
  rw [← hsome]
  simp only [List.mem_filter, decide_eq_true_iff, Prod.exists, mem_sourceCounts]
  constructor
  · rintro ⟨key, count, ⟨⟨hne, rfl⟩, hmany⟩, rfl⟩
    exact ⟨hne, hmany⟩
  · rintro ⟨hne, hmany⟩
    exact ⟨"", _, ⟨⟨hne, rfl⟩, hmany⟩, rfl⟩

/-- A suggestion to join names the empty id where the node under the empty key hands on. -/
theorem namesEmpty_suggestJoins_iff : g.suggestJoins.NamesEmpty word ↔
    word = "simplification" ∧ g.HandsOn "" := by
  rw [Report.namesEmpty_of_places g.places_suggestJoins]
  refine and_congr_right fun _ => ?_
  simp only [List.mem_filter, decide_eq_true_iff, exists_eq_right, and_iff_right_iff_imp]
  rintro ⟨⟨n, hnode, -⟩, -⟩
  exact List.mem_map_of_mem ((g.nodes.get?_eq_some_iff "" n).mp hnode)

end Graph

/-! ### Passes -/

namespace Stage

/-- When a pass has a finding that names the empty id as its node, and the word of that finding. -/
def AnchorsAtEmpty (g : Graph) (o : Options) (word : String) : Stage → Prop
  | .circularDependencies =>
    word = "CIRCULAR_DEPENDENCY" ∧ ∃ c ∈ g.findCycles, c.closing.source = ""
  | .deadCode =>
    word = "UNREACHABLE_NODE" ∧ g.HasStart ∧
      ∃ n ∈ g.node? "", n.tag ≠ "comment" ∧ ¬ g.Reached g.startKeys ""
  | .performance =>
    word = "TOO_MANY_BRANCHES" ∧ (∃ c ∈ g.wires, c.source = "") ∧
      o.maxBranches < g.wires.countP fun c => c.source = ""
  | .suggestions => word = "simplification" ∧ g.HandsOn ""
  | .outline | .nodes | .connections | .reachability | .typeCompatibility => False

variable {g : Graph} {o : Options} {word : String}

/-- A stage names the empty id exactly where it anchors at the empty key. -/
theorem namesEmpty_report_iff (stage : Stage) :
    (stage.report g o).NamesEmpty word ↔ stage.AnchorsAtEmpty g o word := by
  cases stage with
  | outline => exact iff_of_false (g.anchored_checkStructure.not_namesEmpty word) id
  | nodes => exact iff_of_false (g.anchored_checkNodes.not_namesEmpty word) id
  | connections => exact iff_of_false (g.anchored_checkConnections.not_namesEmpty word) id
  | reachability => exact iff_of_false (g.anchored_checkExits.not_namesEmpty word) id
  | typeCompatibility => exact iff_of_false (g.anchored_checkTypes.not_namesEmpty word) id
  | circularDependencies => exact Report.namesEmpty_of_places g.places_checkCycles
  | deadCode => exact Graph.namesEmpty_checkDeadCode_iff
  | performance =>
      show (g.checkPerformance o).NamesEmpty word ↔ _
      rw [g.checkPerformance_eq, Report.namesEmpty_concat_iff]
      constructor
      · rintro ⟨r, hr, h⟩
        obtain ⟨l, -, rfl⟩ := List.mem_map.mp hr
        by_cases hl : l = .branches
        · subst hl
          exact Graph.namesEmpty_checkBranches_iff.mp h
        · exact absurd h ((g.anchored_checkLimit o hl).not_namesEmpty word)
      · intro h
        exact ⟨g.checkLimit o .branches, List.mem_map_of_mem (by decide),
          Graph.namesEmpty_checkBranches_iff.mpr h⟩
  | suggestions =>
      show g.suggest.NamesEmpty word ↔ _
      have hcomments := g.anchored_suggestComments.not_namesEmpty word
      simp [Graph.suggest, Report.namesEmpty_concat_iff, hcomments,
        Graph.namesEmpty_suggestJoins_iff, AnchorsAtEmpty]

/-- No stage names a connection by an empty id. -/
theorem namesConnections_report (stage : Stage) : (stage.report g o).NamesConnections := by
  cases stage with
  | outline => exact g.anchored_checkStructure.namesConnections
  | nodes => exact g.anchored_checkNodes.namesConnections
  | connections => exact g.anchored_checkConnections.namesConnections
  | reachability => exact g.anchored_checkExits.namesConnections
  | typeCompatibility => exact g.anchored_checkTypes.namesConnections
  | circularDependencies =>
      exact Report.namesConnections_of_places g.places_checkCycles
        fun c _ => anchor_ne_some_empty c.closing.id
  | deadCode => exact Report.namesConnections_of_places g.places_checkDeadCode fun _ _ => by simp
  | performance =>
      show (g.checkPerformance o).NamesConnections
      rw [g.checkPerformance_eq, Report.namesConnections_concat_iff, List.forall_mem_map]
      intro l _
      by_cases hl : l = .branches
      · subst hl
        exact Report.namesConnections_of_places (g.places_checkBranches o) fun _ _ => by simp
      · exact (g.anchored_checkLimit o hl).namesConnections
  | suggestions =>
      have hjoins : g.suggestJoins.NamesConnections :=
        Report.namesConnections_of_places g.places_suggestJoins fun _ _ => by simp
      have hcomments := g.anchored_suggestComments.namesConnections
      show g.suggest.NamesConnections
      simp [Graph.suggest, Report.namesConnections_concat_iff, hjoins, hcomments]

/-- Only a node under the empty key or a connection without a source makes an anchor empty. -/
theorem AnchorsAtEmpty.hasNode_or_source {stage : Stage} (h : stage.AnchorsAtEmpty g o word) :
    g.hasNode "" = true ∨ ∃ c ∈ g.wires, c.source = "" := by
  cases stage with
  | circularDependencies =>
      obtain ⟨-, c, hc, hsource⟩ := h
      exact .inl (hsource ▸ (Graph.genuine_of_mem_findCycles hc).closing.source)
  | deadCode =>
      obtain ⟨-, -, n, hnode, -⟩ := h
      exact .inl (Option.isSome_iff_exists.mpr ⟨n, hnode⟩)
  | performance => exact .inr h.2.1
  | suggestions =>
      obtain ⟨-, -, c, hc, hsource, -⟩ := h
      exact .inr ⟨c, hc, hsource⟩
  | outline | nodes | connections | reachability | typeCompatibility => exact h.elim

end Stage

/-! ### The wire shape -/

/-- The findings in the wire shape of a report, whatever their kind. -/
def Value.findings (v : Value) : List Value :=
  ["errors", "warnings", "info", "suggestions"].flatMap fun list =>
    match v.field? list with
    | some (.arr items) => items
    | _ => []

theorem Note.connectionId_toValue (n : Note) : n.toValue.field? "connectionId" = none := by
  simp [toValue, Value.field?, Pairs.lookup]

theorem Suggestion.connectionId_toValue (s : Suggestion) :
    s.toValue.field? "connectionId" = none := by
  simp [toValue, Value.field?, Pairs.lookup_append, Pairs.lookup]

/-- The ids in the wire shape are those that the findings name. -/
theorem Report.ids_toValue (r : Report) :
    (r.toValue.findings.map fun v => (v.field? "nodeId", v.field? "connectionId")) =
      r.places.map fun p => (p.nodeId.map Value.str, p.connectionId.map Value.str) := by
  obtain ⟨-, herrors, hwarnings, hnotes, hsuggestions⟩ := r.field?_toValue
  simp only [Value.findings, List.flatMap_cons, List.flatMap_nil, herrors, hwarnings, hnotes,
    hsuggestions, places, List.map_append, List.map_map, List.append_nil, List.append_assoc,
    Function.comp_def, Defect.field?_toValue, Warning.field?_toValue, Note.field?_toValue,
    Suggestion.field?_toValue, Note.connectionId_toValue, Suggestion.connectionId_toValue]
  rfl

/-! ### Whole runs -/

namespace Graph

/-- A report names the empty id exactly if an enabled stage anchors at the empty key. -/
theorem namesEmpty_validate_iff {g : Graph} {o : Options} {word : String} :
    (g.validate o).NamesEmpty word ↔
      ∃ stage ∈ Stage.enabled o, stage.AnchorsAtEmpty g o word := by
  rw [Validator.validate_eq_finalize]
  show (g.findings o).NamesEmpty word ↔ _
  rw [findings, Report.namesEmpty_concat_iff]
  simp only [List.mem_map, exists_exists_and_eq_and, Stage.namesEmpty_report_iff]

/-- No report names a connection by an empty id. -/
theorem namesConnections_validate (g : Graph) (o : Options) :
    (g.validate o).NamesConnections := by
  rw [Validator.validate_eq_finalize]
  show (g.findings o).NamesConnections
  rw [findings, Report.namesConnections_concat_iff, List.forall_mem_map]
  exact fun stage _ => stage.namesConnections_report

/-- **Where findings have empty anchors.** No finding of a run without custom validators names the
empty id as its connection. One names it as its node exactly if an enabled pass has cause to: if
a cycle closes at the empty key, if no start node reaches the node under it, if too many
connections leave it, or if the action under it is to be joined with the next. So all anchors
are absent or not empty if no node stands under the empty key and no connection is without a
source. The wire shape has the very ids that the findings name. -/
theorem validate_anchors (g : Graph) (o : Options) :
    (∀ p ∈ (g.validate o).places, p.connectionId ≠ some "") ∧
    (∀ word, (∃ p ∈ (g.validate o).places, p.word = word ∧ p.nodeId = some "") ↔
      ∃ stage ∈ Stage.enabled o, stage.AnchorsAtEmpty g o word) ∧
    (g.hasNode "" = false → (∀ c ∈ g.wires, c.source ≠ "") → (g.validate o).Anchored) ∧
    ((g.validate o).toValue.findings.map fun v => (v.field? "nodeId", v.field? "connectionId")) =
      (g.validate o).places.map fun p =>
        (p.nodeId.map Value.str, p.connectionId.map Value.str) := by
  refine ⟨g.namesConnections_validate o, fun word => namesEmpty_validate_iff, ?_,
    Report.ids_toValue _⟩
  intro hnode hsource p hp
  refine ⟨fun hempty => ?_, g.namesConnections_validate o p hp⟩
  obtain ⟨stage, -, h⟩ := namesEmpty_validate_iff.mp ⟨p, hp, rfl, hempty⟩
  rcases h.hasNode_or_source with hfound | ⟨c, hc, hnone⟩
  · rw [hnode] at hfound
    cases hfound
  · exact hsource c hc hnone

/-- An object with a start node, and an end node under the empty key. -/
def emptyKeyed : Value :=
  .obj [("id", .str "g"), ("nodes", .obj [("s", .obj [("id", .str "s"), ("type", .str "start")]),
    ("", .obj [("id", .str "x"), ("type", .str "end")])])]

/-- Nothing leads to the end node. -/
theorem emptyKeyed_anchorsAtEmpty :
    Stage.AnchorsAtEmpty (ofFields emptyKeyed) {} "UNREACHABLE_NODE" .deadCode := by
  have hstarts : (ofFields emptyKeyed).startKeys = ["s"] := rfl
  have hwires : (ofFields emptyKeyed).wires = [] := rfl
  refine ⟨rfl, ?_, _, rfl, by decide +kernel, fun hreached => ?_⟩
  · exact not_not.mp (mt (startKeys_isEmpty_iff _).mpr (by rw [hstarts]; decide))
  · rcases hreached.mem_or_leads with hroot | ⟨u, -, c, hc, -⟩
    · rw [hstarts] at hroot
      revert hroot
      decide
    · rw [hwires] at hc
      cases hc

/-- The finding about it has an empty anchor. Where neither a key nor a source is empty, a source
without a node makes no difference. -/
theorem emptyKeyed_anchors :
    (∃ p ∈ ((ofFields emptyKeyed).validate {}).places,
      p.word = "UNREACHABLE_NODE" ∧ p.nodeId = some "") ∧
    crossed.hasNode "" = false ∧ (∀ c ∈ crossed.wires, c.source ≠ "") ∧
    (crossed.validate tooLow).Anchored := by
  have hnode : crossed.hasNode "" = false := by decide
  have hsource : ∀ c ∈ crossed.wires, c.source ≠ "" := by decide
  obtain ⟨-, hempty, -, -⟩ := validate_anchors (ofFields emptyKeyed) {}
  obtain ⟨-, -, hanchored, -⟩ := validate_anchors crossed tooLow
  exact ⟨(hempty "UNREACHABLE_NODE").mpr ⟨.deadCode, by decide, emptyKeyed_anchorsAtEmpty⟩,
    hnode, hsource, hanchored hnode hsource⟩

/-- Not all anchors are absent or not empty. -/
theorem not_forall_anchored : ¬ ∀ (fields : List (String × Value)) (g : Graph) (o : Options),
    ofValue (.obj fields) = .ok g → (g.validate o).Anchored := by
  intro h
  have hread : oversized emptyKeyed = [] := rfl
  have hanchored := h _ _ {} (ofValue_of_oversized_eq_nil (v := emptyKeyed) rfl hread)
  exact hanchored.not_namesEmpty "UNREACHABLE_NODE"
    (namesEmpty_validate_iff.mpr ⟨.deadCode, by decide, emptyKeyed_anchorsAtEmpty⟩)

end Graph
end PlotGraph
