import PlotGraph.Proofs.Check.Connection
import PlotGraph.Proofs.Graph.Cycles
import PlotGraph.Proofs.Validator.Run

/-!
# When a graph is valid

A graph is valid if no enabled pass finds a defect. Only four passes can: those that check
the graph's own id, the nodes, the connections and the circular dependencies. What each of
them asks for is put together in `Graph.Sound`, and a run without custom validators calls a
graph valid exactly if it is sound (`Graph.validate_valid_iff`).

So validity depends on few fields: a graph can be stripped of all others
(`Graph.essentials`), and of all options only the switch of the search for cycles matters.
-/

namespace PlotGraph

/-! ### Tags and categories -/

/-- A tag is that of one kind of node at the most. -/
theorem NodeKind.ofTag?_eq_some_iff {tag : String} {k : NodeKind} :
    NodeKind.ofTag? tag = some k ↔ k.tag = tag := by
  constructor
  · intro h
    simpa using List.find?_some h
  · rintro rfl
    cases k <;> decide

/-- The category of a tag is that of the kind with the tag. -/
theorem Category.ofTag?_eq_some_iff {tag : String} {c : Category} :
    Category.ofTag? tag = some c ↔ ∃ k : NodeKind, k.tag = tag ∧ k.category = c := by
  rw [Category.ofTag?, Option.map_eq_some_iff]
  simp only [NodeKind.ofTag?_eq_some_iff]

theorem Category.ofTag?_eq_condition_iff {tag : String} :
    Category.ofTag? tag = some .condition ↔ tag = "condition" ∨ tag = "variable-check" := by
  rw [Category.ofTag?_eq_some_iff]
  constructor
  · rintro ⟨k, rfl, hk⟩
    cases k with
    | condition => exact Or.inl rfl
    | variableCheck => exact Or.inr rfl
    | _ => cases hk
  · rintro (rfl | rfl)
    · exact ⟨.condition, rfl, rfl⟩
    · exact ⟨.variableCheck, rfl, rfl⟩

theorem Category.ofTag?_eq_variable_iff {tag : String} :
    Category.ofTag? tag = some .variable ↔
      tag = "random" ∨ tag = "timer" ∨ tag = "input" := by
  rw [Category.ofTag?_eq_some_iff]
  constructor
  · rintro ⟨k, rfl, hk⟩
    cases k with
    | random => exact Or.inl rfl
    | timer => exact Or.inr (Or.inl rfl)
    | input => exact Or.inr (Or.inr rfl)
    | _ => cases hk
  · rintro (rfl | rfl | rfl)
    · exact ⟨.random, rfl, rfl⟩
    · exact ⟨.timer, rfl, rfl⟩
    · exact ⟨.input, rfl, rfl⟩

/-! ### Nodes -/

/-- A node with an id, a tag, and the content without which its kind is at fault. -/
structure Node.WellFormed (n : Node) : Prop where
  id : n.id ≠ ""
  tag : n.tag ≠ ""
  condition : n.tag = "condition" ∨ n.tag = "variable-check" →
    n.condition.isGiven = true ∨ n.config.entries ≠ []
  variableId : n.tag = "random" ∨ n.tag = "timer" ∨ n.tag = "input" →
    ∃ v, n.config.get? "variableId" = some v ∧ v.isGiven = true

namespace Node

/-- A node has an id or is reported. -/
theorem errors_checkId_eq_nil_iff {n : Node} : n.checkId.errors = [] ↔ n.id ≠ "" := by
  simp [checkId]

/-- A condition is given, or something is configured, or the node is reported. -/
theorem errors_checkCondition_eq_nil_iff {n : Node} :
    n.checkCondition.errors = [] ↔ n.condition.isGiven = true ∨ n.config.entries ≠ [] := by
  simp only [checkCondition, Report.errors_when_eq_nil_iff, Mapping.isEmpty]
  cases h : n.condition.isGiven <;> simp

/-- A node configures what its configuration has a value for. -/
theorem configures_iff {n : Node} {setting : String} :
    n.configures setting = true ↔ ∃ v, n.config.get? setting = some v ∧ v.isGiven = true := by
  rw [configures]
  cases n.config.get? setting with
  | none => simp
  | some v => simp

/-- A variable is named or the node is reported. -/
theorem errors_checkVariable_eq_nil_iff {n : Node} : n.checkVariable.errors = [] ↔
    ∃ v, n.config.get? "variableId" = some v ∧ v.isGiven = true := by
  rw [← configures_iff]
  simp only [checkVariable, Report.errors_when_eq_nil_iff]
  cases h : n.configures "variableId" <;> simp

/-- Of all categories only conditions and variables can be at fault for their content. -/
theorem errors_checkContent_eq_nil_iff {n : Node} {c : Category} :
    (n.checkContent c).errors = [] ↔
      (c = .condition → n.checkCondition.errors = []) ∧
      (c = .variable → n.checkVariable.errors = []) := by
  cases c <;> simp [checkContent, checkAction, checkEvent, checkCustom]

/-- A node without defects has a type, and what its type asks for. -/
theorem errors_checkTag_eq_nil_iff {n : Node} : n.checkTag.errors = [] ↔ n.tag ≠ "" ∧
    (Category.ofTag? n.tag = some .condition → n.checkCondition.errors = []) ∧
    (Category.ofTag? n.tag = some .variable → n.checkVariable.errors = []) := by
  rw [checkTag]
  split
  · next hempty => simp_all
  · next hgiven =>
      have hne : n.tag ≠ "" := by simpa using hgiven
      rw [and_iff_right hne]
      cases hc : Category.ofTag? n.tag with
      | none => simp
      | some c => simp only [Option.some.injEq, errors_checkContent_eq_nil_iff]

/-- The check of a node finds a defect unless the node is well-formed, whatever connections
there are. -/
theorem errors_check_eq_nil_iff {n : Node} {incident : Mapping String Nat} :
    (n.check incident).errors = [] ↔ n.WellFormed := by
  have hposition : n.checkPosition.errors = [] := by simp [checkPosition]
  have hconnected : (n.checkConnected incident).errors = [] := by simp [checkConnected]
  rw [check, Report.errors_concat_eq_nil_iff]
  simp only [List.forall_mem_cons, List.not_mem_nil, false_implies, implies_true, and_true,
    hposition, hconnected, errors_checkId_eq_nil_iff, errors_checkTag_eq_nil_iff,
    Category.ofTag?_eq_condition_iff, Category.ofTag?_eq_variable_iff,
    errors_checkCondition_eq_nil_iff, errors_checkVariable_eq_nil_iff]
  constructor
  · rintro ⟨hid, htag, hcondition, hvariable⟩
    exact ⟨hid, htag, hcondition, hvariable⟩
  · intro h
    exact ⟨h.id, h.tag, h.condition, h.variableId⟩

end Node

/-! ### Connections -/

/-- A connection with an id and two existing ends that is no self-loop. -/
structure Connection.WellFormed (c : Connection) (g : Graph) : Prop where
  id : c.id ≠ ""
  source : g.hasNode c.source = true
  target : g.hasNode c.target = true
  not_loop : c.isSelfLoop = false

namespace Connection

/-- A connection has no defects exactly if it is well formed. -/
theorem errors_check_eq_nil_iff {c : Connection} {g : Graph} {counts : Mapping EdgeKey Nat} :
    (c.check g counts).errors = [] ↔ c.WellFormed g := by
  have hduplicate : (c.checkDuplicate counts).errors = [] := by simp [checkDuplicate]
  have hid : c.checkId.errors = [] ↔ c.id ≠ "" := by simp [checkId]
  have hsource : (c.checkSource g).errors = [] ↔ g.hasNode c.source = true := by
    simp [checkSource]
  have htarget : (c.checkTarget g).errors = [] ↔ g.hasNode c.target = true := by
    simp [checkTarget]
  have hloop : c.checkSelfLoop.errors = [] ↔ c.isSelfLoop = false := by simp [checkSelfLoop]
  rw [check, Report.errors_concat_eq_nil_iff]
  simp only [List.forall_mem_cons, List.not_mem_nil, false_implies, implies_true, and_true,
    hduplicate, errors_checkWire, hid, hsource, htarget, hloop]
  constructor
  · rintro ⟨hid, hsource, htarget, hloop⟩
    exact ⟨hid, hsource, htarget, hloop⟩
  · intro h
    exact ⟨h.id, h.source, h.target, h.not_loop⟩

end Connection

/-! ### Graphs -/

/-- A graph with an id whose nodes and connections are all well-formed; if circular
dependencies count, also one without closed walks. -/
structure Graph.Sound (g : Graph) (circular : Bool) : Prop where
  id : g.id ≠ ""
  nodes : ∀ n ∈ g.nodes.values, n.WellFormed
  wires : ∀ c ∈ g.wires, c.WellFormed g
  acyclic : circular = true → g.Acyclic

namespace Graph

/-- The structure has no defects exactly if the graph has an id. -/
theorem errors_checkStructure_eq_nil_iff {g : Graph} :
    g.checkStructure.errors = [] ↔ g.id ≠ "" := by
  have hentries : g.checkEntries.errors = [] := by
    rw [checkEntries]
    split
    · rfl
    · split <;> rfl
  rw [checkStructure, Report.errors_concat_eq_nil_iff]
  simp [hentries, checkId]

/-- The nodes have no defects exactly if all of them are well formed. -/
theorem errors_checkNodes_eq_nil_iff {g : Graph} :
    g.checkNodes.errors = [] ↔ ∀ n ∈ g.nodes.values, n.WellFormed := by
  rw [checkNodes, Report.errors_concat_eq_nil_iff, List.forall_mem_map]
  simp only [Node.errors_check_eq_nil_iff]

/-- The connections have no defects exactly if all of them are well formed. -/
theorem errors_checkConnections_eq_nil_iff {g : Graph} :
    g.checkConnections.errors = [] ↔ ∀ c ∈ g.wires, c.WellFormed g := by
  rw [checkConnections, Report.errors_concat_eq_nil_iff, List.forall_mem_map]
  simp only [Connection.errors_check_eq_nil_iff]

end Graph

/-- What each pass asks of a graph. -/
def Stage.Demand (g : Graph) : Stage → Prop
  | .outline => g.id ≠ ""
  | .nodes => ∀ n ∈ g.nodes.values, n.WellFormed
  | .connections => ∀ c ∈ g.wires, c.WellFormed g
  | .circularDependencies => g.Acyclic
  | .deadCode | .reachability | .typeCompatibility | .performance | .suggestions => True

/-- A pass finds a defect unless what it asks for is given; five of the passes ask for
nothing. -/
theorem Stage.errors_report_eq_nil_iff {g : Graph} {o : Options} {stage : Stage} :
    (stage.report g o).errors = [] ↔ stage.Demand g := by
  cases stage with
  | outline => exact Graph.errors_checkStructure_eq_nil_iff
  | nodes => exact Graph.errors_checkNodes_eq_nil_iff
  | connections => exact Graph.errors_checkConnections_eq_nil_iff
  | circularDependencies => exact g.checkCycles_errors_eq_nil_iff
  | deadCode =>
      refine iff_true_intro ?_
      show g.checkDeadCode.errors = []
      rw [Graph.checkDeadCode]
      split <;> rfl
  | reachability =>
      refine iff_true_intro ?_
      show g.checkExits.errors = []
      simp [Graph.checkExits]
  | typeCompatibility =>
      refine iff_true_intro ?_
      show g.checkTypes.errors = []
      rw [Graph.checkTypes, Report.errors_concat_eq_nil_iff, List.forall_mem_map]
      intro c _
      exact c.errors_checkWire g Connection.typeCode
  | performance =>
      refine iff_true_intro ?_
      show (g.checkPerformance o).errors = []
      rw [Graph.checkPerformance, Report.errors_concat_eq_nil_iff]
      simp [Graph.checkNodeCount, Graph.checkConnectionCount, Graph.checkBranches,
        Graph.checkDepth]
  | suggestions =>
      refine iff_true_intro ?_
      show g.suggest.errors = []
      rw [Graph.suggest, Report.errors_concat_eq_nil_iff]
      simp [Graph.suggestJoins, Graph.suggestComments]

namespace Graph

/-- The enabled passes find no defect exactly if the graph is sound. -/
theorem errors_findings_eq_nil_iff {g : Graph} {o : Options} :
    (g.findings o).errors = [] ↔ g.Sound o.checkCircularDependencies := by
  rw [findings, Report.errors_concat_eq_nil_iff, List.forall_mem_map]
  simp only [Stage.mem_enabled, Stage.errors_report_eq_nil_iff]
  constructor
  · -- the first three passes have no switch
    intro h
    exact ⟨h .outline rfl, h .nodes rfl, h .connections rfl, h .circularDependencies⟩
  · intro h stage henabled
    cases stage with
    | outline => exact h.id
    | nodes => exact h.nodes
    | connections => exact h.wires
    | circularDependencies => exact h.acyclic henabled
    | _ => exact trivial

end Graph

/-! ### What validity depends on -/

/-- A node without its label and its position. -/
def Node.essentials (n : Node) : Node where
  id := n.id
  tag := n.tag
  config := n.config
  condition := n.condition

/-- A connection without its ports and its type. -/
def Connection.essentials (c : Connection) : Connection where
  id := c.id
  source := c.source
  target := c.target

namespace Graph

/-- A graph without its name and without what its nodes and connections can do without. -/
def essentials (g : Graph) : Graph where
  id := g.id
  nodes := g.nodes.mapValues fun _ n => n.essentials
  connections := g.connections.mapValues fun _ c => c.essentials

theorem hasNode_essentials (g : Graph) (key : String) :
    g.essentials.hasNode key = g.hasNode key :=
  Mapping.contains_mapValues _ g.nodes key

theorem wires_essentials (g : Graph) :
    g.essentials.wires = g.wires.map Connection.essentials :=
  Mapping.values_mapValues _ g.connections

/-- The essentials of a graph join the same keys. -/
theorem joined_essentials {g : Graph} {u v : String} :
    g.essentials.Joined u v ↔ g.Joined u v := by
  constructor
  · rintro ⟨c, ⟨hmem, hsource, htarget, hloop⟩, rfl, rfl⟩
    rw [wires_essentials] at hmem
    obtain ⟨d, hd, rfl⟩ := List.mem_map.mp hmem
    rw [hasNode_essentials] at hsource htarget
    exact ⟨d, ⟨hd, hsource, htarget, hloop⟩, rfl, rfl⟩
  · rintro ⟨c, ⟨hmem, hsource, htarget, hloop⟩, rfl, rfl⟩
    refine ⟨c.essentials, ⟨?_, ?_, ?_, hloop⟩, rfl, rfl⟩
    · rw [wires_essentials]
      exact List.mem_map_of_mem hmem
    · rw [hasNode_essentials]
      exact hsource
    · rw [hasNode_essentials]
      exact htarget

/-- The essentials of a graph have the same cycles. -/
theorem acyclic_essentials {g : Graph} : g.essentials.Acyclic ↔ g.Acyclic := by
  constructor
  · intro h
    exact h.of_joined fun _ _ => joined_essentials.mpr
  · intro h
    exact h.of_joined fun _ _ => joined_essentials.mp

/-- What is left away does not matter for soundness. -/
theorem sound_essentials {g : Graph} {circular : Bool} :
    g.essentials.Sound circular ↔ g.Sound circular := by
  have hnodes : (∀ n ∈ g.essentials.nodes.values, n.WellFormed) ↔
      ∀ n ∈ g.nodes.values, n.WellFormed := by
    rw [essentials, Mapping.values_mapValues, List.forall_mem_map]
    exact forall₂_congr fun n _ =>
      ⟨fun h => ⟨h.id, h.tag, h.condition, h.variableId⟩,
        fun h => ⟨h.id, h.tag, h.condition, h.variableId⟩⟩
  have hwires : (∀ c ∈ g.essentials.wires, c.WellFormed g.essentials) ↔
      ∀ c ∈ g.wires, c.WellFormed g := by
    rw [wires_essentials, List.forall_mem_map]
    refine forall₂_congr fun c _ => ?_
    constructor
    · rintro ⟨hid, hsource, htarget, hloop⟩
      rw [hasNode_essentials] at hsource htarget
      exact ⟨hid, hsource, htarget, hloop⟩
    · rintro ⟨hid, hsource, htarget, hloop⟩
      rw [← hasNode_essentials] at hsource htarget
      exact ⟨hid, hsource, htarget, hloop⟩
  constructor
  · intro h
    exact ⟨h.id, hnodes.mp h.nodes, hwires.mp h.wires,
      fun hc => acyclic_essentials.mp (h.acyclic hc)⟩
  · intro h
    exact ⟨h.id, hnodes.mpr h.nodes, hwires.mpr h.wires,
      fun hc => acyclic_essentials.mpr (h.acyclic hc)⟩

/-! ### Validity -/

theorem valid_finalize_iff {r : Report} : r.finalize.valid = true ↔ r.errors = [] := by
  rw [Report.finalize, List.isEmpty_iff]

/-- **A graph is valid exactly if it is sound.** A run without custom validators ends with a
report, and the report calls the graph valid exactly if the graph is sound. A graph with the
same essentials is found as valid as this one, under all options that agree on whether
circular dependencies count. -/
theorem validate_valid_iff (n : Nat) (g : Graph) (o : Options) (cancelled : Bool) :
    ∃ report, (Validator.validate { next := n } g o .nothing cancelled).outcome = .ok report ∧
      (report.valid = true ↔ g.Sound o.checkCircularDependencies) ∧
      ∀ (g' : Graph) (o' : Options), g'.essentials = g.essentials →
        o'.checkCircularDependencies = o.checkCircularDependencies →
        (g'.validate o').valid = report.valid := by
  have hvalid : ∀ (g : Graph) (o : Options),
      (g.findings o).finalize.valid = true ↔ g.Sound o.checkCircularDependencies :=
    fun g o => valid_finalize_iff.trans errors_findings_eq_nil_iff
  refine ⟨(g.findings o).finalize, Validator.outcome_validate n g o cancelled, hvalid g o, ?_⟩
  intro g' o' hessentials hcircular
  have hreport : g'.validate o' = (g'.findings o').finalize := by
    rw [validate, RunResult.report, Validator.outcome_validate]
  rw [hreport, Bool.eq_iff_iff, hvalid g' o', hvalid g o, ← sound_essentials, hessentials,
    hcircular, sound_essentials]

end Graph
end PlotGraph
