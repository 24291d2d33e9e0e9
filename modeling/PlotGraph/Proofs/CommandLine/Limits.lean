import PlotGraph.CommandLine.Run
import PlotGraph.Proofs.Options.Environment

/-!
# Limits in force

Whether a limit comes from a mapping, from a file or from a variable of the environment, it is not
negative. On the command line it may be: what is given there replaces what was loaded, and is
taken as it is (`CommandLine.limits_in_force`).
-/

namespace PlotGraph.CommandLine

/-! ### What words can give -/

namespace Arguments

variable {κ : Type} {forms : List (OptionForm κ)}

/-- Options are those of some of the forms. -/
def Known (forms : List (OptionForm κ)) (options : List (κ × String)) : Prop :=
  ∀ o ∈ options, ∃ f ∈ forms, f.key = o.1

theorem known_singleton {name : String} {form : OptionForm κ} (h : find? forms name = some form)
    (value : String) : Known forms [(form.key, value)] := by
  intro o ho
  rw [List.mem_singleton.mp ho]
  exact ⟨form, List.mem_of_find?_eq_some h, rfl⟩

theorem Known.append {os os' : List (κ × String)} (h : Known forms os) (h' : Known forms os') :
    Known forms (os ++ os') := by
  intro o ho
  obtain ho | ho := List.mem_append.mp ho
  · exact h o ho
  · exact h' o ho

/-- Letters give known options only. -/
theorem known_of_readLetters {next : Option String} {letters : List Char} {r : Reading κ}
    (h : readLetters forms next letters = some r) : Known forms r.options := by
  induction letters generalizing r with
  | nil =>
    cases h
    simp [Known]
  | cons letter rest ih =>
    rw [readLetters, Option.bind_eq_bind, Option.bind_eq_some_iff] at h
    obtain ⟨form, hform, h⟩ := h
    split at h
    · obtain ⟨more, hmore, h⟩ := Option.bind_eq_some_iff.mp h
      cases h
      exact (known_singleton hform "").append (ih hmore)
    · -- the first letter with a value is the last of the word
      split at h
      · obtain ⟨value, -, h⟩ := Option.bind_eq_some_iff.mp h
        cases h
        exact known_singleton hform value
      · cases h
        exact known_singleton hform _

/-- Words give known options only. -/
theorem known_of_readWord {word : String} {next : Option String} {r : Reading κ}
    (h : readWord forms word next = some r) : Known forms r.options := by
  unfold readWord at h
  dsimp only at h
  split at h
  · next form hform =>
    have hfound : find? forms (splitValue word).1 = some form :=
      (Option.filter_eq_some_iff.mp hform).1
    split at h
    · cases h
      exact known_singleton hfound _
    · obtain ⟨value, -, rfl⟩ := Option.map_eq_some_iff.mp h
      exact known_singleton hfound value
    · cases h
    · cases h
      exact known_singleton hfound ""
  · split at h
    · cases h
    · exact known_of_readLetters h

/-- Only options that are known are ever read. -/
theorem known_of_read {mixed : Bool} {words : List String} {a : Arguments κ}
    (h : read forms mixed words = some a) : Known forms a.options := by
  fun_induction read forms mixed words generalizing a with
  | case1 =>
    cases h
    simp [Known]
  | case2 =>
    cases h
    simp [Known]
  | case3 word rest hdash hnames ih =>
    obtain ⟨r, hr, h⟩ := Option.bind_eq_some_iff.mp h
    obtain ⟨more, hmore, h⟩ := Option.bind_eq_some_iff.mp h
    cases h
    exact (known_of_readWord hr).append (ih r hmore)
  | case4 word rest hdash hnames hmixed ih =>
    obtain ⟨more, hmore, rfl⟩ := Option.map_eq_some_iff.mp h
    exact (ih hmore : Known forms more.options)
  | case5 =>
    cases h
    simp [Known]

end Arguments

/-- No option of a validation is about the branches of a node. -/
theorem last?_branches {words : List String} {a : Arguments ValidationOption} {mixed : Bool}
    (h : Arguments.read ValidationOption.forms mixed words = some a) :
    a.last? (.limit .branches) = none := by
  rw [Arguments.last?, Option.map_eq_none_iff, List.find?_eq_none]
  intro o ho hkey
  obtain ⟨f, hf, hname⟩ := Arguments.known_of_read h o (List.mem_reverse.mp ho)
  have hbranches : f.key = .limit .branches := hname.trans (beq_iff_eq.mp hkey)
  have hnone : ∀ f ∈ ValidationOption.forms, f.key ≠ .limit .branches := by decide
  exact hnone f hf hbranches

/-- No option of a validation gives the limit of branches. -/
theorem limits_branches_of_readValidation {words : List String} {v : Validation}
    (h : readValidation words = .command (.validate v)) :
    v.overrides.limits .branches = none := by
  unfold readValidation at h
  split at h
  · cases h
  · next a hread =>
    split at h
    · cases h
    · split at h
      · cases h
        simp [overridesOf, last?_branches hread]
      · cases h

/-- A validation is asked for by its name. -/
theorem readCommand?_eq_validate {name : String} {rest : List String} {v : Validation}
    (h : readCommand? name rest = some (.command (.validate v))) :
    name = "validate" ∧ readValidation rest = .command (.validate v) := by
  unfold readCommand? at h
  split at h
  · have h := Option.some.inj h
    unfold readVersion at h
    grind
  · have h := Option.some.inj h
    unfold readInit at h
    grind
  · exact ⟨rfl, Option.some.inj h⟩
  · cases h

/-- The command with the options before it. -/
def invocationOf (common : Arguments CommonOption) (request : CommandRequest) : Invocation where
  verbosity := common.count .verbose
  logDir := (common.last? .log).map Path.ofText
  request := request

/-- The words of a validation stand after the name of the command, and other options before. -/
theorem exists_common_of_ofWords {words : List String} {i : Invocation} {v : Validation}
    (hwords : Request.ofWords words = .invocation i)
    (hrequest : i.request = .command (.validate v)) :
    ∃ common rest, Arguments.read CommonOption.forms false words = some common ∧
      common.has .help = false ∧ common.operands = "validate" :: rest ∧
      i = invocationOf common i.request ∧ readValidation rest = .command (.validate v) := by
  unfold Request.ofWords at hwords
  split at hwords
  · cases hwords
  · next common hread =>
    split at hwords
    · cases hwords
    · next hhelp =>
      split at hwords
      · cases hwords
      · next name rest hoperands =>
        split at hwords
        · unfold readUnknown at hwords
          grind
        · next request hcommand =>
          cases hwords
          cases hrequest
          obtain ⟨rfl, hvalidation⟩ := readCommand?_eq_validate hcommand
          exact ⟨common, rest, hread, by simpa using hhelp, hoperands, rfl, hvalidation⟩

/-- A validation that words are taken for is read from those behind its name. -/
theorem readValidation_of_ofWords {words : List String} {i : Invocation} {v : Validation}
    (hwords : Request.ofWords words = .invocation i)
    (hrequest : i.request = .command (.validate v)) :
    ∃ rest, readValidation rest = .command (.validate v) := by
  obtain ⟨-, rest, -, -, -, -, hrest⟩ := exists_common_of_ofWords hwords hrequest
  exact ⟨rest, hrest⟩

/-! ### Options in force -/

/-- Options that are loaded have limits of at least zero. -/
theorem nonnegative_of_loadOptions {files : Files} {env : ConfigFile.Environment}
    {given : Option Path} {o : Options} (h : loadOptions files env given = .ok o) :
    o.Nonnegative := by
  unfold loadOptions at h
  split at h
  · exact ConfigFile.nonnegative_of_load h
  · rw [bind_eq_ok_iff] at h
    obtain ⟨found, -, h⟩ := h
    cases found with
    | true => exact ConfigFile.nonnegative_of_load h
    | false =>
      cases h
      exact Options.nonnegative_default

theorem get_single_graph (bytes : List UInt8) :
    (Files.single ⟨.here, ["g.json"]⟩ bytes).get ⟨.here, ["g.json"]⟩ = .ok (.file bytes) := by
  rw [Files.get_single (by decide) rfl (by simp) (by decide), if_pos rfl]

/-- The graph in a file that is the only one is the one in its text. -/
theorem load_single_graph (bytes : List UInt8) :
    GraphFile.load (.single ⟨.here, ["g.json"]⟩ bytes) ⟨.here, ["g.json"]⟩ =
      (Text.Utf8.decode bytes).mapError .undecodable >>= fun cs =>
        GraphFile.readDocument ⟨.here, ["g.json"]⟩ (Text.Lines.normalize cs) >>=
          GraphFile.readGraph ⟨.here, ["g.json"]⟩ := by
  rw [GraphFile.load, Files.read, get_single_graph]
  rfl

/-- Where there is only a graph, the options have their defaults. -/
theorem loadOptions_single (bytes : List UInt8) :
    loadOptions (.single ⟨.here, ["g.json"]⟩ bytes) {} none = .ok {} := by
  have hpath : Path.ofText defaultConfigName = ⟨.here, ["storylogic.yaml"]⟩ := rfl
  have hmissing : (Files.single ⟨.here, ["g.json"]⟩ bytes).contains
      (.ofText defaultConfigName) = .ok false := by
    rw [hpath, Files.contains,
      Files.get_single (by decide) rfl (by simp) (by decide), if_neg (by decide)]
  show ((Files.single _ bytes).contains (.ofText defaultConfigName)).mapError _ >>= _ = _
  rw [hmissing]
  rfl

/-- The options of a validation that is reached are those that were loaded, with the values from
the command line in their places. A limit is negative only if the command line gives a negative
number for it, which it cannot do for branches. Options that a mapping gives never are. -/
theorem limits_in_force (words : List String) (i : Invocation) (v : Validation)
    (hwords : Request.ofWords words = .invocation i)
    (hrequest : i.request = .command (.validate v)) (before files : Files)
    (env : ConfigFile.Environment) (log : Log.Setup) (o : Options) (g : Graph)
    (hlog : i.setUp before = .ok (log, files))
    (hoptions : loadOptions files env v.config = .ok o)
    (hgraph : GraphFile.load files v.graph = .ok g) :
    (Request.ofWords words).run before env =
      .ok (report files log v (o.override v.overrides) g) ∧
    (∀ l, 0 ≤ (o.override v.overrides).limit l ↔ ∀ k, v.overrides.limits l = some k → 0 ≤ k) ∧
    0 ≤ (o.override v.overrides).maxBranches ∧
    ∀ (validator : Validator) (graph : Graph) (fields : List (String × Value)) (watch : Watch)
      (cancelled : Bool) (r : RunResult),
      validator.validateFields graph fields watch cancelled = .ok r →
      ∃ given : Options, given.Nonnegative ∧
        r = validator.validate graph given watch cancelled := by
  have hnonneg : o.Nonnegative := nonnegative_of_loadOptions hoptions
  have hlimit : ∀ l, 0 ≤ (o.override v.overrides).limit l ↔
      ∀ k, v.overrides.limits l = some k → 0 ≤ k := by
    intro l
    -- what is given is not checked, so it alone decides about the sign
    rw [Options.limit_override]
    cases hgiven : v.overrides.limits l with
    | none => simpa using hnonneg l
    | some k => simp
  refine ⟨?_, hlimit, ?_, fun validator graph fields watch cancelled r hr => ?_⟩
  · rw [hwords]
    show (i.setUp before).mapError _ >>= _ = _
    rw [hlog]
    show i.request.run files env log = _
    rw [hrequest]
    show validate files env log v = _
    rw [validate, hoptions, hgraph]
  · obtain ⟨rest, hrest⟩ := readValidation_of_ofWords hwords hrequest
    refine (hlimit .branches).mpr fun k hk => ?_
    rw [limits_branches_of_readValidation hrest] at hk
    cases hk
  · rw [Validator.validateFields, bind_eq_ok_iff] at hr
    obtain ⟨given, hgiven, hr⟩ := hr
    cases hr
    exact ⟨given, .ofFields hgiven, rfl⟩

/-! ### A negative limit -/

/-- A command line that gives a negative limit. -/
def negativeWords : List String := ["validate", "g.json", "--max-nodes", "-1"]

/-- What its words give. -/
def negativeArguments : Arguments ValidationOption where
  options := [(.limit .nodeCount, "-1")]
  operands := ["g.json"]

/-- The validation that it asks for. -/
def negativeValidation : Validation where
  graph := ⟨.here, ["g.json"]⟩
  overrides := overridesOf negativeArguments

/-- A graph without nodes. -/
def emptyGraphFile : Files := .single ⟨.here, ["g.json"]⟩ (Text.Utf8.encode "\x7b\x7d")

theorem ofWords_negativeWords : Request.ofWords negativeWords =
    .invocation { request := .command (.validate negativeValidation) } := by
  have hcommon : Arguments.read CommonOption.forms false negativeWords =
      some { operands := negativeWords } := by
    rw [negativeWords, Arguments.read]
    simp [Arguments.namesOptions]
  have hread : Arguments.read ValidationOption.forms true ["g.json", "--max-nodes", "-1"] =
      some negativeArguments := by
    decide +kernel
  have hpath : Path.ofText "g.json" = ⟨.here, ["g.json"]⟩ := rfl
  have hvalidation : readValidation ["g.json", "--max-nodes", "-1"] =
      .command (.validate negativeValidation) := by
    rw [negativeValidation, ← hpath, readValidation, hread]
    rfl
  rw [Request.ofWords, hcommon, ← hvalidation]
  rfl

theorem load_emptyGraphFile : GraphFile.load emptyGraphFile ⟨.here, ["g.json"]⟩ = .ok {} := by
  rw [emptyGraphFile, load_single_graph]
  decide +kernel

/-- The graph is validated with that limit; the other limits are as they were loaded. -/
theorem limits_negativeWords :
    ∃ o : Options,
      (Request.ofWords negativeWords).run emptyGraphFile {} =
        .ok (report emptyGraphFile (({} : Log.Setup).toConsole 0) negativeValidation o {}) ∧
      o.limit .nodeCount < 0 ∧ 0 ≤ o.limit .connectionCount ∧ 0 ≤ o.limit .depth ∧
      0 ≤ o.maxBranches := by
  obtain ⟨hrun, hlimit, hbranches, -⟩ := limits_in_force negativeWords _ negativeValidation
    ofWords_negativeWords rfl emptyGraphFile emptyGraphFile {} _ {} {} rfl
    (loadOptions_single _) load_emptyGraphFile
  refine ⟨_, hrun, Int.not_le.mp fun h => ?_, (hlimit .connectionCount).mpr fun k hk => ?_,
    (hlimit .depth).mpr fun k hk => ?_, hbranches⟩
  · exact absurd ((hlimit .nodeCount).mp h (-1) rfl) (by decide)
  · cases hk
  · cases hk

/-- Not every validation that is reached has limits that are not negative. -/
theorem not_forall_nonnegative :
    ¬ ∀ (words : List String) (i : Invocation) (v : Validation) (before files : Files)
      (env : ConfigFile.Environment) (log : Log.Setup) (o : Options) (g : Graph),
      Request.ofWords words = .invocation i → i.request = .command (.validate v) →
      i.setUp before = .ok (log, files) → loadOptions files env v.config = .ok o →
      GraphFile.load files v.graph = .ok g → (o.override v.overrides).Nonnegative := by
  intro h
  have hnonneg := h negativeWords _ negativeValidation emptyGraphFile emptyGraphFile {} _ {} {}
    ofWords_negativeWords rfl rfl (loadOptions_single _) load_emptyGraphFile .nodeCount
  have hnegative : (({} : Options).override negativeValidation.overrides).limit .nodeCount = -1 :=
    Options.limit_override _ _ _
  rw [hnegative] at hnonneg
  exact absurd hnonneg (by decide)

end PlotGraph.CommandLine
