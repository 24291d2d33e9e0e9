import PlotGraph.Proofs.Mapping
import PlotGraph.Proofs.Options.Environment
import PlotGraph.Proofs.Options.Fields

/-!
# A limit from a variable or from a file

A text can give a limit in two places: in a variable of the environment, where it has to be a
numeral before the settings are looked at, and as a value in a file, where it is first stripped
like a word. Both readers take the same texts for the same numbers
(`ConfigFile.load_variable_or_text`), if the text has none of the four separators that only words
are stripped of.
-/

namespace PlotGraph

namespace Options

/-! ### Setting a limit -/

/-- A setting that is read as a natural number is assigned to a limit. -/
theorem assign_of_integer? (o : Options) (name : String) (l : Limit) {setting : Setting} {n : Nat}
    (h : setting.integer? = some (n : Int)) :
    o.assign name (.limit l) setting = .ok (o.setLimit l n) := by
  simp only [assign, h, Int.not_lt.mpr (Int.natCast_nonneg n), if_false]

/-- One that is not is refused. -/
theorem exists_assign_eq_error (o : Options) (name : String) (l : Limit) (setting : Setting)
    (h : ∀ n : Nat, setting.integer? ≠ some (n : Int)) :
    ∃ e, o.assign name (.limit l) setting = .error e := by
  cases hi : setting.integer? with
  | none => exact ⟨.notInteger name setting, by simp only [assign, hi]⟩
  | some i =>
      have hneg : i < 0 := by
        by_contra hnonneg
        obtain ⟨n, rfl⟩ := Int.eq_ofNat_of_zero_le (Int.not_lt.mp hnonneg)
        exact h n hi
      exact ⟨.negative name i, by simp only [assign, hi, if_pos hneg]⟩

end Options

namespace ConfigFile

open Options

/-! ### What the sources hold -/

/-- Of the variables that override limits the environment sets one, to a text that is not empty,
and no other. -/
structure SetsVariable (env : Environment) (name t : String) : Prop where
  get?_eq : env.get? name = some t
  nonempty : t ≠ ""
  others : ∀ v ∈ overrides, v.1 ≠ name → given? env v.1 = none

/-- The environment sets no variable that overrides a limit. -/
def SetsNoVariable (env : Environment) : Prop := ∀ v ∈ overrides, given? env v.1 = none

/-- The settings give nothing for any option. -/
def SetsNoOption (settings : Mapping String Setting) : Prop := ∀ e ∈ settings.entries, Idle e

/-- The settings give a limit, under either of its names, and nothing for any other option. -/
def SetsOption (settings : Mapping String Setting) (l : Limit) (setting : Setting) : Prop :=
  ∃ before name after, settings.entries = before ++ (name, setting) :: after ∧
    name ∈ (OptionKey.limit l).names ∧ ∀ e ∈ before ++ after, Idle e

variable {env : Environment} {settings : Mapping String Setting} {name t : String} {l : Limit}

/-- The variable that an environment sets is given. -/
theorem SetsVariable.given?_eq (h : SetsVariable env name t) : given? env name = some t := by
  rw [given?, h.get?_eq]
  exact if_neg fun hempty => h.nonempty (String.isEmpty_iff.mp hempty)

/-- In settings without options, the only option is the one that is put in. -/
theorem SetsNoOption.setsOption_put (h : SetsNoOption settings) (l : Limit) (setting : Setting) :
    SetsOption (settings.put l.name setting) l setting := by
  obtain ⟨before, after, hput, hsub⟩ := Pairs.exists_put_eq l.name setting settings.entries
  exact ⟨before, l.name, after, hput, List.mem_cons_self, fun e he => h e (hsub he)⟩

/-- Only the given limit is looked at. -/
theorem SetsOption.ofSettings_eq {setting : Setting} (h : SetsOption settings l setting)
    (hsetting : setting ≠ .absent) :
    ∃ name, Options.ofSettings settings.entries =
      ({} : Options).assign name (.limit l) setting := by
  obtain ⟨before, name, after, hentries, hname, hidle⟩ := h
  refine ⟨name, ?_⟩
  rw [Options.ofSettings, hentries, takeAll_alone {} hidle]
  exact take_of_ofName?_eq_some {} (OptionKey.ofName?_eq_some_iff.mpr hname) hsetting

/-! ### Variables -/

/-- Where none of the variables is given, there is nothing to apply. -/
theorem applyVariables_of_none (settings : Mapping String Setting) {vars : List (String × Limit)}
    (h : ∀ v ∈ vars, given? env v.1 = none) : applyVariables env settings vars = .ok settings := by
  induction vars with
  | nil => rfl
  | cons v rest ih =>
      obtain ⟨hfirst, hrest⟩ := List.forall_mem_cons.mp h
      rw [applyVariables, hfirst]
      exact ih hrest

/-- The variable that is set has to denote a number, which becomes the setting under the plain name
of its limit. -/
theorem applyVariables_of_set (settings : Mapping String Setting) {vars : List (String × Limit)}
    (hnodup : (vars.map Prod.fst).Nodup) (hmem : (name, l) ∈ vars)
    (hset : given? env name = some t)
    (hothers : ∀ v ∈ vars, v.1 ≠ name → given? env v.1 = none) :
    applyVariables env settings vars =
      match Decimal.readInt? t.toList with
      | some i => .ok (settings.put l.name (.number i))
      | none => .error (.environment name t) := by
  induction vars with
  | nil => cases hmem
  | cons v rest ih =>
      rw [List.map_cons, List.nodup_cons] at hnodup
      obtain ⟨hfirst, hrest⟩ := List.forall_mem_cons.mp hothers
      obtain rfl | hmem := List.mem_cons.mp hmem
      · -- the names are distinct, so that all variables that follow are unset
        have hunset : ∀ v ∈ rest, given? env v.1 = none := by
          intro v hv
          have hv' : v.1 ∈ rest.map Prod.fst := List.mem_map_of_mem hv
          exact hrest v hv fun heq => hnodup.1 (heq ▸ hv')
        rw [applyVariables, hset]
        cases hi : Decimal.readInt? t.toList with
        | none => simp only [hi]
        | some i =>
            simp only [hi]
            exact applyVariables_of_none _ hunset
      · have hne : v.1 ≠ name := fun heq => hnodup.1 (heq ▸ List.mem_map_of_mem hmem)
        rw [applyVariables, hfirst hne]
        exact ih hnodup.2 hmem hrest

/-- Without variables it is the file that gives the limit. -/
theorem ofSettings_of_setsOption {setting : Setting} (henv : SetsNoVariable env)
    (h : SetsOption settings l setting) (hsetting : setting ≠ .absent) :
    ∃ name, ofSettings env settings =
      (({} : Options).assign name (.limit l) setting).mapError .option := by
  obtain ⟨name, hname⟩ := h.ofSettings_eq hsetting
  refine ⟨name, ?_⟩
  rw [ofSettings, applyVariables_of_none settings henv, ← hname]
  rfl

section Variable

variable (hname : (name, l) ∈ overrides) (henv : SetsVariable env name t)
  (h : SetsNoOption settings)

include hname henv

/-- A variable that denotes no integer is refused. -/
theorem ofSettings_of_unreadable (hi : Decimal.readInt? t.toList = none) :
    ofSettings env settings = .error (.environment name t) := by
  have happly := applyVariables_of_set settings (by decide) hname henv.given?_eq henv.others
  rw [hi] at happly
  rw [ofSettings, happly]
  rfl

include h

/-- A variable that denotes a number gives the limit like a file would. -/
theorem ofSettings_of_readable {i : Int} (hi : Decimal.readInt? t.toList = some i) :
    ∃ name', ofSettings env settings =
      (({} : Options).assign name' (.limit l) (.number i)).mapError .option := by
  have happly := applyVariables_of_set settings (by decide) hname henv.given?_eq henv.others
  rw [hi] at happly
  obtain ⟨name', hassign⟩ := (h.setsOption_put l (.number i)).ofSettings_eq (by simp)
  refine ⟨name', ?_⟩
  rw [ofSettings, happly, ← hassign]
  rfl

end Variable

/-! ### Files -/

/-- **Environment text and file text are read alike.** One file sets no option, and the environment
gives one of the three limits by a text; another file sets this limit only, to the same text, and
the environment is silent. If the text has no separators, both are loaded and give the default
options with the same limit, or both are refused, according to whether the text denotes a natural
number of at most 4300 digits. -/
theorem load_variable_or_text (files files' : Files) (env env' : Environment) (p p' : Path)
    (plain given : Mapping String Setting) (name t : String) (l : Limit)
    (hname : (name, l) ∈ overrides)
    (hchars : ∀ c ∈ t.toList, ¬ (0x1C ≤ c.toNat ∧ c.toNat ≤ 0x1F))
    (hplain : settingsAt files p = .ok plain) (hnothing : SetsNoOption plain)
    (henv : SetsVariable env name t)
    (hgiven : settingsAt files' p' = .ok given) (honly : SetsOption given l (.word t))
    (hsilent : SetsNoVariable env') :
    (∃ n : Nat, Decimal.readInt? t.toList = some (n : Int) ∧
      load files env p = .ok (({} : Options).setLimit l n) ∧
      load files' env' p' = .ok (({} : Options).setLimit l n)) ∨
    ((∀ n : Nat, Decimal.readInt? t.toList ≠ some (n : Int)) ∧
      (∃ reason, load files env p = .error (.load ⟨p, reason⟩)) ∧
      ∃ reason, load files' env' p' = .error (.load ⟨p', reason⟩)) := by
  have hword : (Setting.word t).integer? = Decimal.readInt? t.toList :=
    Decimal.readInt?_strip hchars
  obtain ⟨spelling, hfile⟩ := ofSettings_of_setsOption hsilent honly (by simp)
  rw [load_eq_of_settingsAt hplain, load_eq_of_settingsAt hgiven, hfile]
  by_cases hnat : ∃ n : Nat, Decimal.readInt? t.toList = some (n : Int)
  · left
    obtain ⟨n, hn⟩ := hnat
    obtain ⟨name', hset⟩ := ofSettings_of_readable hname henv hnothing hn
    refine ⟨n, hn, ?_, ?_⟩
    · rw [hset, assign_of_integer? {} name' l rfl]
      rfl
    · rw [assign_of_integer? {} spelling l (hword.trans hn)]
      rfl
  · right
    rw [not_exists] at hnat
    refine ⟨hnat, ?_, ?_⟩
    · cases hi : Decimal.readInt? t.toList with
      | none =>
          rw [ofSettings_of_unreadable hname henv hi]
          exact ⟨_, rfl⟩
      | some i =>
          -- a number that is no natural number is negative
          obtain ⟨name', hset⟩ := ofSettings_of_readable hname henv hnothing hi
          obtain ⟨e, he⟩ := exists_assign_eq_error {} name' l (.number i) fun n hn =>
            hnat n (hi.trans hn)
          rw [hset, he]
          exact ⟨_, rfl⟩
    · obtain ⟨e, he⟩ := exists_assign_eq_error {} spelling l (.word t) fun n hn =>
        hnat n (hword.symm.trans hn)
      rw [he]
      exact ⟨_, rfl⟩

/-! ### The same numeral in both places -/

/-- A document without options. -/
def unrelated : String := "theme: dark\n"

/-- A document that gives a limit by a text. -/
def quotedDepth : String := "maxDepth: \" 1_0\"\n"

theorem settingsAt_unrelated :
    settingsAt (fileOf unrelated) ⟨.here, ["c.yaml"]⟩ =
      .ok { entries := [("theme", .word "dark")] } :=
  settingsAt_fileOf (by decide +kernel)

theorem settingsAt_quotedDepth :
    settingsAt (fileOf quotedDepth) ⟨.here, ["c.yaml"]⟩ =
      .ok { entries := [("maxDepth", .word " 1_0")] } :=
  settingsAt_fileOf (by decide +kernel)

/-- The variable for that limit, set to the same text. -/
def quotedVariable : Environment := .ofList [("STORYLOGIC_MAX_DEPTH", " 1_0")]

theorem setsVariable_quotedVariable :
    SetsVariable quotedVariable "STORYLOGIC_MAX_DEPTH" " 1_0" where
  get?_eq := by decide
  nonempty := by decide
  others := by decide

/-- From either source the limit is ten. -/
theorem load_quotedDepth :
    load (fileOf unrelated) quotedVariable ⟨.here, ["c.yaml"]⟩ = .ok { maxDepth := 10 } ∧
      load (fileOf quotedDepth) {} ⟨.here, ["c.yaml"]⟩ = .ok { maxDepth := 10 } := by
  have hten : Decimal.readInt? " 1_0".toList = some 10 := rfl
  have hchars : ∀ c ∈ " 1_0".toList, ¬ (0x1C ≤ c.toNat ∧ c.toNat ≤ 0x1F) := by
    simp
  have hidle : SetsNoOption { entries := [("theme", .word "dark")] } := by
    intro e he
    cases List.mem_singleton.mp he
    exact .inl (by decide)
  have honly : SetsOption { entries := [("maxDepth", .word " 1_0")] } .depth (.word " 1_0") :=
    ⟨[], "maxDepth", [], rfl, by decide, by simp⟩
  have hload := load_variable_or_text (fileOf unrelated) (fileOf quotedDepth) quotedVariable {}
    ⟨.here, ["c.yaml"]⟩ ⟨.here, ["c.yaml"]⟩ _ _ "STORYLOGIC_MAX_DEPTH" " 1_0" .depth (by decide)
    hchars settingsAt_unrelated hidle setsVariable_quotedVariable settingsAt_quotedDepth honly
    (fun v _ => rfl)
  obtain ⟨n, hn, hvariable, htext⟩ | ⟨hnone, -⟩ := hload
  · cases hten.symm.trans hn
    exact ⟨hvariable, htext⟩
  · exact absurd hten (hnone 10)

end ConfigFile
end PlotGraph
