import PlotGraph.Options.File
import PlotGraph.Proofs.Except
import PlotGraph.Proofs.Files
import PlotGraph.Proofs.Options.Settings

/-!
# Limits from the environment

A variable of the environment replaces what a file gives under the plain name of a limit, and
nothing else (`ConfigFile.spellings_putAll`). The replacement keeps the place of the entry, so it
is in force unless the file gives the limit under the name of the editor further down: then the
file has the last word (`ConfigFile.load_of_settingsAt`).
-/

namespace PlotGraph

/-! ### The names of a limit -/

namespace Limit

/-- Whether a name is one of the two that a limit has. -/
def isName (l : Limit) (name : String) : Bool := name == l.name || name == l.editorName

/-- A limit has two names, and no others. -/
theorem isName_iff {l : Limit} {name : String} :
    l.isName name = true ↔ name = l.name ∨ name = l.editorName := by
  simp [isName]

/-- The name of a limit is that of no other limit. -/
theorem isName_name (l m : Limit) : l.isName m.name = decide (l = m) := by
  cases l <;> cases m <;> decide

/-- No limit has for its name the name that an editor uses for one. -/
theorem name_ne_editorName (l m : Limit) : l.name ≠ m.editorName := by
  cases l <;> cases m <;> decide

/-- The names that stand for a limit are its own two. -/
theorem ofName?_eq_limit_iff {l : Limit} {name : String} :
    OptionKey.ofName? name = some (.limit l) ↔ l.isName name = true := by
  rw [OptionKey.ofName?_eq_some_iff, isName_iff, OptionKey.names, List.mem_pair]

end Limit

@[simp] theorem Setting.integer?_absent : Setting.absent.integer? = none := rfl

@[simp] theorem Setting.integer?_number (i : Int) : (Setting.number i).integer? = some i := rfl

namespace Options

/-- An entry gives a limit exactly if it has one of its names and an integer. -/
theorem limitGiven?_eq (l : Limit) (e : String × Setting) :
    limitGiven? l e = if l.isName e.1 then e.2.integer? else none := by
  simp only [limitGiven?, Limit.ofName?_eq_limit_iff]

/-- An entry under the name of a limit gives no switch. -/
theorem switchGiven?_limit_name (s : Switch) (l : Limit) (setting : Setting) :
    switchGiven? s (l.name, setting) = none := by
  have h : OptionKey.ofName? l.name = some (.limit l) :=
    Limit.ofName?_eq_limit_iff.mpr (by simp [Limit.isName_name])
  simp [switchGiven?, h]

end Options

namespace ConfigFile

open Options

/-! ### What settings say about one limit -/

/-- The entries that name a limit. -/
def spellings (l : Limit) (entries : List (String × Setting)) : List (String × Setting) :=
  entries.filter fun e => l.isName e.1

/-- The last word about a limit, if its entries give any number. -/
def lastGiven? (l : Limit) (entries : List (String × Setting)) : Option Int :=
  ((spellings l entries).filterMap fun e => e.2.integer?).getLast?

/-- The last entry that gives a limit is found among those under its names. -/
theorem getLast?_filterMap_limitGiven? (l : Limit) (entries : List (String × Setting)) :
    (entries.filterMap (limitGiven? l)).getLast? = lastGiven? l entries := by
  rw [lastGiven?, spellings, List.filterMap_filter]
  congr 2
  funext e
  exact limitGiven?_eq l e

/-- A value stands under the editor's name of a limit, further down than an entry under the plain
name. -/
def Shadowed (entries : List (String × Setting)) (l : Limit) (s : Setting) : Prop :=
  s ≠ .absent ∧ ∃ t, [(l.name, t), (l.editorName, s)].Sublist entries

/-- Names are distinct, so an entry that names a limit stands alone, or before or after the one
with the other name. -/
theorem spellings_cases (l : Limit) {entries : List (String × Setting)}
    (h : (entries.map Prod.fst).Nodup) :
    spellings l entries = [] ∨ (∃ t, spellings l entries = [(l.name, t)]) ∨
      (∃ s, spellings l entries = [(l.editorName, s)]) ∨
      (∃ s t, spellings l entries = [(l.editorName, s), (l.name, t)]) ∨
      ∃ t s, spellings l entries = [(l.name, t), (l.editorName, s)] := by
  have hnodup : ((spellings l entries).map Prod.fst).Nodup :=
    h.sublist (List.filter_sublist.map _)
  have hnames : ∀ e ∈ spellings l entries, e.1 = l.name ∨ e.1 = l.editorName := fun e he =>
    Limit.isName_iff.mp (List.mem_filter.mp he).2
  generalize spellings l entries = found at hnodup hnames
  match found with
  | [] => exact .inl rfl
  | [(k, v)] =>
    obtain rfl | rfl := hnames (k, v) (by simp)
    · exact .inr (.inl ⟨v, rfl⟩)
    · exact .inr (.inr (.inl ⟨v, rfl⟩))
  | [(k, v), (k', v')] =>
    have hne : k ≠ k' := by simpa using hnodup
    obtain rfl | rfl := hnames (k, v) (by simp) <;>
      obtain rfl | rfl := hnames (k', v') (by simp)
    · exact absurd rfl hne
    · exact .inr (.inr (.inr (.inr ⟨v, v', rfl⟩)))
    · exact .inr (.inr (.inr (.inl ⟨v, v', rfl⟩)))
    · exact absurd rfl hne
  | (k, v) :: (k', v') :: (k'', v'') :: rest =>
    -- two of three names would be the same
    have h₁ := hnames (k, v) (by simp)
    have h₂ := hnames (k', v') (by simp)
    have h₃ := hnames (k'', v'') (by simp)
    simp only [List.map_cons, List.nodup_cons, List.mem_cons, not_or] at hnodup
    grind

/-- A shadowed limit has both of its names, and the one that an editor uses stands behind. -/
theorem spellings_of_shadowed {l : Limit} {s : Setting} {entries : List (String × Setting)}
    (h : (entries.map Prod.fst).Nodup) (hs : Shadowed entries l s) :
    ∃ t, spellings l entries = [(l.name, t), (l.editorName, s)] := by
  obtain ⟨-, t, hsub⟩ := hs
  have hfound : [(l.name, t), (l.editorName, s)].Sublist (spellings l entries) := by
    simpa [spellings, Limit.isName] using hsub.filter fun e => l.isName e.1
  refine ⟨t, ?_⟩
  obtain hnil | ⟨u, hone⟩ | ⟨u, hone⟩ | ⟨u, v, htwo⟩ | ⟨u, v, htwo⟩ := spellings_cases l h
  · exact absurd hfound.length_le (by simp [hnil])
  · exact absurd hfound.length_le (by simp [hone])
  · exact absurd hfound.length_le (by simp [hone])
  · rw [htwo] at hfound
    have := hfound.eq_of_length rfl
    exact absurd (congrArg Prod.fst (List.cons.inj this).1) (Limit.name_ne_editorName l l)
  · rw [htwo] at hfound
    rw [htwo, hfound.eq_of_length rfl]

/-! ### Settings with the numbers of the environment -/

/-- Settings in which numbers stand under the plain names of limits. -/
def putAll (settings : Mapping String Setting) (given : List (Limit × Int)) :
    Mapping String Setting :=
  given.foldl (fun m e => m.put e.1.name (.number e.2)) settings

variable {given : List (Limit × Int)} {settings : Mapping String Setting}

/-- What is put in stands in the place of what was under its name, and all else is kept. -/
theorem mem_putAll {e : String × Setting} (he : e ∈ (putAll settings given).entries) :
    (∃ l i, (l, i) ∈ given ∧ e = (l.name, .number i)) ∨
      (e ∈ settings.entries ∧ ∀ l i, (l, i) ∈ given → e.1 ≠ l.name) := by
  induction given generalizing settings with
  | nil => exact .inr ⟨he, by simp⟩
  | cons v rest ih =>
    obtain ⟨l, i, hmem, rfl⟩ | ⟨hmem, hother⟩ := ih he
    · exact .inl ⟨l, i, List.mem_cons_of_mem _ hmem, rfl⟩
    · have hget := (Mapping.get?_eq_some_iff _ e.1 e.2).mpr hmem
      rw [Mapping.get?_put] at hget
      by_cases hv : v.1.name = e.1
      · rw [if_pos hv] at hget
        exact .inl ⟨v.1, v.2, List.mem_cons_self, Prod.ext hv.symm (Option.some.inj hget).symm⟩
      · rw [if_neg hv] at hget
        refine .inr ⟨(Mapping.get?_eq_some_iff _ _ _).mp hget, fun l i hli => ?_⟩
        obtain rfl | hli := List.mem_cons.mp hli
        · exact fun h => hv h.symm
        · exact hother l i hli

/-- What says nothing about the limits that are replaced is left as it was. -/
theorem filterMap_putAll {β : Type} (f : String × Setting → Option β)
    (hf : ∀ v ∈ given, ∀ setting, f (v.1.name, setting) = none) :
    (putAll settings given).entries.filterMap f = settings.entries.filterMap f := by
  induction given generalizing settings with
  | nil => rfl
  | cons v rest ih =>
    show (putAll (settings.put v.1.name (.number v.2)) rest).entries.filterMap f = _
    rw [ih fun w hw => hf w (List.mem_cons_of_mem _ hw)]
    exact Pairs.filterMap_put f (hf v List.mem_cons_self) _ _

/-- To put in an entry for one limit leaves the spellings of the others alone. -/
theorem spellings_put (l m : Limit) (i : Int) :
    spellings l (settings.put m.name (.number i)).entries =
      if l = m then Pairs.put l.name (.number i) (spellings l settings.entries)
      else spellings l settings.entries := by
  show (Pairs.put m.name (Setting.number i) settings.entries).filter (fun e => l.isName e.1) = _
  rw [Pairs.filter_put, Limit.isName_name]
  by_cases h : l = m
  · subst h
    simp [spellings]
  · simp [spellings, h]

/-- The numbers given for the other limits do not touch the entries of a limit, and its own takes
the place of the entry under the plain name. -/
theorem spellings_putAll {l : Limit} {i : Int} (hnodup : (given.map Prod.fst).Nodup)
    (hmem : (l, i) ∈ given) :
    spellings l (putAll settings given).entries =
      Pairs.put l.name (.number i) (spellings l settings.entries) := by
  induction given generalizing settings with
  | nil => simp at hmem
  | cons v rest ih =>
    rw [List.map_cons, List.nodup_cons] at hnodup
    show spellings l (putAll (settings.put v.1.name (.number v.2)) rest).entries = _
    obtain rfl | hrest := List.mem_cons.mp hmem
    · -- all numbers that follow are for other limits
      have hfirst : spellings l (settings.put l.name (.number i)).entries =
          Pairs.put l.name (.number i) (spellings l settings.entries) := by
        rw [spellings_put, if_pos rfl]
      rw [← hfirst, spellings, spellings, ← List.filterMap_eq_filter]
      refine filterMap_putAll _ fun w hw setting => ?_
      have hne : l ≠ w.1 := fun h => hnodup.1 (List.mem_map.mpr ⟨w, hw, h.symm⟩)
      simp [Limit.isName_name, hne]
    · have hne : l ≠ v.1 := fun h => hnodup.1 (List.mem_map.mpr ⟨_, hrest, h⟩)
      rw [ih hnodup.2 hrest, spellings_put, if_neg hne]

/-- A limit that is put in counts, unless it is shadowed. -/
theorem lastGiven?_putAll {l : Limit} {i : Int} (hnodup : (given.map Prod.fst).Nodup)
    (hmem : (l, i) ∈ given) (hfree : ∀ s, ¬ Shadowed settings.entries l s) :
    lastGiven? l (putAll settings given).entries = some i := by
  have hname : l.editorName ≠ l.name := (Limit.name_ne_editorName l l).symm
  rw [lastGiven?, spellings_putAll hnodup hmem]
  obtain hnil | ⟨t, hone⟩ | ⟨s, hone⟩ | ⟨s, t, htwo⟩ | ⟨t, s, htwo⟩ :=
    spellings_cases l settings.nodup
  · simp [hnil, Pairs.put]
  · simp [hone, Pairs.put]
  · cases hs : s.integer? <;> simp [hone, Pairs.put, hname, hs]
  · cases hs : s.integer? <;> simp [htwo, Pairs.put, hname, hs]
  · -- only a null below the plain name leaves the limit free
    have habsent : s = .absent := by
      by_contra hs
      have hsub : [(l.name, t), (l.editorName, s)].Sublist settings.entries := by
        rw [← htwo]
        exact List.filter_sublist
      exact hfree s ⟨hs, t, hsub⟩
    simp [htwo, Pairs.put, habsent, List.filterMap_cons]

/-- A limit that is put in gives way to the entry that shadows it, if there is an integer in it. -/
theorem lastGiven?_putAll_of_shadowed {l : Limit} {i : Int} {s : Setting}
    (hnodup : (given.map Prod.fst).Nodup) (hmem : (l, i) ∈ given)
    (hs : Shadowed settings.entries l s) :
    lastGiven? l (putAll settings given).entries = s.integer?.or (some i) := by
  obtain ⟨t, htwo⟩ := spellings_of_shadowed settings.nodup hs
  rw [lastGiven?, spellings_putAll hnodup hmem, htwo]
  cases h : s.integer? <;> simp [Pairs.put, h]

/-! ### The variables -/

/-- A variable of the environment gives a number for a limit. -/
def Gives (env : Environment) (l : Limit) (i : Int) : Prop :=
  ∃ name raw, (name, l) ∈ overrides ∧ given? env name = some raw ∧
    Decimal.readInt? raw.toList = some i

/-- The variables that are set denote numbers that are not negative. -/
def DenotesNumbers (env : Environment) : Prop :=
  ∀ name l raw, (name, l) ∈ overrides → given? env name = some raw →
    ∃ n : Nat, Decimal.readInt? raw.toList = some (n : Int)

/-- The numbers that variables give, in the order in which they are looked up. -/
def numbersOf (env : Environment) (vars : List (String × Limit)) : List (Limit × Int) :=
  vars.filterMap fun v =>
    ((given? env v.1).bind fun raw => Decimal.readInt? raw.toList).map fun i => (v.2, i)

variable {env : Environment}

/-- The numbers of an environment are those that its variables give. -/
theorem mem_numbersOf_iff {l : Limit} {i : Int} :
    (l, i) ∈ numbersOf env overrides ↔ Gives env l i := by
  simp only [numbersOf, List.mem_filterMap, Option.map_eq_some_iff, Option.bind_eq_some_iff,
    Prod.mk.injEq]
  constructor
  · rintro ⟨⟨name, l⟩, hmem, i, ⟨raw, hraw, hi⟩, rfl, rfl⟩
    exact ⟨name, raw, hmem, hraw, hi⟩
  · rintro ⟨name, raw, hmem, hraw, hi⟩
    exact ⟨(name, l), hmem, i, ⟨raw, hraw, hi⟩, rfl, rfl⟩

/-- The numbers of an environment come in the order of the variables. -/
theorem numbersOf_sublist (vars : List (String × Limit)) :
    ((numbersOf env vars).map Prod.fst).Sublist (vars.map Prod.snd) := by
  induction vars with
  | nil => exact .slnil
  | cons v rest ih =>
    rw [numbersOf, List.filterMap_cons]
    cases (given? env v.1).bind fun raw => Decimal.readInt? raw.toList with
    | none => exact ih.cons _
    | some i => exact ih.cons_cons _

/-- No two variables are about the same limit. -/
theorem nodup_numbersOf : ((numbersOf env overrides).map Prod.fst).Nodup :=
  (show (overrides.map Prod.snd).Nodup by decide).sublist (numbersOf_sublist overrides)

/-- Where all variables denote integers, to apply them puts these integers in. -/
theorem applyVariables_eq (settings : Mapping String Setting) {vars : List (String × Limit)}
    (h : ∀ v ∈ vars, ∀ raw, given? env v.1 = some raw →
      ∃ i, Decimal.readInt? raw.toList = some i) :
    applyVariables env settings vars = .ok (putAll settings (numbersOf env vars)) := by
  induction vars generalizing settings with
  | nil => rfl
  | cons v rest ih =>
    have hrest := fun settings => ih settings fun w hw => h w (List.mem_cons_of_mem _ hw)
    rw [applyVariables, numbersOf, List.filterMap_cons]
    cases hraw : given? env v.1 with
    | none => exact hrest settings
    | some raw =>
      obtain ⟨i, hi⟩ := h v List.mem_cons_self raw hraw
      simp only [hi, Option.bind_some, Option.map_some]
      exact hrest _

/-- The options under such an environment are those of the settings with its integers put in. -/
theorem ofSettings_eq (henv : DenotesNumbers env) (settings : Mapping String Setting) :
    ofSettings env settings =
      (Options.ofSettings (putAll settings (numbersOf env overrides)).entries).mapError
        .option := by
  have hvars : ∀ v ∈ overrides, ∀ raw, given? env v.1 = some raw →
      ∃ i, Decimal.readInt? raw.toList = some i := by
    intro v hv raw hraw
    obtain ⟨n, hn⟩ := henv v.1 v.2 raw hv hraw
    exact ⟨n, hn⟩
  rw [ofSettings, applyVariables_eq settings hvars]
  rfl

theorem numbersOf_none : numbersOf {} overrides = [] := rfl

theorem denotesNumbers_none : DenotesNumbers {} := by
  intro name l raw _ hraw
  cases hraw

/-! ### What can be taken in -/

/-- Natural numbers are accepted for all limits. -/
theorem accepts_number (l : Limit) (n : Nat) : Accepts l.name (.number n) := by
  intro key hkey _
  have hlimit : OptionKey.ofName? l.name = some (.limit l) :=
    Limit.ofName?_eq_limit_iff.mpr (by simp [Limit.isName_name])
  cases hkey.symm.trans hlimit
  exact ⟨n, rfl, Int.natCast_nonneg n⟩

/-- A setting is only read if no variable takes its place. -/
theorem accepts_putAll (henv : DenotesNumbers env)
    (hfile : ∀ e ∈ settings.entries, (∀ l i, Gives env l i → e.1 ≠ l.name) →
      Accepts e.1 e.2) :
    ∀ e ∈ (putAll settings (numbersOf env overrides)).entries, Accepts e.1 e.2 := by
  intro e he
  obtain ⟨l, i, hli, rfl⟩ | ⟨hmem, hother⟩ := mem_putAll he
  · obtain ⟨name, raw, hname, hraw, hi⟩ := mem_numbersOf_iff.mp hli
    obtain ⟨n, hn⟩ := henv name l raw hname hraw
    cases hi.symm.trans hn
    exact accepts_number l n
  · exact hfile e hmem fun l i hgives => hother l i (mem_numbersOf_iff.mpr hgives)

/-- No variable takes the place of a setting under the editor's name of a limit. -/
theorem integer?_of_shadowed {l : Limit} {s : Setting}
    (hfile : ∀ e ∈ settings.entries, (∀ l i, Gives env l i → e.1 ≠ l.name) →
      Accepts e.1 e.2) (hs : Shadowed settings.entries l s) : ∃ i, s.integer? = some i := by
  obtain ⟨hpresent, t, hsub⟩ := hs
  have haccepts := hfile (l.editorName, s) (hsub.subset (by simp)) fun m _ _ =>
    (Limit.name_ne_editorName m l).symm
  have hlimit : OptionKey.ofName? l.editorName = some (.limit l) :=
    Limit.ofName?_eq_limit_iff.mpr (by simp [Limit.isName])
  obtain ⟨i, hi, -⟩ := haccepts (.limit l) hlimit hpresent
  exact ⟨i, hi⟩

/-! ### Files -/

/-- The settings that the bytes of a file give. -/
def settingsOfBytes (bytes : List UInt8) : Except Reason (Mapping String Setting) := do
  let cs ← (Text.Utf8.decodePieces bytes).mapError .undecodable
  return settingsOf (← sectionOf (← (Yaml.read (Text.Lines.normalize cs)).mapError .document))

/-- The settings in a file, those at the top or those under the name that marks them. -/
def settingsAt (files : Files) (p : Path) : Except Failure (Mapping String Setting) := do
  let opened ← (files.read p).mapError .inaccessible
  let settings : Except Reason (Mapping String Setting) := do
    settingsOfBytes (← opened.mapError .unopened)
  settings.mapError fun reason => .load ⟨p, reason⟩

/-- The bytes of a file count only through the settings in them. -/
theorem ofBytes_eq (env : Environment) (bytes : List UInt8) :
    ofBytes env bytes = (settingsOfBytes bytes).bind (ofSettings env) := by
  unfold ofBytes settingsOfBytes ofDocument
  cases (Text.Utf8.decodePieces bytes).mapError Reason.undecodable with
  | error _ => rfl
  | ok cs =>
    simp only [bind, Except.bind]
    cases (Yaml.read (Text.Lines.normalize cs)).mapError Reason.document with
    | error _ => rfl
    | ok document =>
      show (sectionOf document).bind _ = _
      cases hsection : sectionOf document <;> simp only [hsection] <;> rfl

/-- The environment only has a say in what is made of the settings. -/
theorem load_eq (files : Files) (env : Environment) (p : Path) :
    load files env p = (settingsAt files p).bind fun settings =>
      (ofSettings env settings).mapError fun reason => .load ⟨p, reason⟩ := by
  unfold load settingsAt
  cases files.read p with
  | error _ => rfl
  | ok opened =>
    cases opened with
    | error _ => rfl
    | ok bytes =>
      show (ofBytes env bytes).mapError _ = ((settingsOfBytes bytes).mapError _).bind _
      rw [ofBytes_eq]
      cases settingsOfBytes bytes <;> rfl

/-- A file counts only through its settings. -/
theorem load_eq_of_settingsAt {files : Files} {p : Path} {settings : Mapping String Setting}
    (h : settingsAt files p = .ok settings) (env : Environment) :
    load files env p = (ofSettings env settings).mapError fun reason => .load ⟨p, reason⟩ := by
  rw [load_eq, h]
  rfl

/-- Whatever the environment holds, no limit that is loaded is negative. -/
theorem nonnegative_of_load {files : Files} {p : Path} {o : Options}
    (h : load files env p = .ok o) : o.Nonnegative := by
  simp only [load, ofBytes, ofDocument, ofSettings, bind_eq_ok_iff, mapError_eq_ok_iff] at h
  obtain ⟨opened, -, bytes, -, cs, -, document, -, entries, -, settings, -, htake⟩ := h
  exact nonnegative_default.takeAll htake

/-- Options are loaded exactly if the settings are accepted once the integers of the environment
are put in. -/
theorem load_eq_ok_iff {files : Files} {p : Path} {settings : Mapping String Setting}
    (h : settingsAt files p = .ok settings) (henv : DenotesNumbers env) {o : Options} :
    load files env p = .ok o ↔
      takeAll {} (putAll settings (numbersOf env overrides)).entries = .ok o := by
  rw [load_eq_of_settingsAt h, ofSettings_eq henv, Options.ofSettings, mapError_eq_ok_iff,
    mapError_eq_ok_iff]

/-- Without an environment they are loaded exactly if the settings are accepted. -/
theorem load_none_eq_ok_iff {files : Files} {p : Path} {settings : Mapping String Setting}
    (h : settingsAt files p = .ok settings) {o : Options} :
    load files {} p = .ok o ↔ takeAll {} settings.entries = .ok o := by
  rw [load_eq_ok_iff h denotesNumbers_none, numbersOf_none]
  rfl

/-- Options are loaded if everything can be read that the environment does not replace. A limit
with a variable is the number of that variable, unless the file has the last word about it; all
other options are as they are without the environment. -/
theorem load_of_settingsAt (files : Files) (env : Environment) (p : Path)
    (settings : Mapping String Setting) (hread : settingsAt files p = .ok settings)
    (henv : DenotesNumbers env)
    (hfile : ∀ e ∈ settings.entries, (∀ l i, Gives env l i → e.1 ≠ l.name) → Accepts e.1 e.2) :
    ∃ o, load files env p = .ok o ∧
      (∀ l i, Gives env l i →
        ((∀ s, ¬ Shadowed settings.entries l s) → o.limit l = i) ∧
        ∀ s, Shadowed settings.entries l s → s.integer? = some (o.limit l)) ∧
      (∀ o₀, load files {} p = .ok o₀ →
        (∀ s, o.switch s = o₀.switch s) ∧
        ∀ l, (∀ i, ¬ Gives env l i) → o.limit l = o₀.limit l) ∧
      ((∀ e ∈ settings.entries, Accepts e.1 e.2) → ∃ o₀, load files {} p = .ok o₀) := by
  have haccepts := accepts_putAll henv hfile
  obtain ⟨o, hok, hupdates⟩ := takeAll_of_accepts {} haccepts
  refine ⟨o, (load_eq_ok_iff hread henv).mpr hok,
    fun l i hgives => ⟨fun hfree => ?_, fun s hs => ?_⟩, fun o₀ ho₀ => ?_, fun hall => ?_⟩
  · rw [hupdates.limit, getLast?_filterMap_limitGiven?,
      lastGiven?_putAll nodup_numbersOf (mem_numbersOf_iff.mpr hgives) hfree]
    rfl
  · obtain ⟨j, hj⟩ := integer?_of_shadowed hfile hs
    rw [hupdates.limit, getLast?_filterMap_limitGiven?,
      lastGiven?_putAll_of_shadowed nodup_numbersOf (mem_numbersOf_iff.mpr hgives) hs, hj]
    rfl
  · have hupdates₀ := updates_of_takeAll ((load_none_eq_ok_iff hread).mp ho₀)
    refine ⟨fun s => ?_, fun l hl => ?_⟩
    · rw [hupdates.switch, hupdates₀.switch,
        filterMap_putAll _ fun v _ setting => switchGiven?_limit_name s v.1 setting]
    · have hother : ∀ v ∈ numbersOf env overrides, ∀ setting,
          limitGiven? l (v.1.name, setting) = none := by
        intro v hv setting
        have hne : l ≠ v.1 := by
          rintro rfl
          exact hl v.2 (mem_numbersOf_iff.mp hv)
        simp [limitGiven?_eq, Limit.isName_name, hne]
      rw [hupdates.limit, hupdates₀.limit, filterMap_putAll _ hother]
  · obtain ⟨o₀, hok₀, -⟩ := takeAll_of_accepts {} hall
    exact ⟨o₀, (load_none_eq_ok_iff hread).mpr hok₀⟩

/-! ### A file of one text -/

/-- A file that holds a text, and no other. -/
def fileOf (text : String) : Files := .single ⟨.here, ["c.yaml"]⟩ (Text.Utf8.encode text)

theorem read_fileOf (text : String) :
    (fileOf text).read ⟨.here, ["c.yaml"]⟩ = .ok (.ok (Text.Utf8.encode text)) := by
  rw [fileOf, Files.read, Files.get_single (by decide) rfl (by simp) (by decide), if_pos rfl]

/-- Its settings are those that its bytes give. -/
theorem settingsAt_fileOf {text : String} {settings : Mapping String Setting}
    (h : settingsOfBytes (Text.Utf8.encode text) = .ok settings) :
    settingsAt (fileOf text) ⟨.here, ["c.yaml"]⟩ = .ok settings := by
  rw [settingsAt, read_fileOf]
  show (settingsOfBytes (Text.Utf8.encode text)).mapError _ = _
  rw [h]
  rfl

/-! ### Both names in one file -/

/-- A file that gives a limit under both of its names, last under the editor's. -/
def bothNames : Files :=
  .single ⟨.here, ["c.yaml"]⟩ (Text.Utf8.encode "max_depth: 5\nmaxDepth: 7\n")

/-- Variables for that limit and for another one. -/
def twoVariables : Environment :=
  .ofList [("STORYLOGIC_MAX_NODE_COUNT", "9"), ("STORYLOGIC_MAX_DEPTH", "3")]

/-- The settings in that file. -/
def bothSettings : Mapping String Setting :=
  { entries := [("max_depth", .number 5), ("maxDepth", .number 7)] }

theorem settingsAt_bothNames :
    settingsAt bothNames ⟨.here, ["c.yaml"]⟩ = .ok bothSettings :=
  settingsAt_fileOf (by decide +kernel)

theorem accepts_bothSettings : ∀ e ∈ bothSettings.entries, Accepts e.1 e.2 := by
  have htake : takeAll {} bothSettings.entries = .ok { maxDepth := 7 } := rfl
  exact accepts_of_takeAll htake

theorem denotesNumbers_twoVariables : DenotesNumbers twoVariables := by
  intro name l raw hmem hraw
  simp only [overrides, List.mem_cons, Prod.mk.injEq, List.not_mem_nil, or_false] at hmem
  obtain ⟨rfl, rfl⟩ | ⟨rfl, rfl⟩ | ⟨rfl, rfl⟩ := hmem
  · cases hraw
    exact ⟨9, rfl⟩
  · cases hraw
  · cases hraw
    exact ⟨3, rfl⟩

theorem gives_twoVariables_depth : Gives twoVariables .depth 3 :=
  ⟨"STORYLOGIC_MAX_DEPTH", "3", by decide, rfl, rfl⟩

/-- The limit on nodes is that of its variable, and the limit on depth that of the file. -/
theorem load_bothNames : ∃ o, load bothNames twoVariables ⟨.here, ["c.yaml"]⟩ = .ok o ∧
    o.limit .nodeCount = 9 ∧ o.limit .depth = 7 := by
  obtain ⟨o, hload, hlimits, -⟩ := load_of_settingsAt bothNames twoVariables ⟨.here, ["c.yaml"]⟩
    bothSettings settingsAt_bothNames denotesNumbers_twoVariables
    fun e he _ => accepts_bothSettings e he
  refine ⟨o, hload, (hlimits .nodeCount 9 ?_).1 fun s hs => ?_, ?_⟩
  · exact ⟨"STORYLOGIC_MAX_NODE_COUNT", "9", by decide, rfl, rfl⟩
  · obtain ⟨-, t, hsub⟩ := hs
    simpa [bothSettings, Limit.name] using hsub.subset List.mem_cons_self
  · have hlast := (hlimits .depth 3 gives_twoVariables_depth).2 (.number 7)
      ⟨by decide, .number 5, List.Sublist.refl _⟩
    exact (Option.some.inj hlast).symm

/-- A variable does not take precedence over every file. -/
theorem not_forall_gives_limit :
    ¬ ∀ (files : Files) (env : Environment) (p : Path) (settings : Mapping String Setting),
      settingsAt files p = .ok settings → DenotesNumbers env →
      (∀ e ∈ settings.entries, Accepts e.1 e.2) →
      ∃ o, load files env p = .ok o ∧ ∀ l i, Gives env l i → o.limit l = i := by
  intro h
  obtain ⟨o, hload, hlimits⟩ := h bothNames twoVariables ⟨.here, ["c.yaml"]⟩ bothSettings
    settingsAt_bothNames denotesNumbers_twoVariables accepts_bothSettings
  rw [load_eq_of_settingsAt settingsAt_bothNames] at hload
  have hseven : o = { maxNodeCount := 9, maxDepth := 7 } := by
    cases hload
    rfl
  have hthree := hlimits .depth 3 gives_twoVariables_depth
  rw [hseven] at hthree
  exact absurd hthree (by decide)

end ConfigFile
end PlotGraph
