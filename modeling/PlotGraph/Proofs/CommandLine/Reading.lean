import PlotGraph.CommandLine.Arguments
import Mathlib.Data.List.Nodup
import Mathlib.Data.List.Pairwise
import Mathlib.Data.List.TakeDrop
import Mathlib.Data.List.TakeWhile
import Mathlib.Tactic.ByContra

/-!
# How words give options

What the words of a command line say is told here without reading them in order: which word, or
which two, give which options, and how the words of a line are put together from such pieces
(`Arguments.Spells`). The same options can be spelled in several ways, but no line says two things,
and what is read from a line is what it says (`Arguments.read_eq_some_iff`).
-/

namespace PlotGraph.CommandLine.Arguments

variable {κ : Type}

/-! ### Spelling -/

/-- Options can be told by their names: no two share one, no name holds an equals sign, and none
is two hyphens. -/
structure Regular (forms : List (OptionForm κ)) : Prop where
  distinct : (forms.flatMap (·.names)).Nodup
  noEquals : ∀ f ∈ forms, ∀ name ∈ f.names, '=' ∉ name.toList
  noDashes : ∀ f ∈ forms, "--" ∉ f.names

/-- Letters behind a hyphen give options. The last of them may take a value, which is the rest of
the word, or else the word that follows. -/
inductive Letters (forms : List (OptionForm κ)) :
    List Char → Option String → List (κ × String) → Prop
  | nil : Letters forms [] none []
  | flag {letter : Char} {letters : List Char} {after : Option String} {os : List (κ × String)}
      {form : OptionForm κ} (known : form ∈ forms)
      (named : String.ofList ['-', letter] ∈ form.names) (plain : form.takesValue = false)
      (more : Letters forms letters after os) :
      Letters forms (letter :: letters) after ((form.key, "") :: os)
  | joined {letter : Char} {value : List Char} {form : OptionForm κ} (known : form ∈ forms)
      (named : String.ofList ['-', letter] ∈ form.names) (valued : form.takesValue = true)
      (given : value ≠ []) :
      Letters forms (letter :: value) none [(form.key, String.ofList value)]
  | followed {letter : Char} {value : String} {form : OptionForm κ} (known : form ∈ forms)
      (named : String.ofList ['-', letter] ∈ form.names) (valued : form.takesValue = true) :
      Letters forms [letter] (some value) [(form.key, value)]

/-- A word gives options, by itself or with the word that follows. -/
inductive Gives (forms : List (OptionForm κ)) :
    String → Option String → List (κ × String) → Prop
  | flag {name : String} {form : OptionForm κ} (known : form ∈ forms) (named : name ∈ form.names)
      (long : isLong name = true) (plain : form.takesValue = false) :
      Gives forms name none [(form.key, "")]
  | joined {name value : String} {form : OptionForm κ} (known : form ∈ forms)
      (named : name ∈ form.names) (long : isLong name = true) (valued : form.takesValue = true) :
      Gives forms (name ++ "=" ++ value) none [(form.key, value)]
  | followed {name value : String} {form : OptionForm κ} (known : form ∈ forms)
      (named : name ∈ form.names) (long : isLong name = true) (valued : form.takesValue = true) :
      Gives forms name (some value) [(form.key, value)]
  | letters {word : String} {after : Option String} {os : List (κ × String)}
      (short : isLong word = false) (spelled : Letters forms word.toList.tail after os) :
      Gives forms word after os

/-- Words say which options and operands there are. Everything behind two hyphens is an operand,
and so is everything from the first operand on, unless options may follow it. -/
inductive Spells (forms : List (OptionForm κ)) (mixed : Bool) :
    List String → Arguments κ → Prop
  | nil : Spells forms mixed [] {}
  | dashes (operands : List String) : Spells forms mixed ("--" :: operands) { operands }
  | options {word : String} {after : Option String} {os : List (κ × String)}
      {rest : List String} {a : Arguments κ} (hyphen : namesOptions word = true)
      (gives : Gives forms word after os) (more : Spells forms mixed rest a) :
      Spells forms mixed (word :: (after.toList ++ rest)) ⟨os ++ a.options, a.operands⟩
  | operand {word : String} {rest : List String} {a : Arguments κ} (may : mixed = true)
      (bare : namesOptions word = false) (more : Spells forms mixed rest a) :
      Spells forms mixed (word :: rest) ⟨a.options, word :: a.operands⟩
  | operands {word : String} {rest : List String} (may : mixed = false)
      (bare : namesOptions word = false) :
      Spells forms mixed (word :: rest) { operands := word :: rest }

variable {forms : List (OptionForm κ)} {mixed : Bool}

/-! ### Names and values -/

/-- A name belongs to one form. -/
theorem Regular.eq_of_named (h : Regular forms) {f f' : OptionForm κ} {name : String}
    (hf : f ∈ forms) (hf' : f' ∈ forms) (hname : name ∈ f.names) (hname' : name ∈ f'.names) :
    f = f' := by
  have hdisjoint := (List.nodup_flatMap.mp h.distinct).2
  have hsymm : Std.Symm (Function.onFun List.Disjoint (OptionForm.names (κ := κ))) :=
    ⟨fun _ _ hd => List.disjoint_symm hd⟩
  by_contra hne
  exact hdisjoint.forall hf hf' hne hname hname'

/-- A form is found by any of its names. -/
theorem find?_eq_some_iff (h : Regular forms) {name : String} {form : OptionForm κ} :
    find? forms name = some form ↔ form ∈ forms ∧ name ∈ form.names := by
  have hmem : ∀ {f}, find? forms name = some f → f ∈ forms ∧ name ∈ f.names := by
    intro f hf
    exact ⟨List.mem_of_find?_eq_some hf, by simpa using List.find?_some hf⟩
  refine ⟨hmem, fun ⟨hform, hname⟩ => ?_⟩
  cases hfind : find? forms name with
  | none =>
      have hnone := List.find?_eq_none.mp hfind form hform
      simp [hname] at hnone
  | some f =>
      obtain ⟨hf, hnamed⟩ := hmem hfind
      rw [h.eq_of_named hf hform hnamed hname]

/-- Letters are split at the first equals sign. -/
theorem span_eq_iff {letters name rest : List Char} :
    letters.span (· != '=') = (name, rest) ↔
      letters = name ++ rest ∧ '=' ∉ name ∧ ∀ c ∈ rest.head?, c = '=' := by
  rw [List.span_eq_takeWhile_dropWhile, Prod.mk.injEq]
  constructor
  · rintro ⟨rfl, rfl⟩
    refine ⟨List.takeWhile_append_dropWhile.symm, fun hmem => ?_, fun c hc => ?_⟩
    · simpa using List.mem_takeWhile_imp hmem
    · have hstop := List.head?_dropWhile_not (· != '=') letters
      rw [Option.mem_def.mp hc] at hstop
      simpa using hstop
  · rintro ⟨rfl, hname, hrest⟩
    have hpos : ∀ c ∈ name, (c != '=') = true := by
      intro c hc
      exact bne_iff_ne.mpr (ne_of_mem_of_not_mem hc hname)
    rw [List.takeWhile_append_of_pos hpos, List.dropWhile_append_of_pos hpos]
    cases rest with
    | nil => simp
    | cons c rest =>
        obtain rfl := hrest c rfl
        simp

/-- A word is split at its first equals sign. -/
theorem splitValue_eq_iff {word name : String} {value : Option String} :
    splitValue word = (name, value) ↔ '=' ∉ name.toList ∧
      word.toList = name.toList ++ value.elim [] fun v => '=' :: v.toList := by
  rw [splitValue]
  constructor
  · intro h
    split at h
    · next letters hspan =>
        obtain ⟨hword, hname, -⟩ := span_eq_iff.mp hspan
        cases h
        exact ⟨by simpa using hname, by simpa using hword⟩
    · next letters c rest hspan =>
        obtain ⟨hword, hname, hequals⟩ := span_eq_iff.mp hspan
        obtain rfl := hequals c rfl
        cases h
        exact ⟨by simpa using hname, by simpa using hword⟩
  · rintro ⟨hname, hword⟩
    have hspan := span_eq_iff.mpr ⟨hword, hname, by cases value <;> simp⟩
    rw [hspan]
    cases value <;> simp

theorem eq_of_splitValue_none {word name : String} (h : splitValue word = (name, none)) :
    word = name :=
  String.ext (by simpa using (splitValue_eq_iff.mp h).2)

/-- A word with a value is the name, an equals sign and the value. -/
theorem eq_of_splitValue_some {word name value : String}
    (h : splitValue word = (name, some value)) : word = name ++ "=" ++ value :=
  String.ext (by simpa using (splitValue_eq_iff.mp h).2)

/-! ### What is read -/

section Reading

variable {letters : List Char} {word : String} {next : Option String} {r : Reading κ}

/-- Letters that are read say what the result tells. -/
theorem letters_of_readLetters (h : Regular forms)
    (hread : readLetters forms next letters = some r) :
    ∃ after, Letters forms letters after r.options ∧ r.takesNext = after.isSome ∧
      (after = none ∨ after = next) := by
  induction letters generalizing r with
  | nil =>
      cases hread
      exact ⟨none, .nil, rfl, .inl rfl⟩
  | cons letter rest ih =>
      rw [readLetters, Option.bind_eq_bind, Option.bind_eq_some_iff] at hread
      obtain ⟨form, hform, hread⟩ := hread
      obtain ⟨hknown, hnamed⟩ := (find?_eq_some_iff h).mp hform
      split at hread
      · next hplain =>
          obtain ⟨more, hmore, hread⟩ := Option.bind_eq_some_iff.mp hread
          cases hread
          obtain ⟨after, hletters, htakes, hafter⟩ := ih hmore
          exact ⟨after, .flag hknown hnamed (by simpa using hplain) hletters, htakes, hafter⟩
      · next hvalued =>
          have hvalued : form.takesValue = true := by simpa using hvalued
          split at hread
          · next hlast =>
              obtain ⟨value, hvalue, hread⟩ := Option.bind_eq_some_iff.mp hread
              cases hread
              rw [List.isEmpty_iff.mp hlast]
              exact ⟨some value, .followed hknown hnamed hvalued, rfl, .inr hvalue.symm⟩
          · next hlast =>
              cases hread
              exact ⟨none, .joined hknown hnamed hvalued (by simpa using hlast), rfl, .inl rfl⟩

/-- Letters are read as what they say. -/
theorem readLetters_of_letters (h : Regular forms) {after : Option String}
    {os : List (κ × String)} (hletters : Letters forms letters after os)
    (hafter : after = none ∨ after = next) :
    readLetters forms next letters = some ⟨os, after.isSome⟩ := by
  induction hletters with
  | nil => rfl
  | flag known named plain more ih =>
      rw [readLetters, (find?_eq_some_iff h).mpr ⟨known, named⟩]
      simp [plain, ih hafter]
  | joined known named valued given =>
      rw [readLetters, (find?_eq_some_iff h).mpr ⟨known, named⟩]
      simp [valued, given]
  | followed known named valued =>
      rw [readLetters, (find?_eq_some_iff h).mpr ⟨known, named⟩]
      obtain hnone | rfl := hafter
      · cases hnone
      · simp [valued]

/-- A word that is read gives what the result tells. -/
theorem gives_of_readWord (h : Regular forms) (hread : readWord forms word next = some r) :
    ∃ after, Gives forms word after r.options ∧ r.takesNext = after.isSome ∧
      (after = none ∨ after = next) := by
  rw [readWord] at hread
  dsimp only at hread
  split at hread
  · next form hform =>
      obtain ⟨hfound, hlong⟩ := Option.filter_eq_some_iff.mp hform
      obtain ⟨hknown, hnamed⟩ := (find?_eq_some_iff h).mp hfound
      split at hread
      · next value hvalued hvalue =>
          cases hread
          rw [eq_of_splitValue_some (Prod.ext rfl hvalue)]
          exact ⟨none, .joined hknown hnamed hlong hvalued, rfl, .inl rfl⟩
      · next hvalued hnone =>
          obtain ⟨value, hvalue, rfl⟩ := Option.map_eq_some_iff.mp hread
          rw [eq_of_splitValue_none (Prod.ext rfl hnone)]
          exact ⟨some value, .followed hknown hnamed hlong hvalued, rfl, .inr hvalue.symm⟩
      · cases hread
      · next hplain hnone =>
          cases hread
          rw [eq_of_splitValue_none (Prod.ext rfl hnone)]
          exact ⟨none, .flag hknown hnamed hlong hplain, rfl, .inl rfl⟩
  · split at hread
    · cases hread
    · next hshort =>
        obtain ⟨after, hletters, hafter⟩ := letters_of_readLetters h hread
        exact ⟨after, .letters (by simpa using hshort) hletters, hafter⟩

/-- A word is long if its name is. -/
theorem isLong_of_splitValue {name : String} {value : Option String}
    (h : splitValue word = (name, value)) (hlong : isLong name = true) : isLong word = true := by
  rw [isLong, List.isPrefixOf_iff_prefix] at hlong ⊢
  rw [(splitValue_eq_iff.mp h).2]
  exact hlong.trans (List.prefix_append _ _)

/-- A long name without a value is read as its option. -/
theorem readWord_of_plain (h : Regular forms) {form : OptionForm κ} {name : String}
    (hknown : form ∈ forms) (hnamed : name ∈ form.names) (hlong : isLong name = true)
    (hplain : form.takesValue = false) (hsplit : splitValue word = (name, none)) :
    readWord forms word next = some ⟨[(form.key, "")], false⟩ := by
  have hfound := (find?_eq_some_iff h).mpr ⟨hknown, hnamed⟩
  rw [readWord, hsplit]
  simp only [hfound, hlong, hplain, Option.filter_some, if_true]

/-- A long name is read with the value behind the equals sign, or else with the next word. -/
theorem readWord_of_valued (h : Regular forms) {form : OptionForm κ} {name : String}
    {value : Option String} (hknown : form ∈ forms) (hnamed : name ∈ form.names)
    (hlong : isLong name = true) (hvalued : form.takesValue = true)
    (hsplit : splitValue word = (name, value)) :
    readWord forms word next = (value.map fun v => ⟨[(form.key, v)], false⟩).or
      (next.map fun v => ⟨[(form.key, v)], true⟩) := by
  have hfound := (find?_eq_some_iff h).mpr ⟨hknown, hnamed⟩
  rw [readWord, hsplit]
  simp only [hfound, hlong, hvalued, Option.filter_some, if_true]
  cases value with
  | none => simp
  | some v => simp

/-- A word is read as what it gives. -/
theorem readWord_of_gives (h : Regular forms) {after : Option String} {os : List (κ × String)}
    (hgives : Gives forms word after os) (hafter : after = none ∨ after = next) :
    readWord forms word next = some ⟨os, after.isSome⟩ := by
  cases hgives with
  | @flag _ form known named long plain =>
      have hsplit : splitValue word = (word, none) :=
        splitValue_eq_iff.mpr ⟨h.noEquals form known word named, by simp⟩
      exact readWord_of_plain h known named long plain hsplit
  | @joined name value form known named long valued =>
      have hsplit : splitValue (name ++ "=" ++ value) = (name, some value) :=
        splitValue_eq_iff.mpr ⟨h.noEquals form known name named, by simp⟩
      exact readWord_of_valued h known named long valued hsplit
  | @followed _ value form known named long valued =>
      have hsplit : splitValue word = (word, none) :=
        splitValue_eq_iff.mpr ⟨h.noEquals form known word named, by simp⟩
      obtain hnone | rfl := hafter
      · cases hnone
      · exact readWord_of_valued h known named long valued hsplit
  | letters short spelled =>
      rcases hsplit : splitValue word with ⟨name, value⟩
      have hname : isLong name = false :=
        Bool.eq_false_iff.mpr fun hlong => by simp [isLong_of_splitValue hsplit hlong] at short
      rw [readWord, hsplit]
      simp [hname, short, readLetters_of_letters h spelled hafter]

end Reading

/-- The word that is taken as a value is the next one. -/
theorem toList_append_rest {after : Option String} {rest : List String}
    (hafter : after = none ∨ after = rest.head?) :
    after.toList ++ (if after.isSome then rest.tail else rest) = rest := by
  obtain rfl | rfl := hafter
  · rfl
  · cases rest <;> rfl

/-- Two dashes alone give nothing. -/
theorem Gives.ne_dashes (h : Regular forms) {after : Option String} {os : List (κ × String)}
    (hgives : Gives forms word after os) : word ≠ "--" := by
  rintro rfl
  generalize hword : "--" = word at hgives
  cases hgives with
  | @flag _ form known named => exact h.noDashes form known (hword ▸ named)
  | @followed _ _ form known named => exact h.noDashes form known (hword ▸ named)
  | @joined name value =>
      have hequals : '=' ∈ "--".toList := by simp [hword]
      revert hequals
      decide
  | letters short =>
      rw [← hword] at short
      revert short
      decide

/-- **What is read is what is said.** The options and operands that are read from words are those
that the words say, and words that say nothing are not read. -/
theorem read_eq_some_iff (h : Regular forms) {words : List String} {a : Arguments κ} :
    read forms mixed words = some a ↔ Spells forms mixed words a := by
  constructor
  · intro hread
    fun_induction read forms mixed words generalizing a with
    | case1 =>
        cases hread
        exact .nil
    | case2 rest =>
        cases hread
        exact .dashes rest
    | case3 word rest hdash hnames ih =>
        obtain ⟨r, hr, hread⟩ := Option.bind_eq_some_iff.mp hread
        obtain ⟨more, hmore, hread⟩ := Option.bind_eq_some_iff.mp hread
        cases hread
        obtain ⟨after, hgives, htakes, hafter⟩ := gives_of_readWord h hr
        have hmore : Spells forms mixed (if r.takesNext then rest.tail else rest) more :=
          ih r hmore
        rw [htakes] at hmore
        have hspells := Spells.options hnames hgives hmore
        rwa [toList_append_rest hafter] at hspells
    | case4 word rest hdash hnames hmixed ih =>
        obtain ⟨more, hmore, rfl⟩ := Option.map_eq_some_iff.mp hread
        exact .operand hmixed (by simpa using hnames) (ih hmore)
    | case5 word rest hdash hnames hmixed =>
        cases hread
        exact .operands (by simpa using hmixed) (by simpa using hnames)
  · intro hspells
    induction hspells with
    | nil => rw [read]
    | dashes operands => rw [read, if_pos rfl]
    | @options word after os rest a hyphen gives more ih =>
        have hafter : after = none ∨ after = (after.toList ++ rest).head? := by
          cases after <;> simp
        have hrest : (if after.isSome then (after.toList ++ rest).tail else after.toList ++ rest) =
            rest := by
          cases after <;> rfl
        rw [read, if_neg (gives.ne_dashes h), if_pos hyphen, readWord_of_gives h gives hafter]
        simp [hrest, ih]
    | @operand word rest a may bare more ih =>
        have hdash : word ≠ "--" := by
          rintro rfl
          revert bare
          decide
        rw [read, if_neg hdash, if_neg (by simp [bare]), if_pos may, ih]
        rfl
    | @operands word rest may bare =>
        have hdash : word ≠ "--" := by
          rintro rfl
          revert bare
          decide
        rw [read, if_neg hdash, if_neg (by simp [bare]), if_neg (by simp [may])]

end PlotGraph.CommandLine.Arguments
