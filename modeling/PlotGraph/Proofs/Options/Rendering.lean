import PlotGraph.Proofs.Options.Fields
import Mathlib.Algebra.Order.Ring.Int

/-!
# Options that are written out

Options can be written as the fields of an object in many ways: each under either of its names,
as its value or as the text of it, with white space around the text and its letters in any case,
and all of them in any order (`Options.Renders`). Whichever way is chosen, the fields give the
options back (`Options.ofFields_of_renders`). Only a limit of more than 4300 digits has no text
that could be read.
-/

namespace PlotGraph

/-! ### Texts that say a word -/

namespace Text

/-- A text is a word with white space around it and with its letters in any case. -/
def Says (s word : String) : Prop :=
  ∃ before cs after, s.toList = before ++ cs ++ after ∧
    (∀ c ∈ before ++ after, isBlank c = true) ∧
      cs.map Char.toLower = word.toList.map Char.toLower

/-- Without letters there is nothing to lower. -/
theorem map_toLower_of_not_isAlpha {cs : List Char} (h : ∀ c ∈ cs, ¬ c.isAlpha = true) :
    cs.map Char.toLower = cs :=
  (List.map_congr_left fun c hc => toLower_eq_of_not_isAlpha (h c hc)).trans (List.map_id cs)

/-- White space has no case. -/
theorem toLower_eq_of_isBlank {c : Char} (h : isBlank c = true) : c.toLower = c := by
  apply toLower_eq_of_not_isAlpha
  intro halpha
  have hblank := isBlank_eq_false_of_isAlphanum (c := c) (by rw [Char.isAlphanum, halpha]; rfl)
  rw [h] at hblank
  cases hblank

variable {s word : String}

/-- The word is found again, in lower case. -/
theorem Says.map_toLower_strip (h : Says s word)
    (hword : ∀ c ∈ word.toList.map Char.toLower, c.isAlphanum = true) :
    (strip s.toList).map Char.toLower = word.toList.map Char.toLower := by
  obtain ⟨before, cs, after, hs, hblank, hsame⟩ := h
  rw [List.forall_mem_append] at hblank
  have hcs : ∀ c ∈ cs, isBlank c = false := by
    intro c hc
    by_contra hc'
    rw [Bool.not_eq_false] at hc'
    -- white space would stand in the word too
    have hmem : c.toLower ∈ word.toList.map Char.toLower := hsame ▸ List.mem_map_of_mem hc
    rw [toLower_eq_of_isBlank hc'] at hmem
    rw [isBlank_eq_false_of_isAlphanum (hword c hmem)] at hc'
    cases hc'
  rw [hs, strip, trimBoth_append hblank.1 hcs hblank.2, hsame]

/-- A numeral is found again as it is. -/
theorem Says.strip_eq (h : Says s word) (hword : ∀ c ∈ word.toList, c.isDigit = true) :
    strip s.toList = word.toList := by
  have hlower : word.toList.map Char.toLower = word.toList :=
    map_toLower_of_not_isAlpha fun c hc => not_isAlpha_of_isDigit (hword c hc)
  have hstrip := h.map_toLower_strip fun c hc => by
    rw [hlower] at hc
    rw [Char.isAlphanum, hword c hc, Bool.or_true]
  rw [hlower] at hstrip
  rw [← hstrip]
  refine (map_toLower_of_not_isAlpha fun c hc => ?_).symm
  -- in lower case the character is a digit, so that it is no letter
  have hdigit : c.toLower.isDigit = true := hword _ (hstrip ▸ List.mem_map_of_mem hc)
  exact not_isAlpha_of_isDigit_toLower hdigit

end Text

/-! ### Values that are written out -/

/-- A value is given as it is or as its text. -/
def Value.Renders (v w : Value) : Prop := w = v ∨ ∃ s, w = .str s ∧ Text.Says s v.text

/-- A word that says a truth value is read as it. -/
theorem truthOfWord?_of_says {s : String} {b : Bool} (h : Text.Says s (Value.bool b).text) :
    truthOfWord? s = some b := by
  have hword : ∀ c ∈ (Value.bool b).text.toList.map Char.toLower, c.isAlphanum = true := by
    cases b <;> simp [Value.text, Value.shown]
  rw [truthOfWord?, h.map_toLower_strip hword]
  cases b <;> simp [Value.text, Value.shown, truthWords, Pairs.lookup]

/-- A word that says a number is read as it, unless the number is too long. -/
theorem readInt?_of_says {s : String} {n : Nat} (hn : n < 10 ^ Decimal.maxDigits)
    (h : Text.Says s (Value.int n).text) :
    Decimal.readInt? (Text.strip s.toList) = some (n : Int) := by
  have htext : (Value.int n).text.toList = Decimal.digits n := String.toList_ofList
  have hdigits : ∀ c ∈ (Value.int n).text.toList, c.isDigit = true := fun c hc =>
    Decimal.isDigit_of_mem_digits (htext ▸ hc)
  rw [h.strip_eq hdigits, htext, Decimal.readInt?_digits hn]

namespace Value

/-- Whatever renders a truth value is taken for it. -/
theorem Renders.isTruth {b : Bool} {w : Value} (h : (bool b).Renders w) : w.IsTruth b :=
  h.imp id fun ⟨s, hw, hs⟩ => ⟨s, hw, truthOfWord?_of_says hs⟩

/-- Whatever renders a number is taken for it, unless the number is too long. -/
theorem Renders.isInteger {n : Nat} {w : Value} (hn : n < 10 ^ Decimal.maxDigits)
    (h : (int n).Renders w) : w.IsInteger n :=
  h.imp id fun ⟨s, hw, hs⟩ => ⟨s, hw, readInt?_of_says hn hs⟩

end Value

/-! ### Options that are written out -/

/-- All options, in the order in which they are listed. -/
def OptionKey.all : List OptionKey := Switch.all.map .switch ++ Limit.all.map .limit

/-- What is said of one option only is said once. -/
theorem OptionKey.filterMap_all {α : Type} (k : OptionKey) (x : α) :
    (all.filterMap fun key => if key = k then some x else none) = [x] := by
  cases k with
  | switch s => cases s <;> rfl
  | limit l => cases l <;> rfl

namespace Options

/-- The value of an option. -/
def value (o : Options) : OptionKey → Value
  | .switch s => .bool (o.switch s)
  | .limit l => .int (o.limit l)

/-- A field gives an option its value, under one of its names. -/
def RendersAt (o : Options) (key : OptionKey) (f : String × Value) : Prop :=
  f.1 ∈ key.names ∧ (o.value key).Renders f.2

/-- Fields give each option its value, in some order. -/
def Renders (o : Options) (fields : List (String × Value)) : Prop :=
  ∃ form : OptionKey → String × Value, (∀ key, o.RendersAt key (form key)) ∧
    fields.Perm (OptionKey.all.map form)

/-- The limits are natural numbers with no more digits than can be read. -/
def HasShortLimits (o : Options) : Prop :=
  ∀ l, 0 ≤ o.limit l ∧ o.limit l < 10 ^ Decimal.maxDigits

variable {o : Options} {key : OptionKey} {f : String × Value} {fields : List (String × Value)}

/-- A field that renders an option is under one of its names. -/
theorem RendersAt.ofName?_eq (h : o.RendersAt key f) : OptionKey.ofName? f.1 = some key :=
  OptionKey.ofName?_eq_some_iff.mpr h.1

/-! ### Reading one option -/

theorem RendersAt.isTruth {s : Switch} (h : o.RendersAt (.switch s) f) :
    f.2.IsTruth (o.switch s) := h.2.isTruth

/-- The field for a limit is taken for the limit. -/
theorem RendersAt.isInteger {l : Limit} (ho : o.HasShortLimits) (h : o.RendersAt (.limit l) f) :
    f.2.IsInteger (o.limit l) := by
  obtain ⟨hnonneg, hshort⟩ := ho l
  obtain ⟨n, hn⟩ := Int.eq_ofNat_of_zero_le hnonneg
  have hrenders : (Value.int n).Renders f.2 := hn ▸ h.2
  rw [hn] at hshort ⊢
  exact hrenders.isInteger (by exact_mod_cast hshort)

/-- A field that renders an option is accepted. -/
theorem RendersAt.accepts (ho : o.HasShortLimits) (h : o.RendersAt key f) :
    Accepts f.1 (Setting.ofValue f.2) := by
  intro key' hkey' _
  cases h.ofName?_eq.symm.trans hkey'
  rw [reads_ofValue_iff]
  cases key with
  | switch s => exact ⟨_, h.isTruth⟩
  | limit l => exact ⟨_, h.isInteger ho, (ho l).1⟩

/-- It gives the switch that it renders, and no other. -/
theorem RendersAt.switchGiven?_eq (h : o.RendersAt key f) (s : Switch) :
    switchGiven? s (f.1, Setting.ofValue f.2) =
      if key = .switch s then some (o.switch s) else none := by
  simp only [switchGiven?, h.ofName?_eq, Option.some.injEq]
  by_cases hkey : key = .switch s
  · subst hkey
    rw [if_pos rfl, if_pos rfl, Setting.truth?_ofValue]
    exact h.isTruth
  · rw [if_neg hkey, if_neg hkey]

/-- It gives the limit that it renders, and no other. -/
theorem RendersAt.limitGiven?_eq (ho : o.HasShortLimits) (h : o.RendersAt key f) (l : Limit) :
    limitGiven? l (f.1, Setting.ofValue f.2) =
      if key = .limit l then some (o.limit l) else none := by
  simp only [limitGiven?, h.ofName?_eq, Option.some.injEq]
  by_cases hkey : key = .limit l
  · subst hkey
    rw [if_pos rfl, if_pos rfl, Setting.integer?_ofValue]
    exact h.isInteger ho
  · rw [if_neg hkey, if_neg hkey]

/-! ### Reading all options -/

/-- The one field of an option is its last one, wherever it stands. -/
theorem Renders.getLast?_filterMap {α : Type} {given? : String × Value → Option α}
    {k : OptionKey} {x : α} (h : o.Renders fields)
    (hgiven : ∀ key f, o.RendersAt key f → given? f = if key = k then some x else none) :
    (fields.filterMap given?).getLast? = some x := by
  obtain ⟨form, hform, hperm⟩ := h
  have hone : (OptionKey.all.map form).filterMap given? = [x] := by
    rw [List.filterMap_map, ← OptionKey.filterMap_all k x]
    exact List.filterMap_congr fun key _ => hgiven key (form key) (hform key)
  have hfields : (fields.filterMap given?).Perm [x] := hone ▸ hperm.filterMap given?
  rw [List.perm_singleton.mp hfields, List.getLast?_singleton]

/-- All fields of a rendering are accepted. -/
theorem Renders.accepts (ho : o.HasShortLimits) (h : o.Renders fields) :
    ∀ e ∈ fields.map fun f => (f.1, Setting.ofValue f.2), Accepts e.1 e.2 := by
  obtain ⟨form, hform, hperm⟩ := h
  rw [List.forall_mem_map]
  intro f hf
  obtain ⟨key, -, rfl⟩ := List.mem_map.mp (hperm.mem_iff.mp hf)
  exact (hform key).accepts ho

/-- The fields of a rendering lead from the defaults to the options that they render. -/
theorem Renders.updates (ho : o.HasShortLimits) (h : o.Renders fields) :
    Updates {} (fields.map fun f => (f.1, Setting.ofValue f.2)) o where
  switch s := by
    have hlast := h.getLast?_filterMap fun _ _ hf => hf.switchGiven?_eq s
    rw [List.filterMap_map]
    exact (congrArg (Option.getD · _) hlast).symm
  limit l := by
    have hlast := h.getLast?_filterMap fun _ _ hf => hf.limitGiven?_eq ho l
    rw [List.filterMap_map]
    exact (congrArg (Option.getD · _) hlast).symm

/-- **Options survive being written out.** Options with natural numbers of at most 4300 digits
for limits are given back by any fields that give each of them its value, be it as it is or as a
text, under whichever of its names and in whatever order. -/
theorem ofFields_of_renders (o : Options) (fields : List (String × Value))
    (ho : o.HasShortLimits) (h : o.Renders fields) : ofFields fields = .ok o :=
  takeAll_eq_ok_iff.mpr ⟨h.accepts ho, h.updates ho⟩

/-- Options that differ from the defaults in a switch and a limit. -/
def shallow : Options := { checkDeadCode := false, maxDepth := 7 }

/-- What differs is given as text under the names of the editor, all else as it is. -/
def mixedForm : OptionKey → String × Value
  | .switch .deadCode => ("checkDeadCode", .str "\u2003fALSE\n")
  | .limit .depth => ("maxDepth", .str "\t7 ")
  | .switch s => (s.name, .bool true)
  | .limit l => (l.name, .int (shallow.limit l))

theorem mixedForm_rendersAt (key : OptionKey) : shallow.RendersAt key (mixedForm key) := by
  have hseven : (Value.int 7).text = "7" := by
    simp [Value.text, Value.shown, Decimal.ofInt, Decimal.signedDigits,
      Decimal.digits_eq_of_lt_ten, Decimal.digitChar]
  cases key with
  | switch s =>
      cases s
      case deadCode =>
        refine ⟨by decide, .inr ⟨_, rfl, ['\u2003'], "fALSE".toList, ['\n'], rfl, ?_, ?_⟩⟩
        · simp [Text.isBlank, Text.blankCodes]
        · rw [show (shallow.value (.switch .deadCode)).text = "False" from rfl]
          decide
      all_goals exact ⟨by decide, .inl rfl⟩
  | limit l =>
      cases l
      case depth =>
        refine ⟨by decide, .inr ⟨_, rfl, ['\t'], ['7'], [' '], rfl, ?_, ?_⟩⟩
        · simp [Text.isBlank, Text.blankCodes]
        · rw [show shallow.value (.limit .depth) = .int 7 from rfl, hseven]
          rfl
      all_goals exact ⟨by decide, .inl rfl⟩

theorem hasShortLimits_shallow : shallow.HasShortLimits := by
  intro l
  have hsmall : 0 ≤ shallow.limit l ∧ shallow.limit l < 10 ^ 4 := by
    cases l <;> decide
  refine ⟨hsmall.1, hsmall.2.trans_le ?_⟩
  exact pow_le_pow_right₀ (by decide) (by decide)

/-- Both are read back, from fields in the opposite order. -/
theorem ofFields_mixedForm :
    shallow.HasShortLimits ∧ shallow.Renders (OptionKey.all.map mixedForm).reverse ∧
      ofFields (OptionKey.all.map mixedForm).reverse = .ok shallow := by
  have hrenders : shallow.Renders (OptionKey.all.map mixedForm).reverse :=
    ⟨mixedForm, mixedForm_rendersAt, List.reverse_perm _⟩
  exact ⟨hasShortLimits_shallow, hrenders,
    ofFields_of_renders shallow _ hasShortLimits_shallow hrenders⟩

end Options
end PlotGraph
