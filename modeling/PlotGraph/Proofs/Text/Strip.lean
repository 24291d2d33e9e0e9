import PlotGraph.Text.Blank
import Mathlib.Data.List.DropRight

/-!
# White space around a word

To cut off a class of characters at both ends leaves what stands between them
(`trimBoth_append`), and a second cut finds nothing more (`trimBoth_trimBoth`). Letters and digits
are no white space (`isBlank_eq_false_of_isAlphanum`).

Words and numerals are stripped of the same white space, except for the four separators, which
only words are stripped of. A text without separators is therefore read alike as a numeral whether
it has been stripped before or not (`trimBoth_strip`).
-/

namespace PlotGraph.Text

variable {p q : Char → Bool} {before cs after : List Char}

/-! ### Cutting at both ends -/

theorem trimBoth_eq_rdropWhile (p : Char → Bool) (cs : List Char) :
    trimBoth p cs = (cs.dropWhile p).rdropWhile p := rfl

/-- What is dropped at the end may stand there or not. -/
theorem rdropWhile_append_of_pos (h : ∀ c ∈ after, p c = true) (cs : List Char) :
    (cs ++ after).rdropWhile p = cs.rdropWhile p := by
  have hreverse : ∀ c ∈ after.reverse, p c = true := fun c hc => h c (List.mem_reverse.mp hc)
  rw [List.rdropWhile, List.reverse_append, List.dropWhile_append_of_pos hreverse, List.rdropWhile]

/-- A list whose characters all stay is not shortened at its end. -/
theorem rdropWhile_of_forall_not (h : ∀ c ∈ cs, p c = false) : cs.rdropWhile p = cs := by
  rw [List.rdropWhile_eq_self_iff]
  intro hne
  simp [h _ (List.getLast_mem hne)]

/-- Where nothing passes, nothing is dropped. -/
theorem dropWhile_of_forall_not (h : ∀ c ∈ cs, p c = false) : cs.dropWhile p = cs := by
  rw [List.dropWhile_eq_self_iff]
  intro hlength
  simp [h _ (List.getElem_mem hlength)]

/-- Where nothing passes, nothing is trimmed. -/
theorem trimBoth_of_forall_not (h : ∀ c ∈ cs, p c = false) : trimBoth p cs = cs := by
  rw [trimBoth_eq_rdropWhile, dropWhile_of_forall_not h, rdropWhile_of_forall_not h]

/-- What stands between characters that are cut off is left. -/
theorem trimBoth_append (hbefore : ∀ c ∈ before, p c = true) (hcs : ∀ c ∈ cs, p c = false)
    (hafter : ∀ c ∈ after, p c = true) : trimBoth p (before ++ cs ++ after) = cs := by
  rw [trimBoth_eq_rdropWhile, List.append_assoc, List.dropWhile_append_of_pos hbefore]
  cases cs with
  | nil =>
      -- nothing is left to stop at, so that all is dropped from the front
      rw [List.nil_append, List.dropWhile_eq_nil_iff.mpr hafter]
      rfl
  | cons c rest =>
      have hstop : ((c :: rest) ++ after).dropWhile p = (c :: rest) ++ after := by
        rw [List.cons_append, List.dropWhile_cons_of_neg]
        simp [hcs c List.mem_cons_self]
      rw [hstop, rdropWhile_append_of_pos hafter, rdropWhile_of_forall_not hcs]

/-- What is left begins and ends with characters that stay. -/
theorem trimBoth_trimBoth (p : Char → Bool) (cs : List Char) :
    trimBoth p (trimBoth p cs) = trimBoth p cs := by
  have hstart : ((cs.dropWhile p).rdropWhile p).dropWhile p = (cs.dropWhile p).rdropWhile p := by
    rw [List.dropWhile_eq_self_iff]
    intro hlength
    -- the end is cut from a list that begins with a character that stays
    have hshorter := List.rdropWhile_prefix p (cs.dropWhile p)
    rw [hshorter.getElem hlength]
    exact List.dropWhile_get_zero_not p cs (hshorter.length_le.trans_lt' hlength)
  rw [trimBoth_eq_rdropWhile, trimBoth_eq_rdropWhile, hstart, List.rdropWhile_idempotent]

theorem dropWhile_congr (h : ∀ c ∈ cs, p c = q c) : cs.dropWhile p = cs.dropWhile q := by
  induction cs with
  | nil => rfl
  | cons c rest ih =>
      have hrest := ih fun d hd => h d (List.mem_cons_of_mem c hd)
      rw [List.dropWhile_cons, List.dropWhile_cons, h c List.mem_cons_self, hrest]

/-- Only the characters of the text matter for what is trimmed. -/
theorem trimBoth_congr (h : ∀ c ∈ cs, p c = q c) : trimBoth p cs = trimBoth q cs := by
  have hmem : ∀ c ∈ (cs.dropWhile q).reverse, p c = q c := fun c hc =>
    h c ((List.dropWhile_suffix q).subset (List.mem_reverse.mp hc))
  rw [trimBoth, trimBoth, dropWhile_congr h, dropWhile_congr hmem]

/-! ### Words and numerals -/

/-- Only the separators are white space around a word and not around a numeral. -/
theorem isNumeralBlank_eq {c : Char} (h : ¬ (0x1C ≤ c.toNat ∧ c.toNat ≤ 0x1F)) :
    isNumeralBlank c = isBlank c := by
  have hother : (0x1C ≤ c.toNat && c.toNat ≤ 0x1F) = false := by
    rw [← Bool.not_eq_true, Bool.and_eq_true, decide_eq_true_eq, decide_eq_true_eq]
    exact h
  rw [isNumeralBlank, hother, Bool.not_false, Bool.and_true]

/-- To strip a text without separators changes nothing for the reader of numerals. -/
theorem trimBoth_strip (h : ∀ c ∈ cs, ¬ (0x1C ≤ c.toNat ∧ c.toNat ≤ 0x1F)) :
    trimBoth isNumeralBlank (strip cs) = trimBoth isNumeralBlank cs := by
  have hsame : strip cs = trimBoth isNumeralBlank cs :=
    trimBoth_congr fun c hc => (isNumeralBlank_eq (h c hc)).symm
  rw [hsame, trimBoth_trimBoth]

/-! ### Letters and digits -/

/-- The codes of digits. -/
theorem isDigit_iff {c : Char} : c.isDigit = true ↔ 48 ≤ c.toNat ∧ c.toNat ≤ 57 := by
  show (decide ('0'.val ≤ c.val) && decide (c.val ≤ '9'.val)) = true ↔ _
  simp only [Bool.and_eq_true, decide_eq_true_eq, UInt32.le_iff_toNat_le]
  exact Iff.rfl

/-- The codes of letters. -/
theorem isAlpha_iff {c : Char} : c.isAlpha = true ↔
    (65 ≤ c.toNat ∧ c.toNat ≤ 90) ∨ (97 ≤ c.toNat ∧ c.toNat ≤ 122) := by
  show (decide ('A'.val ≤ c.val ∧ c.val ≤ 'Z'.val) ||
    (decide ('a'.val ≤ c.val) && decide (c.val ≤ 'z'.val))) = true ↔ _
  simp only [Bool.or_eq_true, Bool.and_eq_true, decide_eq_true_eq, UInt32.le_iff_toNat_le]
  exact Iff.rfl

theorem not_isAlpha_of_isDigit {c : Char} (h : c.isDigit = true) : ¬ c.isAlpha = true := by
  rw [isDigit_iff] at h
  rw [isAlpha_iff]
  omega

/-- A capital letter becomes the small one, and no other character changes. -/
theorem toLower_cases (c : Char) :
    c.toLower = c ∨ 65 ≤ c.toNat ∧ c.toNat ≤ 90 ∧ c.toLower.toNat = c.toNat + 32 := by
  unfold Char.toLower
  split
  · next hupper =>
    obtain ⟨hlow, hhigh⟩ : 65 ≤ c.toNat ∧ c.toNat ≤ 90 := hupper
    refine .inr ⟨hlow, hhigh, ?_⟩
    show (c.val + 32).toNat = _
    rw [UInt32.toNat_add]
    show (c.toNat + 32) % 2 ^ 32 = _
    omega
  · exact .inl rfl

/-- What is no letter has no lower case. -/
theorem toLower_eq_of_not_isAlpha {c : Char} (h : ¬ c.isAlpha = true) : c.toLower = c := by
  rcases toLower_cases c with hsame | ⟨hlow, hhigh, -⟩
  · exact hsame
  · exact absurd (isAlpha_iff.mpr (.inl ⟨hlow, hhigh⟩)) h

/-- No letter becomes a digit. -/
theorem not_isAlpha_of_isDigit_toLower {c : Char} (h : c.toLower.isDigit = true) :
    ¬ c.isAlpha = true := by
  rcases toLower_cases c with hsame | ⟨hlow, hhigh, hlower⟩
  · rw [hsame] at h
    exact not_isAlpha_of_isDigit h
  · rw [isDigit_iff] at h
    omega

/-- Letters and digits are no white space. -/
theorem isBlank_eq_false_of_isAlphanum {c : Char} (h : c.isAlphanum = true) :
    isBlank c = false := by
  have hranges : c.isAlpha = true ∨ c.isDigit = true := Bool.or_eq_true _ _ ▸ h
  rw [isAlpha_iff, isDigit_iff] at hranges
  rw [← Bool.not_eq_true, isBlank, List.contains_iff_mem]
  simp only [blankCodes, List.mem_cons, List.not_mem_nil, or_false]
  omega

end PlotGraph.Text
