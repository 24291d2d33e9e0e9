/-!
# Halves of surrogate pairs

An escape can denote one half of a surrogate pair without the other half, which is no
character. A text only holds characters, and no code point of these is free. So a half is
kept as one of the last 2048, which are for private use, and which no text is taken to hold
for itself. Different halves stay different that way, and a half is written as the code that
it was read from (`codeOf_charOfCode`).
-/

namespace PlotGraph.Text

/-- Whether a code is that of a half of a surrogate pair. -/
def isHalf (code : Nat) : Bool := 0xD800 ≤ code && code < 0xE000

/-- The first of the code points that stand for halves. -/
def halvesStart : Nat := 0x10F800

/-- The character for a code; for a half, the one that stands for it. -/
def charOfCode (code : Nat) : Char :=
  if isHalf code then Char.ofNat (halvesStart + (code - 0xD800)) else Char.ofNat code

/-- The code of a character, or of the half that it stands for. -/
def codeOf (c : Char) : Nat :=
  if halvesStart ≤ c.toNat then 0xD800 + (c.toNat - halvesStart) else c.toNat

/-- All codes below those that are set aside can be read back. -/
theorem codeOf_charOfCode {code : Nat} (h : code < halvesStart) :
    codeOf (charOfCode code) = code := by
  have toNat_ofNat {n : Nat} (hn : n.isValidChar) : (Char.ofNat n).toNat = n := by
    rw [Char.ofNat, dif_pos hn]
    rfl
  unfold charOfCode
  split
  · next hh =>
    simp only [isHalf, Bool.and_eq_true, decide_eq_true_eq] at hh
    have hv : (halvesStart + (code - 0xD800)).isValidChar := by
      refine Or.inr ⟨?_, ?_⟩ <;> unfold halvesStart <;> omega
    rw [codeOf, toNat_ofNat hv, if_pos (Nat.le_add_right _ _)]
    omega
  · next hh =>
    simp only [isHalf, Bool.and_eq_true, decide_eq_true_eq, not_and, Nat.not_lt] at hh
    unfold halvesStart at h
    have hv : code.isValidChar := by
      by_cases h' : code < 0xD800
      · exact Or.inl h'
      · refine Or.inr ⟨?_, ?_⟩
        · have := hh (Nat.le_of_not_lt h')
          omega
        · omega
    rw [codeOf, toNat_ofNat hv, if_neg]
    unfold halvesStart
    omega

end PlotGraph.Text
