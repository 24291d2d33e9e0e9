import PlotGraph.Number.Binary64
import Mathlib.Tactic.Ring

/-!
# The range of binary floating-point numbers

Rounding an integer leaves the range exactly from `Binary64.overflow` on, which lies halfway
between the largest finite number and `2 ^ 1024` (`Binary64.isInfinite_ofInt_iff`). The half
itself goes past the range, because the significand of the largest finite number is odd.
-/

namespace PlotGraph
namespace Binary64

/-- The least magnitude that is rounded past the range. -/
def overflow : Nat := 2 ^ 1024 - 2 ^ 970

/-! ### Rounding a quotient -/

variable {num den k : Nat}

/-- A quotient below a number is rounded to it at the most. -/
theorem divNearest_le (h : num < k * den) : divNearest num den ≤ k := by
  have hfloor : num / den < k := Nat.div_lt_of_lt_mul (by rwa [Nat.mul_comm])
  simp only [divNearest]
  split
  · omega
  · omega

/-- A quotient is rounded past an odd number if it is at least a half above it. -/
theorem lt_divNearest_iff (hden : 0 < den) (hodd : k % 2 = 1) :
    k < divNearest num den ↔ (2 * k + 1) * den ≤ 2 * num := by
  have hnum := Nat.div_add_mod num den
  have hrem := Nat.mod_lt num hden
  rcases Nat.lt_trichotomy (num / den) k with hlt | heq | hgt
  · -- the next integer is not above `k`
    have hle : (num / den + 1) * den ≤ k * den := Nat.mul_le_mul_right den hlt
    have hbelow : num < k * den := by
      rw [Nat.add_mul, Nat.mul_comm (num / den)] at hle
      omega
    have hround := divNearest_le hbelow
    have hsum : (2 * k + 1) * den = 2 * (k * den) + den := by ring
    omega
  · have hsum : (2 * k + 1) * den = 2 * (den * k) + den := by ring
    rw [heq] at hnum
    simp only [divNearest, heq, hodd]
    by_cases htwice : 2 * (num % den) < den
    · simp [htwice]
      omega
    · simp [htwice]
      omega
  · have hle : (k + 1) * den ≤ num / den * den := Nat.mul_le_mul_right den hgt
    have hfloor : num / den ≤ divNearest num den := by
      simp only [divNearest]
      split
      · exact Nat.le_refl _
      · exact Nat.le_succ _
    have hsum : (2 * k + 1) * den + den = 2 * ((k + 1) * den) := by ring
    rw [Nat.mul_comm (num / den)] at hle
    omega

/-! ### Integers past the range -/

/-- What is too large for the exponents is infinite. -/
theorem isInfinite_ofParts (negative : Bool) (significand shift : Nat) :
    (ofParts negative significand shift).isInfinite = true ↔ 2045 < shift := by
  simp only [ofParts]
  split
  · next h => simp [isInfinite, h]
  · next h => simp [isInfinite, h]

/-- The number is past the range if its shift is, or if rounding carries into a shift that is. -/
theorem isInfinite_ofRatio_iff {negative : Bool} {num den shift : Nat}
    (hshift : (num * unitsPerOne / den).log2 - 52 = shift) :
    (ofRatio negative num den).isInfinite = true ↔
      2045 < shift ∨ shift = 2045 ∧
        divNearest (num * unitsPerOne) (den <<< shift) = 2 ^ 53 := by
  rw [ofRatio, hshift, Nat.one_shiftLeft]
  by_cases hcarry : divNearest (num * unitsPerOne) (den <<< shift) = 2 ^ 53
  · rw [if_pos hcarry, isInfinite_ofParts, and_iff_left hcarry]
    omega
  · rw [if_neg hcarry, isInfinite_ofParts, or_iff_left (fun h => hcarry h.2)]

theorem two_pow_add_add_one (m n : Nat) : 2 ^ (m + n + 1) = 2 * (2 ^ m * 2 ^ n) := by
  rw [Nat.pow_add_one', Nat.pow_add]

theorem two_mul_two_pow_le {m n : Nat} (h : m < n) : 2 * 2 ^ m ≤ 2 ^ n := by
  rw [← Nat.pow_add_one']
  exact Nat.pow_le_pow_right (by omega) h

/-- The threshold in the units that rounding counts in. -/
theorem overflow_le_iff (n : Nat) :
    overflow ≤ n ↔ (2 * (2 ^ 53 - 1) + 1) * 2 ^ 2045 ≤ 2 * (n * unitsPerOne) := by
  have hoverflow : overflow = (2 ^ 54 - 1) * 2 ^ 970 := by
    rw [overflow, Nat.sub_mul, Nat.one_mul, ← Nat.pow_add]
  have hscale : 2 ^ 2045 = 2 * (2 ^ 970 * unitsPerOne) := by
    rw [show 2045 = 970 + 1074 + 1 from rfl, two_pow_add_add_one, unitsPerOne, Nat.one_shiftLeft]
  have hunits : (2 * (2 ^ 53 - 1) + 1) * 2 ^ 2045 = 2 * (overflow * unitsPerOne) := by
    rw [hoverflow, hscale]
    generalize 2 ^ 970 = half
    ring
  have hpos : 0 < unitsPerOne := by
    rw [unitsPerOne, Nat.one_shiftLeft]
    exact Nat.two_pow_pos 1074
  rw [hunits, Nat.mul_le_mul_left_iff (by omega), Nat.mul_le_mul_right_iff hpos]

/-- An integer is rounded past the range exactly from `overflow` on. -/
theorem isInfinite_ofInt_iff (i : Int) :
    (ofInt i).isInfinite = true ↔ overflow ≤ i.natAbs := by
  obtain ⟨shift, hshift⟩ : ∃ shift, (i.natAbs * unitsPerOne).log2 - 52 = shift := ⟨_, rfl⟩
  obtain ⟨last, hlast⟩ : ∃ last, 2 ^ 2045 = last := ⟨_, rfl⟩
  rw [overflow_le_iff, hlast, ofInt, isInfinite_ofRatio_iff (by rw [Nat.div_one, hshift])]
  generalize i.natAbs * unitsPerOne = units at hshift ⊢
  have hupper : units < 2 ^ 53 * 2 ^ shift := by
    rw [← Nat.pow_add]
    exact Nat.lt_of_lt_of_le Nat.lt_log2_self (Nat.pow_le_pow_right (by omega) (by omega))
  rw [Nat.one_shiftLeft]
  rcases Nat.lt_trichotomy shift 2045 with hlt | heq | hgt
  · have hpow := two_mul_two_pow_le hlt
    rw [hlast] at hpow
    omega
  · -- the greatest significand is odd, so that half a unit above it is a carry
    have hpow : 2 ^ shift = last := heq ▸ hlast
    rw [hpow] at hupper ⊢
    have hden : 0 < last := hpow ▸ Nat.two_pow_pos shift
    have hcarry : 2 ^ 53 - 1 < divNearest units last ↔
        (2 * (2 ^ 53 - 1) + 1) * last ≤ 2 * units :=
      lt_divNearest_iff hden (by decide)
    have hround := divNearest_le hupper
    rw [← hcarry]
    omega
  · have hne : units ≠ 0 := by
      rintro rfl
      rw [Nat.log2_zero] at hshift
      omega
    have hlower : 2 ^ 52 * 2 ^ shift ≤ units := by
      rw [← Nat.pow_add]
      exact Nat.le_trans (Nat.pow_le_pow_right (by omega) (by omega)) (Nat.log2_self_le hne)
    have hpow := two_mul_two_pow_le hgt
    rw [hlast] at hpow
    omega

end Binary64
end PlotGraph
