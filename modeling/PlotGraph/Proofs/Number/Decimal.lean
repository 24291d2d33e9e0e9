import PlotGraph.Number.Decimal
import PlotGraph.Proofs.Text.Strip
import Mathlib.Algebra.GroupWithZero.Nat
import Mathlib.Data.List.Induction
import Mathlib.Logic.Function.Basic

/-!
# Written numbers are read back

A natural number is written with the digits zero to nine only (`Decimal.isDigit_of_mem_digits`),
and these denote the number again (`Decimal.digitRun?_digits`). So two numbers are never written
alike (`Decimal.ofNat_injective`), and a number that is not too long is read back from its digits
(`Decimal.readInt?_digits`). What can be read is short enough to be written into a message
(`Decimal.isShowable_of_readInt?`).
-/

namespace PlotGraph.Decimal

/-! ### The digits of a number -/

theorem isDigit_digitChar {d : Nat} (h : d < 10) : (digitChar d).isDigit = true := by
  have hall : ∀ d : Fin 10, (digitChar d).isDigit = true := by decide
  exact hall ⟨d, h⟩

/-- A digit is read as its value. -/
theorem digitValue?_digitChar {d : Nat} (h : d < 10) :
    Text.digitValue? (digitChar d) = some d := by
  have hall : ∀ d : Fin 10, Text.digitValue? (digitChar d) = some d.val := by decide
  exact hall ⟨d, h⟩

theorem isDigit_of_mem_digits {n : Nat} {c : Char} (h : c ∈ digits n) : c.isDigit = true := by
  fun_induction digits n with
  | case1 n hlt =>
      rw [List.mem_singleton.mp h]
      exact isDigit_digitChar hlt
  | case2 n hge ih =>
      rcases List.mem_append.mp h with hinit | hlast
      · exact ih hinit
      · rw [List.mem_singleton.mp hlast]
        exact isDigit_digitChar (Nat.mod_lt n (by omega))

theorem digits_ne_nil (n : Nat) : digits n ≠ [] := by
  rw [digits]
  split
  · exact List.cons_ne_nil _ _
  · exact List.append_ne_nil_of_right_ne_nil _ (List.cons_ne_nil _ _)

/-! ### Reading digits -/

/-- A digit more makes ten times as much and the digit. -/
theorem valueOf_append (ds : List Nat) (d : Nat) : valueOf (ds ++ [d]) = 10 * valueOf ds + d := by
  simp [valueOf, List.foldl_append]

/-- Without underscores a run of digits is read character by character. -/
theorem digitRun?_eq_mapM {cs : List Char} (hne : cs ≠ []) (hplain : '_' ∉ cs) :
    digitRun? cs = cs.mapM Text.digitValue? := by
  fun_induction digitRun? cs with
  | case1 => exact absurd rfl hne
  | case2 c => cases h : Text.digitValue? c <;> simp [h]
  | case3 c rest ih => simp at hplain
  | case4 c next rest hnext ih =>
      rw [List.mapM_cons, ih (List.cons_ne_nil _ _) fun h => hplain (List.mem_cons_of_mem c h)]

/-- The values of the digits of a number denote it. -/
theorem exists_mapM_digits (n : Nat) :
    ∃ ds, (digits n).mapM Text.digitValue? = some ds ∧ valueOf ds = n := by
  fun_induction digits n with
  | case1 n hlt =>
      refine ⟨[n], ?_, ?_⟩
      · simp [digitValue?_digitChar hlt]
      · simp [valueOf]
  | case2 n hge ih =>
      obtain ⟨ds, hds, hvalue⟩ := ih
      have hlast := digitValue?_digitChar (Nat.mod_lt n (show 10 > 0 by omega))
      refine ⟨ds ++ [n % 10], ?_, ?_⟩
      · simp [List.mapM_append, hds, hlast]
      · rw [valueOf_append, hvalue]
        omega

/-- The digits of a number are read as the number. -/
theorem digitRun?_digits (n : Nat) : (digitRun? (digits n)).map valueOf = some n := by
  have hplain : '_' ∉ digits n := by
    intro h
    have := isDigit_of_mem_digits h
    contradiction
  obtain ⟨ds, hds, hvalue⟩ := exists_mapM_digits n
  rw [digitRun?_eq_mapM (digits_ne_nil n) hplain, hds, Option.map_some, hvalue]

/-- The values that are read are those of digits. -/
theorem lt_ten_of_digitRun? {cs : List Char} {ds : List Nat} (h : digitRun? cs = some ds) :
    ∀ d ∈ ds, d < 10 := by
  fun_induction digitRun? cs generalizing ds with
  | case1 => cases h
  | case2 c =>
      obtain ⟨d, hd, rfl⟩ := Option.map_eq_some_iff.mp h
      simpa using Text.lt_ten_of_digitValue? hd
  | case3 c rest ih | case4 c next rest hnext ih =>
      simp only [Option.bind_eq_bind, Option.bind_eq_some_iff, Option.pure_def,
        Option.some.injEq] at h
      obtain ⟨d, hd, rest, hrest, rfl⟩ := h
      exact List.forall_mem_cons.mpr ⟨Text.lt_ten_of_digitValue? hd, ih hrest⟩

/-- Digits denote less than ten to their number. -/
theorem valueOf_lt {ds : List Nat} (h : ∀ d ∈ ds, d < 10) : valueOf ds < 10 ^ ds.length := by
  induction ds using List.reverseRecOn with
  | nil => decide
  | append_singleton ds d ih =>
      rw [List.forall_mem_append] at h
      have hinit := ih h.1
      have hlast := h.2 d (List.mem_singleton_self d)
      rw [valueOf_append, List.length_append, List.length_singleton, Nat.pow_succ]
      omega

/-- A number with few enough digits can be shown. -/
theorem isShowable_of_natAbs_lt {i : Int} {k : Nat} (hi : i.natAbs < 10 ^ k)
    (hk : k ≤ maxDigits) : isShowable i = true := by
  unfold isShowable
  -- a limit that is not spelled out keeps the power from being computed
  generalize maxDigits = limit at hk
  exact decide_eq_true (Nat.lt_of_lt_of_le hi (Nat.pow_le_pow_right (by decide) hk))

/-- A power of ten with too many digits cannot. -/
theorem isShowable_pow (k : Nat) (hk : maxDigits ≤ k) : isShowable (10 ^ k : Nat) = false := by
  rw [isShowable, Int.natAbs_natCast]
  generalize maxDigits = limit at hk ⊢
  exact decide_eq_false (Nat.not_lt.mpr (Nat.pow_le_pow_right (by decide) hk))

/-- A number that is read is not too long to be shown. -/
theorem isShowable_of_readNat? {cs : List Char} {n : Nat} (h : readNat? cs = some n) :
    isShowable n = true := by
  simp only [readNat?, Option.bind_eq_bind, Option.bind_eq_some_iff, Option.pure_def,
    Option.ite_none_right_eq_some, Option.some.injEq] at h
  obtain ⟨ds, hds, hlength, rfl⟩ := h
  exact isShowable_of_natAbs_lt (valueOf_lt (lt_ten_of_digitRun? hds)) hlength

theorem isShowable_neg (i : Int) : isShowable (-i) = isShowable i := by
  rw [isShowable, isShowable, Int.natAbs_neg]

/-- Whatever has been read can be shown. -/
theorem isShowable_of_readInt? {cs : List Char} {i : Int} (h : readInt? cs = some i) :
    isShowable i = true := by
  unfold readInt? at h
  split at h
  all_goals
    simp only [Option.map_eq_some_iff, Option.bind_eq_bind, Option.bind_eq_some_iff,
      Option.pure_def, Option.some.injEq] at h
    obtain ⟨_, ⟨n, hn, rfl⟩, rfl⟩ := h
  · exact isShowable_of_readNat? hn
  · exact (isShowable_neg n).trans (isShowable_of_readNat? hn)
  · exact isShowable_of_readNat? hn

/-! ### Reading what is written -/

/-- A number below a power of ten has no more digits than that. -/
theorem length_digits_le {n k : Nat} (h : n < 10 ^ k) (hk : 0 < k) : (digits n).length ≤ k := by
  fun_induction digits n generalizing k with
  | case1 n hlt => exact hk
  | case2 n hge ih =>
      obtain ⟨k, rfl⟩ := Nat.exists_eq_add_one.mpr hk
      rw [Nat.pow_succ] at h
      have hk' : 0 < k := by
        by_contra hzero
        rw [Nat.eq_zero_of_not_pos hzero] at h
        omega
      have hinit := ih (Nat.div_lt_of_lt_mul (Nat.mul_comm _ 10 ▸ h)) hk'
      rw [List.length_append, List.length_singleton]
      omega

theorem length_le_of_digitRun? {cs : List Char} {ds : List Nat} (h : digitRun? cs = some ds) :
    ds.length ≤ cs.length := by
  fun_induction digitRun? cs generalizing ds with
  | case1 => cases h
  | case2 c =>
      obtain ⟨d, -, rfl⟩ := Option.map_eq_some_iff.mp h
      exact Nat.le_refl 1
  | case3 c rest ih | case4 c next rest hnext ih =>
      simp only [Option.bind_eq_bind, Option.bind_eq_some_iff, Option.pure_def,
        Option.some.injEq] at h
      obtain ⟨d, -, ds, hds, rfl⟩ := h
      have hrest := ih hds
      simp only [List.length_cons] at hrest ⊢
      omega

/-- A number is read back from its digits, unless they are too many. -/
theorem readNat?_digits {n : Nat} (h : n < 10 ^ maxDigits) : readNat? (digits n) = some n := by
  obtain ⟨ds, hds, hvalue⟩ := Option.map_eq_some_iff.mp (digitRun?_digits n)
  have hlength : ds.length ≤ maxDigits :=
    (length_le_of_digitRun? hds).trans (length_digits_le h (by decide))
  simp only [readNat?, hds, Option.bind_eq_bind, Option.bind_some, if_pos hlength, Option.pure_def,
    hvalue]

/-- A natural number that is not too long is read back from its digits. -/
theorem readInt?_digits {n : Nat} (h : n < 10 ^ maxDigits) :
    readInt? (digits n) = some (n : Int) := by
  have htrim : Text.trimBoth Text.isNumeralBlank (digits n) = digits n := by
    apply Text.trimBoth_of_forall_not
    intro c hc
    have hblank := Text.isBlank_eq_false_of_isAlphanum (c := c) (by
      rw [Char.isAlphanum, isDigit_of_mem_digits hc, Bool.or_true])
    rw [Text.isNumeralBlank, hblank, Bool.false_and]
  rw [readInt?, htrim]
  -- neither sign is a digit
  split
  · next rest hsign =>
      have hdigit := isDigit_of_mem_digits (hsign ▸ List.mem_cons_self : '+' ∈ digits n)
      exact absurd hdigit (by decide)
  · next rest hsign =>
      have hdigit := isDigit_of_mem_digits (hsign ▸ List.mem_cons_self : '-' ∈ digits n)
      exact absurd hdigit (by decide)
  · rw [readNat?_digits h]
    rfl

/-- To strip a text without separators makes no difference to the number that it denotes. -/
theorem readInt?_strip {cs : List Char} (h : ∀ c ∈ cs, ¬ (0x1C ≤ c.toNat ∧ c.toNat ≤ 0x1F)) :
    readInt? (Text.strip cs) = readInt? cs := by
  rw [readInt?, readInt?, Text.trimBoth_strip h]

/-! ### Texts of numbers -/

/-- No two numbers are written alike. -/
theorem ofNat_injective : Function.Injective ofNat := by
  intro m n h
  have hdigits : digits m = digits n := String.ofList_injective h
  have hread := digitRun?_digits m
  rw [hdigits, digitRun?_digits n] at hread
  exact (Option.some.inj hread).symm

/-- A text with a character that is no digit is not the text of a natural number. -/
theorem ofNat_ne {n : Nat} (cs : List Char) (h : ∃ c ∈ cs, c.isDigit = false) :
    ofNat n ≠ String.ofList cs := by
  obtain ⟨c, hc, hdigit⟩ := h
  intro heq
  have hdigits : digits n = cs := String.ofList_injective heq
  rw [← hdigits] at hc
  rw [isDigit_of_mem_digits hc] at hdigit
  cases hdigit

end PlotGraph.Decimal
