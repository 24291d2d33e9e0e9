import PlotGraph.Text.Blank
import PlotGraph.Text.Digit

/-!
# Decimal numerals

Writing a natural number takes its digits without leading zeros. Reading is more generous:
white space around the numeral, one sign, decimal digits of any script and single
underscores between digits are accepted, up to a fixed number of digits.
-/

namespace PlotGraph.Decimal

/-! ### Writing -/

def digitChar (d : Nat) : Char := Char.ofNat (48 + d)

/-- The decimal digits of a number, most significant first, without leading zeros. -/
def digits (n : Nat) : List Char :=
  if n < 10 then [digitChar n] else digits (n / 10) ++ [digitChar (n % 10)]
termination_by n

/-- A number below ten has one digit. -/
theorem digits_eq_of_lt_ten {n : Nat} (h : n < 10) : digits n = [digitChar n] := by
  rw [digits, if_pos h]

def signedDigits : Int → List Char
  | .ofNat n => digits n
  | .negSucc n => '-' :: digits (n + 1)

def ofNat (n : Nat) : String := String.ofList (digits n)

def ofInt (i : Int) : String := String.ofList (signedDigits i)

/-! ### The limit -/

/-- The most digits that a numeral may have; leading zeros count. -/
def maxDigits : Nat := 4300

/-- Whether an integer is not too long to be written into a message. -/
def isShowable (i : Int) : Bool := i.natAbs < Nat.pow 10 maxDigits

/-- The first words about a numeral that is too long. -/
def limitMessage : String :=
  "Exceeds the limit (" ++ ofNat maxDigits ++ " digits) for integer string conversion"

def tooManyDigitsMessage (count : Nat) : String :=
  limitMessage ++ ": value has " ++ ofNat count
    ++ " digits; use sys.set_int_max_str_digits() to increase the limit"

/-- The message for an integer that is too long to be written. -/
def unshowableMessage : String :=
  limitMessage ++ "; use sys.set_int_max_str_digits() to increase the limit"

/-! ### Reading -/

/-- The number that digit values denote, most significant first. -/
def valueOf (ds : List Nat) : Nat := ds.foldl (fun n d => 10 * n + d) 0

/-- The values of digits that single underscores may separate. -/
def digitRun? : List Char → Option (List Nat)
  | [] => none
  | [c] => (Text.digitValue? c).map ([·])
  | c :: '_' :: rest => do return (← Text.digitValue? c) :: (← digitRun? rest)
  | c :: next :: rest => do return (← Text.digitValue? c) :: (← digitRun? (next :: rest))

/-- A number of at most `maxDigits` digits. -/
def readNat? (cs : List Char) : Option Nat := do
  let ds ← digitRun? cs
  if ds.length ≤ maxDigits then return valueOf ds else none

/-- An integer with at most one sign, and white space around it. -/
def readInt? (cs : List Char) : Option Int :=
  match Text.trimBoth Text.isNumeralBlank cs with
  | '+' :: rest => (readNat? rest).map fun n => (n : Int)
  | '-' :: rest => (readNat? rest).map fun n => -(n : Int)
  | rest => (readNat? rest).map fun n => (n : Int)

end PlotGraph.Decimal
