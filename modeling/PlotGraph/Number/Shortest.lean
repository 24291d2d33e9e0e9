import PlotGraph.Number.Binary64

/-!
# The shortest decimal that reads back

A finite number is shown with the fewest decimal digits that read back as the same number,
and of those the nearest to it; of two that are equally near, the even one. For one digit,
two digits, and so on, the two neighbours of the number on that decimal grid are tried in
exact arithmetic; seventeen digits always suffice.

The layout is positional from `1e-4` up to below `1e16`, always with a digit after the
point; outside of that it is `d.ddde±XX` with at least two digits of exponent.
-/

namespace PlotGraph.Binary64

/-! ### The digits -/

/-- A positive decimal `0.d₁d₂… * 10 ^ point`. -/
structure Expansion where
  /-- The digits, without zeros at the end. -/
  digits : List Char
  /-- The place of the point, counted from before the first digit. -/
  point : Int

/-- The number of digits before the point of a positive number of units; at most zero for
a number below one. -/
def magnitude (units : Nat) : Int :=
  (Decimal.digits (units * Nat.pow 10 400 / unitsPerOne)).length - (400 : Int)

/-- The multiple of `10 ^ exponent` at or below a number of units, and how the rest compares
with half of the grid's step. -/
def gridBelow (units : Nat) (exponent : Int) : Nat × Ordering :=
  let num := if exponent < 0 then units * Nat.pow 10 exponent.natAbs else units
  let den := if exponent < 0 then unitsPerOne else unitsPerOne * Nat.pow 10 exponent.toNat
  (num / den, compare (2 * (num % den)) den)

/-- The neighbours of a positive number on the grid of `10 ^ exponent`, the nearer first and
the even one of two that are equally near. -/
def neighbours (units : Nat) (exponent : Int) : List Nat :=
  match gridBelow units exponent with
  | (below, .lt) => [below, below + 1]
  | (below, .eq) => if below % 2 = 0 then [below, below + 1] else [below + 1, below]
  | (below, .gt) => [below + 1, below]

/-- The decimal for a coefficient of a power of ten. -/
def Expansion.ofCoefficient (coefficient : Nat) (exponent : Int) : Expansion :=
  let ds := Decimal.digits coefficient
  { digits := (ds.reverse.dropWhile (· == '0')).reverse
    point := exponent + ds.length }

/-- The shortest decimal that reads back as the positive number with these parts. -/
def shortest (significand shift : Nat) : Expansion :=
  let units := significand <<< shift
  let point := magnitude units
  let hit (count : Nat) : Option Expansion :=
    let exponent := point - count
    ((neighbours units exponent).find? fun n =>
      ofScientific false n exponent == finite false significand shift).map
        (Expansion.ofCoefficient · exponent)
  let exact := Expansion.ofCoefficient (gridBelow units (point - 17)).1 (point - 17)
  ((List.range' 1 17).findSome? hit).getD exact

/-! ### The layout -/

/-- The exponent: its sign and at least two digits. -/
def exponentChars (e : Int) : List Char :=
  let ds := Decimal.digits e.natAbs
  (if e < 0 then '-' else '+') :: (if ds.length < 2 then '0' :: ds else ds)

def Expansion.layout (d : Expansion) : List Char :=
  if d.point ≤ -4 || 16 < d.point then
    let fraction := match d.digits.drop 1 with
      | [] => []
      | ds => '.' :: ds
    d.digits.take 1 ++ fraction ++ 'e' :: exponentChars (d.point - 1)
  else if d.point ≤ 0 then
    '0' :: '.' :: List.replicate d.point.natAbs '0' ++ d.digits
  else
    let whole := d.point.toNat
    let fraction := match d.digits.drop whole with
      | [] => ['0']
      | ds => ds
    d.digits.take whole ++ List.replicate (whole - d.digits.length) '0' ++ '.' :: fraction

/-- The text of a number: its shortest decimal, or the word for what is no finite number. -/
def text : Binary64 → String
  | nan => "nan"
  | infinite negative => if negative then "-inf" else "inf"
  | finite negative significand shift =>
    let body := if significand = 0 then ['0', '.', '0'] else (shortest significand shift).layout
    String.ofList (if negative then '-' :: body else body)

end PlotGraph.Binary64
