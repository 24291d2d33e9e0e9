import PlotGraph.Number.Shortest

/-!
# Numbers to a fixed number of places

A finite number with a given number of digits after its point, or with a given number of
significant digits. The value is exact before it is rounded, and a half goes to the even
neighbour, so that `2.5` has `2` and `0.125` has `0.12`. Signs are left to the caller.
-/

namespace PlotGraph.Binary64

/-! ### Digits -/

/-- A number of units times a power of ten, rounded to the nearest integer. -/
def scaled (units : Nat) (exponent : Int) : Nat :=
  if exponent < 0 then divNearest units (unitsPerOne * Nat.pow 10 exponent.natAbs)
  else divNearest (units * Nat.pow 10 exponent.toNat) unitsPerOne

/-- The digits of a number, with zeros before them up to a width. -/
def paddedDigits (width n : Nat) : List Char :=
  let ds := Decimal.digits n
  List.replicate (width - ds.length) '0' ++ ds

/-- Digits with a point before them, if there are any or the point is wanted anyway. -/
def fraction (pointed : Bool) (ds : List Char) : List Char :=
  if ds.isEmpty && !pointed then [] else '.' :: ds

/-- The most digits that a finite number has after its point, and more than the significant
digits that it has. All further ones are zeros. -/
def maxPlaces : Nat := 1074

/-- Digits without the zeros at their end. -/
def withoutTrailingZeros (ds : List Char) : List Char := (ds.reverse.dropWhile (· == '0')).reverse

/-! ### The layouts -/

structure Places where
  /-- The number of digits that are wanted. -/
  count : Nat
  /-- Whether a point stands even where no digit follows it, and zeros at the end are kept
  where the layout would drop them. -/
  pointed : Bool := false
  deriving DecidableEq, Repr

def fixed (p : Places) (units : Nat) : List Char :=
  let count := min p.count maxPlaces
  let ds := paddedDigits (count + 1) (scaled units count)
  let whole := ds.length - count
  ds.take whole ++ fraction p.pointed (ds.drop whole ++ List.replicate (p.count - count) '0')

/-- The first digits of a number of units, and the exponent of the first of them. Rounding up
to the next power of ten moves the exponent. -/
def leadingDigits (count units : Nat) : List Char × Int :=
  let known := min count maxPlaces
  let zeros := List.replicate (count - known) '0'
  if units = 0 then (List.replicate known '0' ++ zeros, 0)
  else
    let exponent := magnitude units - 1
    let ds := Decimal.digits (scaled units (known - 1 - exponent))
    if ds.length ≤ known then (ds ++ zeros, exponent) else (ds.take known ++ zeros, exponent + 1)

/-- A number of units with one digit before its point, the wanted digits after it, and an
exponent. -/
def scientific (p : Places) (units : Nat) : List Char :=
  let (ds, exponent) := leadingDigits (p.count + 1) units
  ds.take 1 ++ fraction p.pointed (ds.drop 1) ++ 'e' :: exponentChars exponent

/-- A number of units with the wanted number of significant digits, at least one. Small and
large numbers have an exponent. -/
def general (p : Places) (units : Nat) : List Char :=
  let count := max p.count 1
  let (ds, exponent) := leadingDigits count units
  let trimmed (ds : List Char) : List Char := if p.pointed then ds else withoutTrailingZeros ds
  if exponent < -4 || count ≤ exponent then
    ds.take 1 ++ fraction p.pointed (trimmed (ds.drop 1)) ++ 'e' :: exponentChars exponent
  else
    let all := List.replicate (-exponent).toNat '0' ++ ds
    let whole := exponent.toNat + 1
    all.take whole ++ fraction p.pointed (trimmed (all.drop whole))

end PlotGraph.Binary64
