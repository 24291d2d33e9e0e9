import PlotGraph.Number.Decimal

/-!
# Binary floating-point numbers of 64 bits

A finite number is `significand * 2 ^ shift` units of `2 ^ -1074`, the smallest positive
number of the format. Numbers are made from exact quotients by rounding to the nearest, a
half to the even neighbour; `ofRatio` is the one place where that happens.
-/

namespace PlotGraph

/-- A binary floating-point number of 64 bits. -/
inductive Binary64 where
  | finite (negative : Bool) (significand shift : Nat)
  | infinite (negative : Bool)
  | nan
  deriving DecidableEq, Repr

namespace Binary64

/-- The number of units in one: the smallest positive number is `2 ^ -1074`. -/
def unitsPerOne : Nat := 1 <<< 1074

/-- The quotient rounded to the nearest integer, a half to the even one. -/
def divNearest (num den : Nat) : Nat :=
  let floor := num / den
  let twice := 2 * (num % den)
  if twice < den || (twice == den && floor % 2 == 0) then floor else floor + 1

/-- A significand and its shift, or the infinite number where the shift is past the range. -/
def ofParts (negative : Bool) (significand shift : Nat) : Binary64 :=
  if 2045 < shift then infinite negative else finite negative significand shift

/-- The number nearest to `num / den`: 53 significant bits, as long as the unit allows it. -/
def ofRatio (negative : Bool) (num den : Nat) : Binary64 :=
  let units := num * unitsPerOne
  let shift := (units / den).log2 - 52
  let significand := divNearest units (den <<< shift)
  if significand = 1 <<< 53 then ofParts negative (1 <<< 52) (shift + 1)
  else ofParts negative significand shift

/-- The number nearest to an integer; infinite if the integer is past the range. -/
def ofInt (i : Int) : Binary64 := ofRatio (i < 0) i.natAbs 1

/-- The number nearest to `coefficient * 10 ^ exponent`. Decimal magnitudes far past the
range are settled without computing the power. -/
def ofScientific (negative : Bool) (coefficient : Nat) (exponent : Int) : Binary64 :=
  let magnitude := exponent + (Decimal.digits coefficient).length
  if coefficient = 0 || magnitude < -400 then finite negative 0 0
  else if 400 < magnitude then infinite negative
  else if exponent < 0 then ofRatio negative coefficient (Nat.pow 10 exponent.natAbs)
  else ofRatio negative (coefficient * Nat.pow 10 exponent.toNat) 1

/-- The integer that a finite number is without its fraction. -/
def truncate? : Binary64 → Option Int
  | finite negative significand shift =>
    let whole : Int := (significand <<< shift / unitsPerOne : Nat)
    some (if negative then -whole else whole)
  | _ => none

def isZero : Binary64 → Bool
  | finite _ significand _ => significand == 0
  | _ => false

def isInfinite : Binary64 → Bool
  | infinite _ => true
  | _ => false

end Binary64
end PlotGraph
