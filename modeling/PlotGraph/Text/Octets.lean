import PlotGraph.Text.Quoted

/-!
# Octets as text

The form in which octets are shown inside a message: the letter b and a quoted text, in
which only ASCII characters stand for themselves. Octets are also written in base 64, four
characters for three octets.
-/

namespace PlotGraph.Text.Octets

def escape (quote : Char) (b : UInt8) : List Char :=
  let c := Char.ofNat b.toNat
  if b < 0x80 then Text.escape quote c else numericEscape b.toNat

def shown (bs : List UInt8) : String :=
  let quote := quoteFor (bs.map fun b => Char.ofNat b.toNat)
  String.ofList ('b' :: quote :: bs.flatMap (escape quote) ++ [quote])

/-! ### Base 64 -/

/-- The value of a character of base 64. -/
def sextet? (c : Char) : Option Nat :=
  if c.isUpper then some (c.toNat - 65)
  else if c.isLower then some (c.toNat - 71)
  else if c.isDigit then some (c.toNat + 4)
  else if c = '+' then some 62
  else if c = '/' then some 63
  else none

/-- Decode what is left of a text after `count` characters of a group, whose bits that are
not yet used up are given, and after some padding. Characters that mean nothing are passed
over. None if the last group is not complete. -/
def decodeGroup (count bits padding : Nat) : List Char → Option (List UInt8)
  | [] => if count = 0 then some [] else none
  | c :: rest =>
    if c = '=' then
      if 2 ≤ count && 4 ≤ count + padding + 1 then some []
      else decodeGroup count bits (if 2 ≤ count then padding + 1 else padding) rest
    else
      match sextet? c with
      | none => decodeGroup count bits padding rest
      | some v =>
        match count with
        | 0 => decodeGroup 1 v 0 rest
        | 1 => (decodeGroup 2 (v % 16) 0 rest).map (UInt8.ofNat (4 * bits + v / 16) :: ·)
        | 2 => (decodeGroup 3 (v % 4) 0 rest).map (UInt8.ofNat (16 * bits + v / 4) :: ·)
        | _ => (decodeGroup 0 0 0 rest).map (UInt8.ofNat (64 * bits + v) :: ·)

def decode64? (cs : List Char) : Option (List UInt8) := decodeGroup 0 0 0 cs

end PlotGraph.Text.Octets
