import PlotGraph.Number.Decimal
import PlotGraph.Text.Quoted

/-!
# Strict UTF-8

A text is decoded character by character. The first byte of a character fixes how many
bytes follow and in which interval each of them lies, so that overlong forms, surrogates
and code points past U+10FFFF fail at the byte that makes them so.

A decoding error names the bytes at fault: those that were read as a correct beginning, or
the one byte that can begin nothing.
-/

namespace PlotGraph.Text.Utf8

/-! ### Errors -/

/-- What is wrong with a sequence of bytes. -/
inductive Problem where
  | startByte
  | continuationByte
  | endOfData
  deriving DecidableEq, Repr

/-- The bytes that cannot be decoded: the first of them, its position, and their number. -/
structure DecodeError where
  problem : Problem
  byte : UInt8
  position : Nat
  count : Nat
  deriving DecidableEq, Repr

def Problem.message : Problem → String
  | .startByte => "invalid start byte"
  | .continuationByte => "invalid continuation byte"
  | .endOfData => "unexpected end of data"

def DecodeError.message (e : DecodeError) : String :=
  let place :=
    if e.count = 1 then
      "byte 0x" ++ String.ofList (hex 2 e.byte.toNat) ++ " in position "
        ++ Decimal.ofNat e.position
    else
      "bytes in position " ++ Decimal.ofNat e.position ++ "-"
        ++ Decimal.ofNat (e.position + e.count - 1)
  "'utf-8' codec can't decode " ++ place ++ ": " ++ e.problem.message

/-! ### One character -/

/-- The first and the last byte allowed at a place. -/
abbrev Interval := UInt8 × UInt8

/-- The interval of continuation bytes without further restriction. -/
def anyContinuation : Interval := (0x80, 0xBF)

/-- The bits that a first byte adds to the code point, and the intervals of the bytes that
follow it. -/
def lead? (b : UInt8) : Option (Nat × List Interval) :=
  if b < 0x80 then some (b.toNat, [])
  else if b < 0xC2 then none
  else if b < 0xE0 then some (b.toNat - 0xC0, [anyContinuation])
  else if b = 0xE0 then some (0, [(0xA0, 0xBF), anyContinuation])
  else if b = 0xED then some (0xD, [(0x80, 0x9F), anyContinuation])
  else if b < 0xF0 then some (b.toNat - 0xE0, [anyContinuation, anyContinuation])
  else if b = 0xF0 then some (0, [(0x90, 0xBF), anyContinuation, anyContinuation])
  else if b < 0xF4 then
    some (b.toNat - 0xF0, [anyContinuation, anyContinuation, anyContinuation])
  else if b = 0xF4 then some (4, [(0x80, 0x8F), anyContinuation, anyContinuation])
  else none

/-- Read the bytes after the first; on failure, tell how many of them were right. -/
def follow : List Interval → (code : Nat) → (bs : List UInt8) →
    Except (Problem × Nat) (Nat × { r : List UInt8 // r.length ≤ bs.length })
  | [], code, bs => .ok (code, ⟨bs, Nat.le_refl _⟩)
  | _ :: _, _, [] => .error (.endOfData, 0)
  | (low, high) :: more, code, b :: bs =>
    if low ≤ b && b ≤ high then
      match follow more (code * 64 + (b.toNat - 0x80)) bs with
      | .ok (code', ⟨r, h⟩) => .ok (code', ⟨r, Nat.le_succ_of_le h⟩)
      | .error (problem, right) => .error (problem, right + 1)
    else .error (.continuationByte, 0)

/-! ### The whole text -/

/-- Decode bytes whose first one stands at the given position. -/
def decodeAt (position : Nat) : (bs : List UInt8) → Except DecodeError (List Char)
  | [] => .ok []
  | b :: bs =>
    match lead? b with
    | none => .error ⟨.startByte, b, position, 1⟩
    | some (bits, intervals) =>
      match follow intervals bits bs with
      | .error (problem, right) => .error ⟨problem, b, position, right + 1⟩
      | .ok (code, ⟨rest, h⟩) => do
        let tail ← decodeAt (position + intervals.length + 1) rest
        return Char.ofNat code :: tail
termination_by bs => bs.length

def decode (bs : List UInt8) : Except DecodeError (List Char) := decodeAt 0 bs

/-- Decode a text that arrives in pieces: a character that is still incomplete at the end
is held back and decoded by itself, so its position counts from its own first byte. -/
def decodePieces (bs : List UInt8) : Except DecodeError (List Char) :=
  (decode bs).mapError fun e =>
    if e.problem = .endOfData then { e with position := 0 } else e

def encode (s : String) : List UInt8 := s.toUTF8.toList

end PlotGraph.Text.Utf8
