/-!
# Places in a text

A `Cursor` is what is left of a text, with the line, the column and the offset that have
been reached. `rest_next`, `rest_forward` and `rest_skipWhile` say what each move leaves.

Four characters count as line breaks, but only after a line feed does a new line start:
the others take up a column like any other character.
-/

namespace PlotGraph.Yaml

/-! ### Classes of characters -/

def isBreak (c : Char) : Bool := c == '\n' || c == '\x85' || c == '\u2028' || c == '\u2029'

/-- A line break as it stands in a scalar. -/
def breakText (c : Char) : Char := if c = '\x85' then '\n' else c

def isGap (c : Char) : Bool := c == ' ' || c == '\t'

def endsLine : Option Char → Bool
  | none => true
  | some c => isBreak c

def endsWord : Option Char → Bool
  | none => true
  | some c => isGap c || isBreak c

/-- Whether a name, a tag or a header ends before what comes next. -/
def endsPart : Option Char → Bool
  | none => true
  | some c => c == ' ' || isBreak c

/-- The mark that may start a text; it takes up no column. -/
def byteOrderMark : Char := '\ufeff'

/-! ### Cursors -/

/-- A place in a text, and what is left of the text there. -/
structure Cursor where
  rest : List Char
  offset : Nat := 0
  line : Nat := 0
  column : Nat := 0
  deriving Repr

namespace Cursor

/-- The first place of a text, past a byte order mark. -/
def start : List Char → Cursor
  | [] => { rest := [] }
  | c :: rest => if c = byteOrderMark then { rest, offset := 1 } else { rest := c :: rest }

def peek (c : Cursor) (distance : Nat) : Option Char := c.rest[distance]?

def head? (c : Cursor) : Option Char := c.rest.head?

def isAt (c : Cursor) (char : Char) : Bool := c.head? == some char

def isAtAny (c : Cursor) (p : Char → Bool) : Bool := c.head?.any p

def next (c : Cursor) : Cursor :=
  match c.rest with
  | [] => c
  | char :: rest =>
    if char = '\n' then { rest, offset := c.offset + 1, line := c.line + 1, column := 0 }
    else
      { rest, offset := c.offset + 1, line := c.line
        column := if char = byteOrderMark then c.column else c.column + 1 }

/-- The place after a number of characters. -/
def forward : Nat → Cursor → Cursor
  | 0, c => c
  | n + 1, c => forward n c.next

/-- The next characters that are all of a class. -/
def run (c : Cursor) (p : Char → Bool) : List Char := c.rest.takeWhile p

/-- The place after the next characters that are all of a class. -/
def skipWhile (c : Cursor) (p : Char → Bool) : Cursor := c.forward (c.run p).length

/-- Whether the marker of a document's start or end is next, as a word of its own. -/
def isAtMarker (c : Cursor) (char : Char) : Bool :=
  c.rest.take 3 == [char, char, char] && endsWord (c.peek 3)

def isAtAnyMarker (c : Cursor) : Bool := c.isAtMarker '-' || c.isAtMarker '.'

/-! ### What the moves leave -/

theorem rest_next (c : Cursor) : c.next.rest = c.rest.tail := by
  unfold next
  split
  · next h => simp [h]
  · next h => split <;> simp [h]

/-- To go forward drops what is passed. -/
theorem rest_forward (n : Nat) (c : Cursor) : (forward n c).rest = c.rest.drop n := by
  induction n generalizing c with
  | zero => rfl
  | succ n ih => rw [forward, ih, rest_next, ← List.drop_one, List.drop_drop, Nat.add_comm]

theorem rest_skipWhile (c : Cursor) (p : Char → Bool) :
    (c.skipWhile p).rest = c.rest.dropWhile p := by
  rw [skipWhile, rest_forward, run]
  induction c.rest with
  | nil => rfl
  | cons char rest ih => by_cases h : p char = true <;> simp [h, ih]

theorem length_rest_skipWhile_le (c : Cursor) (p : Char → Bool) :
    (c.skipWhile p).rest.length ≤ c.rest.length := by
  rw [rest_skipWhile]
  exact (List.dropWhile_sublist p).length_le

/-- Each character that is passed shortens what is left. -/
theorem length_rest_next_lt {c : Cursor} {char : Char} {rest : List Char}
    (h : c.rest = char :: rest) : c.next.rest.length < c.rest.length := by
  simp [rest_next, h]

end Cursor
end PlotGraph.Yaml
