import PlotGraph.Json.Reader
import PlotGraph.Yaml.Cursor
import PlotGraph.Yaml.Fault

/-!
# Quoted scalars

Between single quotes all characters stand for themselves, and a quote is written twice.
Between double quotes a backslash starts an escape. In both, a line break with the white
space around it stands for a space, and of several line breaks the first is dropped; the
marker of a document's start or end may not follow one.
-/

namespace PlotGraph.Yaml.Quoted

/-! ### Line breaks -/

/-- The line breaks that come next, with the white space around them; none if the marker
of a document's start or end follows one of them. -/
def breaks (c : Cursor) : Option (List Char × Cursor) :=
  if c.isAtAnyMarker then none
  else
    let blank := c.skipWhile isGap
    match h : blank.rest with
    | [] => some ([], blank)
    | char :: _ =>
      if isBreak char then
        have : blank.next.rest.length < c.rest.length :=
          Nat.lt_of_lt_of_le (Cursor.length_rest_next_lt h) (c.length_rest_skipWhile_le isGap)
        (breaks blank.next).map fun (more, c') => (breakText char :: more, c')
      else some ([], blank)
termination_by c.rest.length

/-- Read white space: as it is on one line, folded over several. It may not end the text. -/
def space (c : Cursor) : Option (List Char × Cursor) :=
  let blank := c.skipWhile isGap
  match blank.head? with
  | none => none
  | some char =>
    if isBreak char then
      (breaks blank.next).map fun (more, c') =>
        let first := breakText char
        (if first ≠ '\n' then first :: more else if more.isEmpty then [' '] else more, c')
    else some (c.run isGap, blank)

/-! ### Escapes -/

def letterEscapes : List (Char × Char) :=
  [('0', '\x00'), ('a', '\x07'), ('b', '\x08'), ('t', '\t'), ('\t', '\t'), ('n', '\n'),
   ('v', '\x0b'), ('f', '\x0c'), ('r', '\r'), ('e', '\x1b'), (' ', ' '), ('"', '"'), ('/', '/'),
   ('\\', '\\'), ('N', '\x85'), ('_', '\xa0'), ('L', '\u2028'), ('P', '\u2029')]

/-- The numbers of hexadecimal digits that follow the letters of code escapes. -/
def codeEscapes : List (Char × Nat) := [('x', 2), ('u', 4), ('U', 8)]

/-- The code point that hexadecimal digits denote, if there are enough of them. -/
def code? (count : Nat) (cs : List Char) : Option Nat :=
  let digits := cs.take count
  if digits.length = count then
    (digits.mapM Json.hexValue?).map fun values => values.foldl (fun n v => 16 * n + v) 0
  else none

/-- The character of a code point, which may be one half of a surrogate pair. -/
def charOfCode (code : Nat) : Except Fault Char :=
  if 0x7FFFFFFF < code then .error (.scalar .codeNumber)
  else if 0x10FFFF < code then .error (.scalar .codePoint)
  else .ok (Text.charOfCode code)

def escape (c : Cursor) : Except Fault (List Char × Cursor) :=
  match c.head? with
  | none => .error .malformed
  | some char =>
    match letterEscapes.lookup char, codeEscapes.lookup char with
    | some denoted, _ => .ok ([denoted], c.next)
    | none, some digits =>
      match code? digits c.next.rest with
      | some code => (charOfCode code).map fun d => ([d], Cursor.forward digits c.next)
      | none => .error .malformed
    | none, none =>
      if isBreak char then
        match breaks c.next with
        | some found => .ok found
        | none => .error .malformed
      else .error .malformed

/-! ### The scalar -/

/-- Read one piece between the quotes: a character, a doubled quote, an escape, or white
space. None stands for the quote that ends the scalar. -/
def piece (quote : Char) (c : Cursor) : Except Fault (Option (List Char × Cursor)) :=
  match c.head? with
  | none => .error .malformed
  | some char =>
    if char = quote then
      if quote = '\x27' && c.peek 1 == some quote then .ok (some ([quote], c.next.next))
      else .ok none
    else if char = '\\' && quote = '"' then (escape c.next).map some
    else if isGap char || isBreak char then
      match space c with
      | some found => .ok (some found)
      | none => .error .malformed
    else .ok (some ([char], c.next))

/-- Read the rest of a scalar and the quote that ends it. -/
def body (quote : Char) (c : Cursor) : Except Fault (List Char × Cursor) :=
  match piece quote c with
  | .error e => .error e
  | .ok none => .ok ([], c.next)
  | .ok (some (text, c')) =>
    if c'.rest.length < c.rest.length then
      (body quote c').map fun (more, last) => (text ++ more, last)
    else .error .malformed
termination_by c.rest.length

def read (quote : Char) (c : Cursor) : Except Fault (List Char × Cursor) := body quote c.next

end PlotGraph.Yaml.Quoted
