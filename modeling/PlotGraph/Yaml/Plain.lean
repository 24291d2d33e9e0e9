import PlotGraph.Yaml.Cursor
import PlotGraph.Yaml.Format

/-!
# Plain scalars

A plain scalar is a sequence of words without quotes. It goes on over the following lines
as long as they are indented; a single line break between two words stands for a space,
and of several the first is dropped. A colon ends it only at the end of a word, and a
number sign only at the start of one. In the older version a question mark ends it inside
brackets.
-/

namespace PlotGraph.Yaml.Plain

def isBracket (c : Char) : Bool := [',', '[', ']', '\x7b', '\x7d'].contains c

def wordLength (v : Version) (inFlow : Bool) : List Char → Nat
  | [] => 0
  | c :: rest =>
    if endsWord (some c) || (c == ':' && endsWord rest.head?) || (inFlow && isBracket c)
        || (inFlow && v == .older && c == '?') then 0
    else wordLength v inFlow rest + 1

/-- What stands between two words: the text it adds to the scalar, the place after it, and
whether it holds a line break. -/
structure Gap where
  text : List Char
  cursor : Cursor
  broken : Bool

/-- The line breaks among the spaces and line breaks that come next; none if the marker of
a document's start or end follows one of them. -/
def breaks (c : Cursor) : Option (List Char) × Cursor :=
  match h : c.rest with
  | [] => (some [], c)
  | char :: _ =>
    have : c.next.rest.length < c.rest.length := Cursor.length_rest_next_lt h
    if char = ' ' then breaks c.next
    else if isBreak char then
      if c.next.isAtAnyMarker then (none, c.next)
      else
        let (more, c') := breaks c.next
        (more.map (breakText char :: ·), c')
    else (some [], c)
termination_by c.rest.length

/-- The text for a line break and those that follow it. -/
def folded (first : Char) (more : List Char) : List Char :=
  if first ≠ '\n' then first :: more else if more.isEmpty then [' '] else more

def gap (c : Cursor) : Gap :=
  let spaces := c.run (· == ' ')
  let c := c.skipWhile (· == ' ')
  match c.head? with
  | some char =>
    if isBreak char then
      if c.next.isAtAnyMarker then ⟨[], c.next, true⟩
      else
        match breaks c.next with
        | (some more, c') => ⟨folded (breakText char) more, c', true⟩
        | (none, c') => ⟨[], c', true⟩
    else ⟨spaces, c, false⟩
  | none => ⟨spaces, c, false⟩

/-- Read words and the gaps between them, after a gap that has been read. The text of a
gap counts only if a word follows it. -/
def words (v : Version) (inFlow : Bool) (indent : Int) (before : Gap) : Gap :=
  let c := before.cursor
  let length := wordLength v inFlow c.rest
  if c.isAt '#' || length = 0 then { before with text := [] }
  else
    let after := gap (c.forward length)
    let text := before.text ++ c.rest.take length
    if after.text.isEmpty || after.cursor.isAt '#' ||
        (!inFlow && (after.cursor.column : Int) < indent) then
      { after with text }
    else if after.cursor.rest.length < c.rest.length then
      let more := words v inFlow indent after
      { more with text := text ++ more.text }
    else { after with text }
termination_by before.cursor.rest.length

/-- Read a plain scalar whose following lines have to reach the given column. -/
def read (v : Version) (inFlow : Bool) (indent : Int) (c : Cursor) : Gap :=
  words v inFlow indent ⟨[], c, false⟩

end PlotGraph.Yaml.Plain
