import PlotGraph.Yaml.Cursor

/-!
# Block scalars

A block scalar starts with a header and takes all following lines that are indented to its
column, which the first line that is not empty sets unless the header does. A literal
scalar keeps its line breaks. A folded one turns a line break between two lines of text
into a space, unless one of the lines starts with white space. The header also says what
becomes of the line breaks at the end: all are kept, or none, or one.
-/

namespace PlotGraph.Yaml.Block

/-! ### The header -/

/-- What becomes of the line breaks at the end. -/
inductive Chomping where
  | clip
  | strip
  | keep
  deriving DecidableEq, Repr

/-- A header: what becomes of the end, and the indentation relative to the parent. -/
structure Header where
  chomping : Chomping := .clip
  increment : Option Nat := none
  deriving Repr

def chomping? : Option Char → Option Chomping
  | some '+' => some .keep
  | some '-' => some .strip
  | _ => none

def digit? : Option Char → Option Nat
  | some c => if '0' ≤ c && c ≤ '9' then some (c.toNat - 48) else none
  | none => none

/-- Read the sign and the digit of a header, in either order. -/
def indicators (c : Cursor) : Header × Cursor :=
  match chomping? c.head? with
  | some chomping =>
    match digit? c.next.head? with
    | some d => ({ chomping, increment := some d }, c.next.next)
    | none => ({ chomping }, c.next)
  | none =>
    match digit? c.head? with
    | some d =>
      match chomping? c.next.head? with
      | some chomping => ({ chomping, increment := some d }, c.next.next)
      | none => ({ increment := some d }, c.next)
    | none => ({}, c)

/-- Read a header to the end of its line, where a comment may stand. -/
def header (c : Cursor) : Option (Header × Cursor) :=
  let (h, c) := indicators c
  if h.increment = some 0 || !endsPart c.head? then none
  else
    let c := c.skipWhile (· == ' ')
    let c := if c.isAt '#' then c.skipWhile fun char => !endsLine (some char) else c
    match c.head? with
    | none => some (h, c)
    | some char => if isBreak char then some (h, c.next) else none

/-! ### Indentation -/

def skipIndent (column : Nat) (c : Cursor) : Cursor :=
  Cursor.forward (min (column - c.column) (c.run (· == ' ')).length) c

theorem length_rest_skipIndent_le (column : Nat) (c : Cursor) :
    (skipIndent column c).rest.length ≤ c.rest.length := by
  simp [skipIndent, Cursor.rest_forward]

/-- The line breaks of empty lines, and the place in the next line, at most at a column. -/
def breaks (column : Nat) (c : Cursor) : List Char × Cursor :=
  let c' := skipIndent column c
  match h : c'.rest with
  | [] => ([], c')
  | char :: _ =>
    if isBreak char then
      have : c'.next.rest.length < c.rest.length :=
        Nat.lt_of_lt_of_le (Cursor.length_rest_next_lt h) (length_rest_skipIndent_le column c)
      let (more, last) := breaks column c'.next
      (breakText char :: more, last)
    else ([], c')
termination_by c.rest.length

/-- What precedes the first line that is not empty: the line breaks, the greatest column
reached by spaces, and the column of the first line break. -/
structure Lead where
  breaks : List Char := []
  deepest : Nat := 0
  first : Option Nat := none

def lead (found : Lead) (c : Cursor) : Lead × Cursor :=
  match h : c.rest with
  | [] => (found, c)
  | char :: _ =>
    have : c.next.rest.length < c.rest.length := Cursor.length_rest_next_lt h
    if char = ' ' then lead { found with deepest := max found.deepest c.next.column } c.next
    else if isBreak char then
      lead { found with
        breaks := found.breaks ++ [breakText char]
        first := found.first.or (some c.column) } c.next
    else (found, c)
termination_by c.rest.length

/-- Whether empty lines set an indentation that the first line of text goes beyond. -/
def Lead.isUneven (l : Lead) : Bool :=
  match l.first with
  | some column => 0 < column && column < l.deepest
  | none => false

/-! ### The lines -/

/-- What stands for the line break after a line of text, with the line breaks of the empty
lines that follow it still to come. -/
def joint (folded fromText toText : Bool) (lineBreak : Char) (empty : List Char) : List Char :=
  if folded && lineBreak = '\n' && fromText && toText then (if empty.isEmpty then [' '] else [])
  else [lineBreak]

def ending (chomping : Chomping) (lineBreak empty : List Char) : List Char :=
  match chomping with
  | .keep => lineBreak ++ empty
  | .clip => lineBreak
  | .strip => []

/-- Whether there is a line of text at a column. -/
def isLine (column : Nat) (c : Cursor) : Bool := c.column == column && !c.rest.isEmpty

def lineBreak (c : Cursor) : List Char × Cursor :=
  match c.head? with
  | some char => if isBreak char then ([breakText char], c.next) else ([], c)
  | none => ([], c)

/-- Read the lines at a column, after some empty ones. At the outermost level the marker
of a document's start or end ends the scalar. -/
def lines (folded outermost : Bool) (chomping : Chomping) (column : Nat) (before : List Char)
    (c : Cursor) : List Char × Cursor :=
  let text := c.run fun char => !endsLine (some char)
  let (lineEnd, next) := lineBreak (c.forward text.length)
  let (empty, c') := breaks column next
  let start := before ++ text
  if isLine column c' && !(outermost && c'.column == 0 && c'.isAtAnyMarker) &&
      c'.rest.length < c.rest.length then
    let glue := match lineEnd with
      | [b] => joint folded (!c.isAtAny isGap) (!c'.isAtAny isGap) b empty
      | _ => []
    let (more, last) := lines folded outermost chomping column empty c'
    (start ++ glue ++ more, last)
  else (start ++ ending chomping lineEnd empty, c')
termination_by c.rest.length
decreasing_by simp_all

/-- Read the lines after the header, below a parent that is indented to a column. -/
def content (folded : Bool) (parent : Int) (h : Header) (c : Cursor) :
    Option (List Char × Cursor) :=
  let least := (parent + 1).toNat
  let found : Option (List Char × Nat × Cursor) :=
    match h.increment with
    | some n =>
      let column := max least 1 + n - 1
      let (empty, c) := breaks column c
      some (empty, column, c)
    | none =>
      let (l, c) := lead {} c
      if l.isUneven then none else some (l.breaks, max least l.deepest, c)
  found.map fun (empty, column, c) =>
    if isLine column c then
      lines folded (least = 0 && h.increment.isNone) h.chomping column empty c
    else (ending h.chomping [] empty, c)

def read (folded : Bool) (parent : Int) (c : Cursor) : Option (List Char × Cursor) := do
  let (h, c) ← header c.next
  content folded parent h c

end PlotGraph.Yaml.Block
