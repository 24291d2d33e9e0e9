import PlotGraph.Yaml.Block
import PlotGraph.Yaml.Plain
import PlotGraph.Yaml.Quoted
import PlotGraph.Yaml.Tag

/-!
# Tokens

The tokens of a document and the readers of those that have a name: anchors, aliases and
directives. Which token comes next is decided in `PlotGraph.Yaml.Tokens`.
-/

namespace PlotGraph.Yaml

/-- A directive: the version of the format, what a handle of tags stands for, or one that
is passed over. -/
inductive Directive where
  | version (major minor : Nat)
  | handle (handle start : String)
  | other
  deriving DecidableEq, Repr

/-- A token. Those that open and close block collections stand for indentation. -/
inductive Token where
  | directive (d : Directive)
  | documentStart
  | documentEnd
  | sequenceStart
  | mappingStart
  | blockEnd
  | flowSequenceStart
  | flowSequenceEnd
  | flowMappingStart
  | flowMappingEnd
  | blockEntry
  | flowEntry
  | key
  | value
  | alias (name : String)
  | anchor (name : String)
  | tag (t : Tag)
  | scalar (text : String) (style : Style)
  deriving DecidableEq, Repr

/-! ### Anchors and aliases -/

def isAnchorChar (c : Char) : Bool :=
  !Plain.isBracket c && c != byteOrderMark &&
    ((0x21 ≤ c.toNat && c.toNat ≤ 0x7E) || (0xA0 ≤ c.toNat && c.toNat ≤ 0xFFFD) ||
      0x10000 ≤ c.toNat)

/-- Whether the name of an anchor may end before what comes next. -/
def endsAnchor (next : Option Char) : Bool :=
  endsPart next || next.any fun c => isGap c || Plain.isBracket c

def readAnchor (c : Cursor) : Option (String × Cursor) :=
  let name := c.next.run isAnchorChar
  let after := c.next.skipWhile isAnchorChar
  if name.isEmpty || !endsAnchor after.head? then none else some (String.ofList name, after)

/-! ### Directives -/

def readNumber (c : Cursor) : Option (Nat × Cursor) :=
  let ds := c.run Char.isDigit
  if ds.isEmpty then none
  else some (Decimal.valueOf (ds.map fun d => d.toNat - 48), c.skipWhile Char.isDigit)

def readVersion (c : Cursor) : Option (Directive × Cursor) := do
  let (major, c) ← readNumber (c.skipWhile (· == ' '))
  if !c.isAt '.' then failure
  let (minor, c) ← readNumber c.next
  if endsPart c.head? then some (.version major minor, c) else none

def readDeclaration (c : Cursor) : Option (Directive × Cursor) := do
  let (handle, c) ← readHandle (c.skipWhile (· == ' '))
  if !c.isAt ' ' then failure
  let (start, c) ← readTagName .newer (c.skipWhile (· == ' '))
  if endsPart c.head? then some (.handle handle (String.ofList start), c) else none

def readDirective (c : Cursor) : Option (Directive × Cursor) := do
  let isNameChar (char : Char) : Bool := isWordChar char || char == ':' || char == '.'
  let name := c.next.run isNameChar
  let c := c.next.skipWhile isNameChar
  if name.isEmpty || !endsPart c.head? then failure
  let (d, c) ←
    if name == "YAML".toList then readVersion c
    else if name == "TAG".toList then readDeclaration c
    else some (.other, c.skipWhile fun char => !endsLine (some char))
  let c := c.skipWhile (· == ' ')
  let c := if c.isAt '#' then c.skipWhile fun char => !endsLine (some char) else c
  match c.head? with
  | none => some (d, c)
  | some char => if isBreak char then some (d, c.next) else none

end PlotGraph.Yaml
