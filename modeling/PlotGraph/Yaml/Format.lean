/-!
# The format of a document

The two versions of the format differ in what plain scalars look like numbers and truth
values, and in a few rules for text inside brackets. How a scalar is written settles
whether it may be more than a text.
-/

namespace PlotGraph.Yaml

inductive Version where
  /-- Version 1.1, which a document has to ask for. -/
  | older
  /-- Version 1.2. -/
  | newer
  deriving DecidableEq, Repr, Inhabited

def Version.ofMinor? : Nat → Option Version
  | 1 => some .older
  | 2 => some .newer
  | _ => none

inductive Style where
  | plain
  | singleQuoted
  | doubleQuoted
  | literal
  | folded
  deriving DecidableEq, Repr

/-- The character that starts a scalar of a style; a plain one has none. -/
def Style.indicator? : Style → Option Char
  | .plain => none
  | .singleQuoted => some '\x27'
  | .doubleQuoted => some '"'
  | .literal => some '|'
  | .folded => some '>'

end PlotGraph.Yaml
