import PlotGraph.Yaml.Datum
import PlotGraph.Yaml.Numeral

/-!
# The values of scalars

A plain scalar without a tag is what it looks like: nothing, a truth value, a number, a
point in time, or else a text. A tag of one of the standard kinds settles the kind, and the
text has to fit it. A scalar of any other kind is kept with its tag.
-/

namespace PlotGraph.Yaml.Scalar

/-! ### Words -/

def nullWords : List String := ["", "~", "null", "Null", "NULL"]

def truthWords : List (String × Bool) :=
  [("true", true), ("yes", true), ("y", true), ("on", true),
   ("false", false), ("no", false), ("n", false), ("off", false)]

/-- The words for truth values that need no tag, in lower case. -/
def plainTruthWords : Version → List String
  | .older => truthWords.map Prod.fst
  | .newer => ["true", "false"]

/-- Whether a word is written in lower case, in upper case, or with a capital. -/
def isCased (word : String) (cs : List Char) : Bool :=
  let upper := word.toList.map Char.toUpper
  cs == word.toList || cs == upper || cs == upper.take 1 ++ word.toList.drop 1

/-! ### Kinds -/

/-- The kinds of scalars that have a value of their own. -/
inductive Kind where
  | null
  | truth
  | integer
  | number
  | time
  | octets
  | text
  deriving DecidableEq, Repr

def Kind.ofName? : String → Option Kind
  | "null" => some .null
  | "bool" => some .truth
  | "int" => some .integer
  | "float" => some .number
  | "timestamp" => some .time
  | "binary" => some .octets
  | "str" => some .text
  | _ => none

/-- The standard name of the key under which a mapping takes in others. -/
def mergeName : String := "merge"

def valueName : String := "value"

/-- A text without the line break at its end; one that is nothing else is kept. -/
def withoutBreak (cs : List Char) : List Char :=
  if cs.getLast? = some '\n' && 1 < cs.length then cs.dropLast else cs

/-- The standard name of the kind that a plain scalar looks like. A line break at its end
does not count. -/
def looks (v : Version) (text : String) : String :=
  let cs := withoutBreak text.toList
  if (plainTruthWords v).any (isCased · cs) then "bool"
  else if Numeral.looksNumber v cs then "float"
  else if Numeral.looksInteger v cs then "int"
  else if cs = ['<', '<'] then mergeName
  else if nullWords.contains (String.ofList cs) then "null"
  else if (Moment.parts? cs).any (·.isPlain) then "timestamp"
  else if cs = ['='] then valueName
  else "str"

/-- The tag of a scalar: the one that it has, or that of what it looks like. -/
def tagOf (v : Version) (text : String) (style : Style) (tag : Option Tag) : Tag :=
  let standard (name : String) : Tag := { name := standardStart ++ name, hasHandle := false }
  match tag with
  | some t => if t.isOpen then standard (looks v text) else t
  | none => standard (if style = .plain then looks v text else "str")

/-! ### Values -/

/-- A truth value; one with an anchor counts as a number. -/
def truth (anchored b : Bool) : Datum := if anchored then .int (if b then 1 else 0) else .bool b

def value (v : Version) (kind : Kind) (text : String) (anchored : Bool) : Except Fault Datum :=
  let cs := text.toList
  match kind with
  | .null => .ok .null
  | .text => .ok (.text text)
  | .integer => ((Numeral.integer v cs).map .int).mapError .scalar
  | .number => ((Numeral.number v cs).map .float).mapError .scalar
  | .truth =>
    let word := String.ofList (Numeral.lower cs)
    match truthWords.lookup word with
    | some b => .ok (truth anchored b)
    | none => .error (.scalar (.notATruthValue word))
  | .time =>
    match Moment.parts? (withoutBreak cs) with
    | some parts =>
      match parts.value with
      | .ok (.inl d) => .ok (.date d)
      | .ok (.inr m) => .ok (.moment m)
      | .error e => .error (.scalar (.time e))
    | none => .error .malformed
  | .octets =>
    match if cs.all (·.toNat < 0x80) then Text.Octets.decode64? cs else none with
    | some bs => .ok (.octets bs)
    | none => .error .malformed

/-- The value of a scalar with a tag; its anchor is known by its place. -/
def ofTag (v : Version) (text : String) (style : Style) (t : Tag) (anchor : Option Nat) :
    Except Fault Datum :=
  let unknown : Datum := .tagged { text, style, tag := t.name, anchor }
  match t.standardName? with
  | none => .ok unknown
  | some name =>
    match Kind.ofName? name with
    | some .text => .ok (if t.hasHandle then unknown else .text text)
    | some kind => value v kind text anchor.isSome
    | none =>
      if name = "omap" || name = "set" then .error (.content .scalarAsCollection)
      else if name = "seq" || name = "map" || name = "pairs" then .error .malformed
      else .ok unknown

def datum (v : Version) (text : String) (style : Style) (tag : Option Tag)
    (anchor : Option Nat) : Except Fault Datum :=
  ofTag v text style (tagOf v text style tag) anchor

end PlotGraph.Yaml.Scalar
