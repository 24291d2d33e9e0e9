import PlotGraph.Yaml.Token

/-!
# The tokens of a text

Collections without brackets are told by indentation, and the key of a mapping only by the
colon that follows it. So a token that may be a key is remembered (`SimpleKey`), and when
its colon comes, the token `key` is put in before it, together with the start of a mapping
where the key is indented deeper than all that is open.

A key stands on one line and is not longer than `maxKeyLength`. One that stands exactly at
the indentation of the open mapping is required: it is an error if no colon follows it.
-/

namespace PlotGraph.Yaml

/-! ### The state -/

inductive Bracket where
  | square
  | curly
  deriving DecidableEq, Repr

/-- A token that may turn out to be a key: the number of tokens before it, and its place. -/
structure SimpleKey where
  number : Nat
  required : Bool
  offset : Nat
  line : Nat
  column : Nat
  deriving Repr

/-- The most characters that a key without an indicator may have. -/
def maxKeyLength : Nat := 1024

/-- Whether it is too late for a colon to make this a key. -/
def SimpleKey.isStale (k : SimpleKey) (c : Cursor) : Bool :=
  k.line != c.line || k.offset + maxKeyLength < c.offset

structure TokenState where
  cursor : Cursor
  /-- The tokens so far, the last one first. -/
  tokens : List Token := []
  /-- The column of the innermost open block collection, and of those around it. -/
  indent : Int := -1
  indents : List Int := []
  /-- Whether a key may start here. -/
  mayStartKey : Bool := true
  /-- The possible key of this level. -/
  key : Option SimpleKey := none
  /-- The open brackets, the innermost first, with the possible keys around them. -/
  enclosing : List (Bracket × Option SimpleKey) := []
  /-- The minor number of the version that the document asks for. -/
  minor : Option Nat := none
  /-- What the document declares handles to stand for. -/
  handles : Handles := []

namespace TokenState

def version (s : TokenState) : Version := (s.minor.bind Version.ofMinor?).getD .newer

def inFlow (s : TokenState) : Bool := !s.enclosing.isEmpty

def push (s : TokenState) (t : Token) : TokenState := { s with tokens := t :: s.tokens }

/-- Put in a token so that it has the given number of tokens before it. -/
def insert (s : TokenState) (number : Nat) (t : Token) : TokenState :=
  let after := s.tokens.length - number
  { s with tokens := s.tokens.take after ++ t :: s.tokens.drop after }

def forward (s : TokenState) (n : Nat) : TokenState :=
  { s with cursor := s.cursor.forward n }

/-! ### Possible keys -/

/-- Give up the possible key of this level, which may not be a required one. -/
def dropKey (s : TokenState) : Except Fault TokenState :=
  if s.key.any (·.required) then .error .malformed else .ok { s with key := none }

/-- Remember that the next token may be a key, if a key may start here. -/
def saveKey (s : TokenState) : Except Fault TokenState := do
  if !s.mayStartKey then return s
  let s' ← s.dropKey
  return { s' with key := some {
    number := s.tokens.length
    required := !s.inFlow && s.indent == s.cursor.column
    offset := s.cursor.offset
    line := s.cursor.line
    column := s.cursor.column } }

/-- A possible key, unless it is too late for it. -/
def fresh (c : Cursor) : Option SimpleKey → Except Fault (Option SimpleKey)
  | none => .ok none
  | some k =>
    if !k.isStale c then .ok (some k) else if k.required then .error .malformed else .ok none

/-- Give up the possible keys of all levels for which it is too late. -/
def dropStale (s : TokenState) : Except Fault TokenState := do
  let key ← fresh s.cursor s.key
  let enclosing ← s.enclosing.mapM fun (b, k) => return (b, ← fresh s.cursor k)
  return { s with key, enclosing }

/-! ### Indentation -/

/-- Close the block collections that are indented deeper than a column. -/
def closeTo (column : Int) (s : TokenState) : List Int → TokenState
  | [] => s
  | outer :: indents =>
    if column < s.indent then
      closeTo column { s.push .blockEnd with indent := outer, indents } indents
    else s

/-- Close the block collections that end before a column; brackets keep them open. -/
def unwind (s : TokenState) (column : Int) : TokenState :=
  if s.inFlow then s else closeTo column s s.indents

/-- Whether a column is deeper than the innermost open block collection. -/
def isDeeper (s : TokenState) (column : Nat) : Bool := s.indent < column

/-- Open a block collection at a column. -/
def openAt (s : TokenState) (column : Nat) : TokenState :=
  { s with indents := s.indent :: s.indents, indent := column }

/-- Open a block collection at this place if it is deeper, with the token that starts it. -/
def openHere (s : TokenState) (start : Token) : TokenState :=
  let column := s.cursor.column
  if !s.inFlow && s.isDeeper column then (s.openAt column).push start else s

/-! ### Tokens of one character -/

/-- A marker of a document's start or end, or a directive, closes everything. -/
def closeAll (s : TokenState) : Except Fault TokenState := do
  let s ← (s.unwind (-1)).dropKey
  return { s with mayStartKey := false }

def readMarker (s : TokenState) (t : Token) : Except Fault TokenState := do
  return ((← s.closeAll).push t).forward 3

/-- Read an opening bracket, which may start a key. -/
def readOpening (s : TokenState) (b : Bracket) (t : Token) : Except Fault TokenState := do
  let s ← s.saveKey
  let s := { s with enclosing := (b, s.key) :: s.enclosing, key := none, mayStartKey := true }
  return (s.push t).forward 1

/-- Read a closing bracket; the possible key around it is that of its level again. -/
def readClosing (s : TokenState) (t : Token) : Except Fault TokenState := do
  let s ← s.dropKey
  let s := match s.enclosing with
    | [] => s
    | (_, key) :: rest => { s with enclosing := rest, key }
  return ({ s with mayStartKey := false }.push t).forward 1

def readComma (s : TokenState) : Except Fault TokenState := do
  return ({ (← s.dropKey) with mayStartKey := true }.push .flowEntry).forward 1

/-- Read the dash of an entry, which opens a sequence if it is deeper. -/
def readDash (s : TokenState) : Except Fault TokenState := do
  if !s.inFlow && !s.mayStartKey then throw .malformed
  let s ← (s.openHere .sequenceStart).dropKey
  return ({ s with mayStartKey := true }.push .blockEntry).forward 1

/-- Read the question mark before a key, which opens a mapping if it is deeper. -/
def readQuestion (s : TokenState) : Except Fault TokenState := do
  if !s.inFlow && !s.mayStartKey then throw .malformed
  let s ← (s.openHere .mappingStart).dropKey
  return ({ s with mayStartKey := !s.inFlow }.push .key).forward 1

/-- Make the possible key a key; one that is deeper opens a mapping. -/
def makeKey (s : TokenState) (k : SimpleKey) : TokenState :=
  let s := { s with key := none, mayStartKey := false }.insert k.number .key
  if !s.inFlow && s.isDeeper k.column then (s.openAt k.column).insert k.number .mappingStart
  else s

def readColon (s : TokenState) : Except Fault TokenState := do
  match s.key with
  | some k => return ((s.makeKey k).push .value).forward 1
  | none =>
    if !s.inFlow && !s.mayStartKey then throw .malformed
    let s ← (s.openHere .mappingStart).dropKey
    return ({ s with mayStartKey := !s.inFlow }.push .value).forward 1

/-! ### Longer tokens -/

/-- Take in a token that a reader has found, and the place after it. -/
def take (s : TokenState) (found : Option (Token × Cursor)) : Except Fault TokenState :=
  match found with
  | some (t, cursor) => .ok { s.push t with cursor }
  | none => .error .malformed

/-- Read a token that may be a key, after which no key may start. -/
def readNamed (s : TokenState) (found : Option (Token × Cursor)) : Except Fault TokenState := do
  take { (← s.saveKey) with mayStartKey := false } found

def readQuoted (s : TokenState) (quote : Char) : Except Fault TokenState := do
  let s ← s.saveKey
  let (text, cursor) ← Quoted.read quote s.cursor
  let style := if quote = '"' then Style.doubleQuoted else .singleQuoted
  return { s.push (.scalar (String.ofList text) style) with cursor, mayStartKey := false }

def readBlock (s : TokenState) (folded : Bool) : Except Fault TokenState := do
  take { (← s.dropKey) with mayStartKey := true } <|
    (Block.read folded s.indent s.cursor).map fun (text, c) =>
      (.scalar (String.ofList text) (if folded then .folded else .literal), c)

/-- Read a plain scalar; a key may follow it on a new line. -/
def readPlain (s : TokenState) : Except Fault TokenState := do
  let s ← s.saveKey
  let found := Plain.read s.version s.inFlow (s.indent + 1) s.cursor
  return { s.push (.scalar (String.ofList found.text) .plain) with
    cursor := found.cursor
    mayStartKey := found.broken }

/-- Take in a directive. A version and a handle may be given only once. -/
def note (s : TokenState) : Directive → Except Fault TokenState
  | .version major minor =>
    if s.minor.isSome || major ≠ 1 then .error .malformed else .ok { s with minor := some minor }
  | .handle handle start =>
    if (s.handles.lookup handle).isSome then .error .malformed
    else .ok { s with handles := s.handles ++ [(handle, start)] }
  | .other => .ok s

def readDirective (s : TokenState) : Except Fault TokenState := do
  let s ← s.closeAll
  match Yaml.readDirective s.cursor with
  | some (d, cursor) => return { (← s.note d).push (.directive d) with cursor }
  | none => throw .malformed

def checkVersion (s : TokenState) : Except Fault Unit :=
  match s.minor with
  | some minor => if (Version.ofMinor? minor).isNone then .error (.version minor) else .ok ()
  | none => .ok ()

/-! ### Which token comes next -/

def isColon (s : TokenState) : Bool :=
  let apart := endsWord (s.cursor.peek 1)
  match s.enclosing, s.version with
  | _ :: _, .older => true
  | (.curly, _) :: _, .newer => s.tokens.head? != some .value || apart
  | _, _ => apart

/-- The characters that may not start a plain scalar. -/
def isIndicator (c : Char) : Bool :=
  Plain.isBracket c || isGap c || isBreak c || "-?:#&*!|>'\"%@".toList.contains c || c == '\x60'

def startsPlain (s : TokenState) (char : Char) : Bool :=
  let follows := s.cursor.peek 1
  !isIndicator char || (char == '-' && !endsWord follows)
    || (s.version == .newer && char == ':' && s.inFlow && !follows.any isGap)
    || ((char == '?' || char == ':') && !s.inFlow && !endsWord follows)

def isAtDirective (s : TokenState) : Bool := s.cursor.column = 0 && s.cursor.isAt '%'

def readToken (s : TokenState) (char : Char) : Except Fault TokenState :=
  let c := s.cursor
  let apart := endsWord (c.peek 1)
  if s.isAtDirective then s.readDirective
  else if c.column = 0 && c.isAtMarker '-' then s.readMarker .documentStart
  else if c.column = 0 && c.isAtMarker '.' then s.readMarker .documentEnd
  else if char = '[' then s.readOpening .square .flowSequenceStart
  else if char = '\x7b' then s.readOpening .curly .flowMappingStart
  else if char = ']' then s.readClosing .flowSequenceEnd
  else if char = '\x7d' then s.readClosing .flowMappingEnd
  else if char = ',' then s.readComma
  else if char = '-' && apart then s.readDash
  else if char = '?' && (s.inFlow || apart) then s.readQuestion
  else if char = ':' && s.isColon then s.readColon
  else if char = '*' then s.readNamed ((readAnchor c).map fun (n, c) => (.alias n, c))
  else if char = '&' then s.readNamed ((readAnchor c).map fun (n, c) => (.anchor n, c))
  else if char = '!' then s.readNamed ((readTag s.version s.handles c).map fun (t, c) => (.tag t, c))
  else if char = '|' && !s.inFlow then s.readBlock false
  else if char = '>' && !s.inFlow then s.readBlock true
  else if char = '\x27' || char = '"' then s.readQuoted char
  else if s.startsPlain char then s.readPlain
  else .error .malformed

/-! ### White space and comments -/

def isSpace (inFlow : Bool) (c : Char) : Bool := c == ' ' || (inFlow && c == '\t')

/-- The place after a line break, past all white space if an empty line follows. -/
def pastBreak (c : Cursor) : Cursor :=
  if c.next.isAt '\n' then c.next.skipWhile fun char => isBreak char || isGap char else c.next

/-- The place after a comment and the line breaks that follow it. -/
def pastComment (c : Cursor) : Cursor :=
  (c.next.skipWhile fun char => !endsLine (some char)).skipWhile isBreak

theorem length_pastBreak_lt {c : Cursor} {char : Char} {rest : List Char}
    (h : c.rest = char :: rest) : (pastBreak c).rest.length < c.rest.length := by
  have := Cursor.length_rest_next_lt h
  unfold pastBreak
  split
  · exact Nat.lt_of_le_of_lt (Cursor.length_rest_skipWhile_le _ _) this
  · exact this

theorem length_pastComment_lt {c : Cursor} {char : Char} {rest : List Char}
    (h : c.rest = char :: rest) : (pastComment c).rest.length < c.rest.length :=
  Nat.lt_of_le_of_lt
    (Nat.le_trans (Cursor.length_rest_skipWhile_le _ _) (Cursor.length_rest_skipWhile_le _ _))
    (Cursor.length_rest_next_lt h)

/-- Skip white space and comments; tells whether a line break was passed. -/
def skip (inFlow : Bool) (c : Cursor) : Bool × Cursor :=
  let start := c.skipWhile (isSpace inFlow)
  have hstart := c.length_rest_skipWhile_le (isSpace inFlow)
  match h : start.rest with
  | [] => (false, start)
  | char :: _ =>
    if char = '#' then
      have : (pastComment start).rest.length < c.rest.length :=
        Nat.lt_of_lt_of_le (length_pastComment_lt h) hstart
      (true, (skip inFlow (pastComment start)).2)
    else if isBreak char then
      have : (pastBreak start).rest.length < c.rest.length :=
        Nat.lt_of_lt_of_le (length_pastBreak_lt h) hstart
      (true, (skip inFlow (pastBreak start)).2)
    else (false, start)
termination_by c.rest.length

/-- Go to the next token; on a new line outside brackets a key may start. -/
def goOn (s : TokenState) : TokenState :=
  let (broken, cursor) := skip s.inFlow s.cursor
  { s with cursor, mayStartKey := s.mayStartKey || (broken && !s.inFlow) }

/-! ### All tokens -/

/-- Close what is open at the end of the text. -/
def finish (s : TokenState) : Except Fault (List Token) := do
  s.checkVersion
  return (← (s.unwind (-1)).dropKey).tokens.reverse

def readAll (s : TokenState) : Except Fault (List Token) := do
  let here ← s.goOn.dropStale
  let here := here.unwind here.cursor.column
  match here.cursor.head? with
  | none => here.finish
  | some char =>
    if !here.isAtDirective then here.checkVersion
    let after ← here.readToken char
    if after.cursor.rest.length < s.cursor.rest.length then after.readAll
    else throw .malformed
termination_by s.cursor.rest.length

end TokenState

def isAllowed (c : Char) : Bool :=
  let n := c.toNat
  c == '\t' || c == '\n' || c == '\r' || (0x20 ≤ n && n ≤ 0x7E) || n == 0x85
    || (0xA0 ≤ n && n ≤ 0xFFFD) || 0x10000 ≤ n

def tokens (text : List Char) : Except Fault (List Token) :=
  if text.all isAllowed then ({ cursor := .start text } : TokenState).readAll
  else .error .malformed

end PlotGraph.Yaml
