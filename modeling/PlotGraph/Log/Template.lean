import PlotGraph.Number.Places
import PlotGraph.Value.Text

/-!
# Message templates

A template is a text with place-holders. A place-holder is a percent sign, optionally the
name of a field in parentheses, flags, a width, a precision after a point, and the letter
of a conversion; a width or precision may be an asterisk, which takes an argument. Two
percent signs stand for one.

A template is first split into pieces (`pieces`), which needs no arguments; a place-holder
that breaks off is a piece as well. The pieces are then filled one after the other from a
supply of arguments (`fill`), so that the first fault in the text is the one that is found.
-/

namespace PlotGraph.Log.Template

/-! ### Pieces -/

inductive Key where
  | absent
  /-- The name has no closing parenthesis. -/
  | unclosed
  | named (name : String)
  deriving DecidableEq, Repr

inductive Count where
  | absent
  | given (n : Nat)
  /-- The number is past what can be counted. -/
  | excessive
  /-- An argument gives the number. -/
  | argument
  deriving DecidableEq, Repr

/-- A place-holder. One that breaks off has no conversion. -/
structure Placeholder where
  key : Key := .absent
  flags : List Char := []
  width : Count := .absent
  precision : Count := .absent
  conversion : Option Char := none
  deriving DecidableEq, Repr

inductive Piece where
  | char (c : Char)
  | placeholder (p : Placeholder)
  deriving DecidableEq, Repr

/-! ### Splitting a template -/

/-- The text up to the parenthesis that closes a name, in which others may be open, and what
follows that. -/
def splitName (depth : Nat) : List Char → Option (List Char × List Char)
  | [] => none
  | c :: cs =>
    if c = ')' && depth = 0 then some ([], cs)
    else
      let depth := if c = '(' then depth + 1 else if c = ')' then depth - 1 else depth
      (splitName depth cs).map fun (name, rest) => (c :: name, rest)

def readKey : List Char → Key × List Char
  | '(' :: cs =>
    match splitName 0 cs with
    | some (name, rest) => (.named (String.ofList name), rest)
    | none => (.unclosed, [])
  | cs => (.absent, cs)

def isFlag (c : Char) : Bool := ['-', '+', ' ', '#', '0'].contains c

def readCount (limit : Nat) : List Char → Count × List Char
  | '*' :: cs => (.argument, cs)
  | cs =>
    let ds := cs.takeWhile Char.isDigit
    let n := Decimal.valueOf (ds.map fun d => d.toNat - 48)
    (if ds.isEmpty then .absent else if n ≤ limit then .given n else .excessive,
      cs.dropWhile Char.isDigit)

def maxWidth : Nat := 1 <<< 63 - 1

def maxPrecision : Nat := 1 <<< 31 - 1

/-- Read a precision: a point, and a number that is zero if left out. -/
def readPrecision : List Char → Count × List Char
  | '.' :: cs =>
    match readCount maxPrecision cs with
    | (.absent, rest) => (.given 0, rest)
    | r => r
  | cs => (.absent, cs)

/-- Leave out a letter for a size, which means nothing. -/
def skipSize : List Char → List Char
  | 'h' :: cs | 'l' :: cs | 'L' :: cs => cs
  | cs => cs

def readPlaceholder (cs : List Char) : Placeholder × List Char :=
  let (key, cs) := readKey cs
  let flags := cs.takeWhile isFlag
  let (width, cs) := readCount maxWidth (cs.dropWhile isFlag)
  let (precision, cs) := readPrecision cs
  let cs := skipSize cs
  ({ key, flags, width, precision, conversion := cs.head? }, cs.tail)

theorem length_dropWhile_le (p : Char → Bool) (cs : List Char) :
    (cs.dropWhile p).length ≤ cs.length :=
  (List.dropWhile_sublist p).length_le

/-- What follows a name is no longer than the text. -/
theorem length_splitName_le {depth : Nat} {cs name rest : List Char}
    (h : splitName depth cs = some (name, rest)) : rest.length ≤ cs.length := by
  induction cs generalizing depth name with
  | nil => simp [splitName] at h
  | cons c cs ih =>
    rw [splitName] at h
    split at h
    · cases h
      exact Nat.le_succ _
    · obtain ⟨⟨name', rest'⟩, hs, he⟩ := Option.map_eq_some_iff.mp h
      cases he
      exact Nat.le_succ_of_le (ih hs)

theorem length_readKey_le (cs : List Char) : (readKey cs).2.length ≤ cs.length := by
  unfold readKey
  split
  · split
    · next h => exact Nat.le_succ_of_le (length_splitName_le h)
    · exact Nat.zero_le _
  · exact Nat.le_refl _

theorem length_readCount_le (limit : Nat) (cs : List Char) :
    (readCount limit cs).2.length ≤ cs.length := by
  unfold readCount
  split
  · exact Nat.le_succ _
  · exact length_dropWhile_le _ _

theorem length_readPrecision_le (cs : List Char) :
    (readPrecision cs).2.length ≤ cs.length := by
  unfold readPrecision
  split
  · next cs =>
    have h := length_readCount_le maxPrecision cs
    split
    · next rest hr => rw [hr] at h; exact Nat.le_succ_of_le h
    · exact Nat.le_succ_of_le h
  · exact Nat.le_refl _

theorem length_skipSize_le (cs : List Char) : (skipSize cs).length ≤ cs.length := by
  unfold skipSize
  split
  · exact Nat.le_succ _
  · exact Nat.le_succ _
  · exact Nat.le_succ _
  · exact Nat.le_refl _

/-- Reading a place-holder never lengthens the rest. -/
theorem length_readPlaceholder_le (cs : List Char) :
    (readPlaceholder cs).2.length ≤ cs.length := by
  have h1 := length_readKey_le cs
  have h2 := length_dropWhile_le isFlag (readKey cs).2
  have h3 := length_readCount_le maxWidth ((readKey cs).2.dropWhile isFlag)
  have h4 := length_readPrecision_le (readCount maxWidth ((readKey cs).2.dropWhile isFlag)).2
  have h5 := length_skipSize_le
    (readPrecision (readCount maxWidth ((readKey cs).2.dropWhile isFlag)).2).2
  have h6 : (readPlaceholder cs).2 = (skipSize
    (readPrecision (readCount maxWidth ((readKey cs).2.dropWhile isFlag)).2).2).tail := rfl
  rw [h6, List.length_tail]
  omega

/-- The pieces of a template. Two percent signs stand for one. -/
def pieces : List Char → List Piece
  | [] => []
  | '%' :: '%' :: cs => .char '%' :: pieces cs
  | '%' :: cs => .placeholder (readPlaceholder cs).1 :: pieces (readPlaceholder cs).2
  | c :: cs => .char c :: pieces cs
termination_by cs => cs.length
decreasing_by
  · exact Nat.lt_add_right 1 (Nat.lt_succ_self _)
  · exact Nat.lt_succ_of_le (length_readPlaceholder_le cs)
  · exact Nat.lt_succ_self _

/-! ### Arguments -/

/-- Why a template cannot be filled. -/
inductive Fault where
  /-- There are fewer arguments than place-holders. -/
  | tooFew
  /-- Arguments are left over. -/
  | tooMany
  /-- An argument is not of the kind that a place-holder asks for. -/
  | unfit
  /-- A place-holder names a field, and the arguments are not an object. -/
  | noFields
  | noField (name : String)
  /-- A place-holder breaks off. -/
  | incomplete
  | unknownConversion (c : Char)
  /-- A width or precision in the template is past what can be counted. -/
  | excessiveCount
  /-- A number is not one: it has no whole part. -/
  | notANumber
  /-- A number is past the range of its conversion. -/
  | outOfRange
  /-- The result would not fit into memory. -/
  | tooLong
  deriving DecidableEq, Repr

/-- The arguments that are left for the place-holders. -/
inductive Supply where
  /-- One after the other. -/
  | items (rest : List Value)
  /-- The fields of an object. A place-holder that names none takes what the last name has
  selected, at first the object, and only once. -/
  | fields (all : List (String × Value)) (selected : Option Value)
  deriving DecidableEq

namespace Supply

/-- A single argument that is an object with fields is not taken as one, but for its fields. -/
def ofArguments : List Value → Supply
  | [.obj (f :: fs)] => .fields (f :: fs) (some (.obj (f :: fs)))
  | args => .items args

def next : Supply → Except Fault (Value × Supply)
  | .items (v :: rest) => .ok (v, .items rest)
  | .fields all (some v) => .ok (v, .fields all none)
  | _ => .error .tooFew

def select (key : Key) (s : Supply) : Except Fault Supply :=
  match key, s with
  | .absent, s => .ok s
  | _, .items _ => .error .noFields
  | .unclosed, _ => .error .incomplete
  | .named name, .fields all _ =>
    match Pairs.lookup name all with
    | some v => .ok (.fields all (some v))
    | none => .error (.noField name)

/-- Arguments that are taken one after the other have to be used up. -/
def finish : Supply → Except Fault Unit
  | .items (_ :: _) => .error .tooMany
  | _ => .ok ()

end Supply

/-- The number that an argument gives for an asterisk; `bound` and all above it cannot be
counted, and neither can what is below its negative. -/
def countOf? (bound : Nat) : Value → Except Fault Int
  | .bool b => .ok (if b then 1 else 0)
  | .int i => if -bound ≤ i ∧ i < bound then .ok i else .error .outOfRange
  | _ => .error .unfit

/-- The number that a width or a precision stands for, if it is there. -/
def Count.resolve (count : Count) (bound : Nat) (s : Supply) :
    Except Fault (Option Int × Supply) :=
  match count with
  | .absent => .ok (none, s)
  | .given n => .ok (some n, s)
  | .excessive => .error .excessiveCount
  | .argument => do
    let (v, s) ← s.next
    return (some (← countOf? bound v), s)

/-! ### Layouts -/

/-- How the text for an argument is laid out. -/
structure Layout where
  flags : List Char := []
  width : Nat := 0
  leftAligned : Bool := false
  precision : Option Nat := none
  deriving DecidableEq, Repr

/-- The text for an argument before it is filled up to a width. -/
structure Field where
  /-- The sign of a number and the mark of its base. -/
  front : List Char := []
  body : List Char
  /-- Whether zeros may stand between the front and the body. -/
  isNumber : Bool := false
  deriving DecidableEq, Repr

def Field.upper (f : Field) : Field :=
  { f with front := f.front.map Char.toUpper, body := f.body.map Char.toUpper }

namespace Layout

/-- The width from which on a text does not fit into memory. -/
def memory : Nat := 1 <<< 30

/-- The layout of a place-holder. A negative width aligns to the left, and counts as none
if it has no positive counterpart; a negative precision is zero. -/
def ofCounts (flags : List Char) (width precision : Option Int) : Layout where
  flags := flags
  width := if (width.getD 0).natAbs ≤ maxWidth then (width.getD 0).natAbs else 0
  leftAligned := flags.contains '-' || width.any (· < 0)
  precision := precision.map Int.toNat

def text (l : Layout) (s : String) : Field where
  body :=
    match l.precision with
    | some n => s.toList.take n
    | none => s.toList

/-- A number: its sign, the mark of its base, and digits. -/
def number (l : Layout) (negative : Bool) (mark digits : List Char) : Field where
  front :=
    if negative then '-' :: mark
    else if l.flags.contains '+' then '+' :: mark
    else if l.flags.contains ' ' then ' ' :: mark
    else mark
  body := digits
  isNumber := true

/-- A field, filled up to the width with spaces, or with zeros. -/
def place (l : Layout) (f : Field) : List Char :=
  let missing := l.width - (f.front.length + f.body.length)
  if l.leftAligned then f.front ++ f.body ++ List.replicate missing ' '
  else if f.isNumber && l.flags.contains '0' then
    f.front ++ List.replicate missing '0' ++ f.body
  else List.replicate missing ' ' ++ f.front ++ f.body

end Layout

/-! ### Conversions -/

/-- A text in which everything outside of ASCII is escaped. -/
def escapedText (s : String) : String :=
  String.ofList (s.toList.flatMap fun c =>
    if c.toNat < 0x80 then [c] else Text.numericEscape (Text.codeOf c))

def wholePart : Value → Except Fault Int
  | .int i => .ok i
  | .bool b => .ok (if b then 1 else 0)
  | .float .nan => .error .notANumber
  | .float x =>
    match x.truncate? with
    | some i => .ok i
    | none => .error .outOfRange
  | _ => .error .unfit

def integer : Value → Except Fault Int
  | .int i => .ok i
  | .bool b => .ok (if b then 1 else 0)
  | _ => .error .unfit

/-- An integer in a base. The precision is the least number of digits. -/
def integerField (l : Layout) (base : Nat) (mark : List Char) (i : Int) : Field :=
  let ds := Nat.toDigits base i.natAbs
  let zeros := List.replicate (l.precision.getD 0 - ds.length) '0'
  l.number (i < 0) (if l.flags.contains '#' then mark else []) (zeros ++ ds)

def character : Value → Except Fault Char
  | .str s =>
    match s.toList with
    | [c] => .ok c
    | _ => .error .unfit
  | v => do
    let i ← integer v
    if 0 ≤ i ∧ i < 0x110000 then return Text.charOfCode i.toNat else throw .outOfRange

/-- The floating-point number that an argument is or is nearest to. -/
def floating : Value → Except Fault Binary64
  | .float x => .ok x
  | v => do
    let x := Binary64.ofInt (← integer v)
    if x.isInfinite then throw .outOfRange else return x

/-- A floating-point number, with six digits unless a precision is given. -/
def floatingField (l : Layout) (digits : Binary64.Places → Nat → List Char) : Binary64 → Field
  | .nan => l.number false [] ['n', 'a', 'n']
  | .infinite negative => l.number negative [] ['i', 'n', 'f']
  | .finite negative significand shift =>
    l.number negative [] (digits ⟨l.precision.getD 6, l.flags.contains '#'⟩
      (significand <<< shift))

def convert (l : Layout) (c : Char) (v : Value) : Except Fault Field :=
  match c with
  | 's' => .ok (l.text v.text)
  | 'r' => .ok (l.text v.shown)
  | 'a' => .ok (l.text (escapedText v.shown))
  | 'c' => do return { body := [← character v] }
  | 'd' | 'i' | 'u' => do return integerField l 10 [] (← wholePart v)
  | 'o' => do return integerField l 8 ['0', 'o'] (← integer v)
  | 'x' => do return integerField l 16 ['0', 'x'] (← integer v)
  | 'X' => do return (integerField l 16 ['0', 'x'] (← integer v)).upper
  | 'f' => do return floatingField l Binary64.fixed (← floating v)
  | 'F' => do return (floatingField l Binary64.fixed (← floating v)).upper
  | 'e' => do return floatingField l Binary64.scientific (← floating v)
  | 'E' => do return (floatingField l Binary64.scientific (← floating v)).upper
  | 'g' => do return floatingField l Binary64.general (← floating v)
  | 'G' => do return (floatingField l Binary64.general (← floating v)).upper
  | _ => .error (.unknownConversion c)

/-! ### Filling -/

/-- The text for a place-holder, and the arguments that it leaves. -/
def Placeholder.fill (p : Placeholder) (s : Supply) : Except Fault (List Char × Supply) := do
  let s ← s.select p.key
  let (width, s) ← p.width.resolve (maxWidth + 1) s
  let (precision, s) ← p.precision.resolve (maxPrecision + 1) s
  match p.conversion with
  | none => throw .incomplete
  | some c =>
    let (v, s) ← s.next
    let l := Layout.ofCounts p.flags width precision
    let field ← convert l c v
    if Layout.memory ≤ l.width then throw .tooLong else return (l.place field, s)

def fillPieces : List Piece → Supply → Except Fault (List Char)
  | [], s => do
    s.finish
    return []
  | .char c :: rest, s => do return c :: (← fillPieces rest s)
  | .placeholder p :: rest, s => do
    let (text, s) ← p.fill s
    return text ++ (← fillPieces rest s)

def fill (template : String) (args : List Value) : Except Fault String := do
  let text ← fillPieces (pieces template.toList) (.ofArguments args)
  return String.ofList text

end PlotGraph.Log.Template
