import PlotGraph.Number.Binary64
import PlotGraph.Text.Surrogate
import PlotGraph.Value

/-!
# Reading JSON

A document is read from the list of its characters. Every reader returns what it read
together with the characters that follow, which are fewer than it was given; that is what
ends the recursion. A fault remembers how many characters were left where it was found,
and `parse` turns this into a line, a column and an offset.

Besides the standard the words `NaN`, `Infinity` and `-Infinity` are numbers. A whole
number has no point and no exponent; all others are floating-point numbers. A code escape
may be one half of a surrogate pair without the other half. Of fields with the same name
the last value counts, at the first place.
-/

namespace PlotGraph.Json

/-! ### What can be wrong -/

/-- What a document lacks or holds too much of. -/
inductive Problem where
  | value
  | extraData
  | fieldName
  | colon
  | comma
  | unterminatedString
  | controlCharacter
  | escape
  | codeEscape
  | byteOrderMark
  deriving DecidableEq, Repr

/-- Why reading stopped, and how many characters were left there. -/
inductive Fault where
  | malformed (problem : Problem) (remaining : Nat)
  | tooManyDigits (count : Nat)
  deriving DecidableEq, Repr

/-- The characters after something that was read from `cs`. -/
abbrev Rest (cs : List Char) := { r : List Char // r.length < cs.length }

/-- What follows a part of `cs` that may be empty. -/
abbrev Tail (cs : List Char) := { r : List Char // r.length ≤ cs.length }

/-! ### White space -/

/-- The four characters that may stand between tokens. -/
def isBlank (c : Char) : Bool := c == ' ' || c == '\t' || c == '\n' || c == '\r'

def skipBlank (cs : List Char) : List Char := cs.dropWhile isBlank

theorem length_dropWhile_le (p : Char → Bool) (cs : List Char) :
    (cs.dropWhile p).length ≤ cs.length :=
  (List.dropWhile_sublist p).length_le

theorem length_skipBlank_le (cs : List Char) : (skipBlank cs).length ≤ cs.length :=
  length_dropWhile_le isBlank cs

theorem length_lt_of_skipBlank {cs r : List Char} {c : Char} (h : skipBlank cs = c :: r) :
    r.length < cs.length := by
  have := length_skipBlank_le cs
  rw [h, List.length_cons] at this
  omega

/-! ### Strings -/

def hexValue? (c : Char) : Option Nat :=
  if '0' ≤ c && c ≤ '9' then some (c.toNat - 48)
  else if 'a' ≤ c && c ≤ 'f' then some (c.toNat - 87)
  else if 'A' ≤ c && c ≤ 'F' then some (c.toNat - 55)
  else none

/-- The code unit that four hexadecimal digits denote; they must not end the document. -/
def codeUnit? : (cs : List Char) → Option (Nat × Rest cs)
  | a :: b :: c :: d :: e :: rest => do
    let unit := ((← hexValue? a) * 16 + (← hexValue? b)) * 256
      + (← hexValue? c) * 16 + (← hexValue? d)
    return (unit, ⟨e :: rest, by simp⟩)
  | _ => none

/-- The second half of a surrogate pair, as a code escape of its own. -/
def lowHalf? : (cs : List Char) → Option (Nat × Rest cs)
  | '\\' :: 'u' :: cs =>
    match codeUnit? cs with
    | some (unit, ⟨rest, h⟩) =>
      if 0xDC00 ≤ unit && unit ≤ 0xDFFF then some (unit, ⟨rest, by simp; omega⟩) else none
    | none => none
  | _ => none

/-- The character that the digits after `\u` denote, with its other half where it has one. -/
def codeEscape? (cs : List Char) : Option (Char × Rest cs) :=
  match codeUnit? cs with
  | none => none
  | some (unit, ⟨rest, h⟩) =>
    if 0xD800 ≤ unit && unit ≤ 0xDBFF then
      match lowHalf? rest with
      | some (low, ⟨rest', h'⟩) =>
        some (Char.ofNat (0x10000 + (unit - 0xD800) * 0x400 + (low - 0xDC00)), ⟨rest', by omega⟩)
      | none => some (Text.charOfCode unit, ⟨rest, h⟩)
    else some (Text.charOfCode unit, ⟨rest, h⟩)

def letterEscape? : Char → Option Char
  | '"' => some '"'
  | '\\' => some '\\'
  | '/' => some '/'
  | 'b' => some '\x08'
  | 'f' => some '\x0c'
  | 'n' => some '\n'
  | 'r' => some '\r'
  | 't' => some '\t'
  | _ => none

/-- The characters up to the closing quote; `opening` is what was left at the opening one. -/
def stringBody (opening : List Char) : (cs : List Char) → Except Fault (List Char × Rest cs)
  | [] => .error (.malformed .unterminatedString opening.length)
  | '"' :: rest => .ok ([], ⟨rest, by simp⟩)
  | ['\\'] => .error (.malformed .unterminatedString opening.length)
  | '\\' :: 'u' :: rest =>
    match codeEscape? rest with
    | none => .error (.malformed .codeEscape (rest.length + 1))
    | some (c, ⟨after, h⟩) => do
      let (tail, ⟨r, h'⟩) ← stringBody opening after
      return (c :: tail, ⟨r, by simp; omega⟩)
  | '\\' :: e :: rest =>
    match letterEscape? e with
    | none => .error (.malformed .escape (rest.length + 2))
    | some c => do
      let (tail, ⟨r, h'⟩) ← stringBody opening rest
      return (c :: tail, ⟨r, by simp; omega⟩)
  | c :: rest =>
    if c.toNat < 0x20 then .error (.malformed .controlCharacter (rest.length + 1))
    else do
      let (tail, ⟨r, h'⟩) ← stringBody opening rest
      return (c :: tail, ⟨r, by simp; omega⟩)
termination_by cs => cs.length

/-- The string whose opening quote has just been read. -/
def string (cs : List Char) : Except Fault (String × Rest cs) := do
  let (body, rest) ← stringBody ('"' :: cs) cs
  return (String.ofList body, rest)

/-! ### Numbers -/

def isDigit (c : Char) : Bool := '0' ≤ c && c ≤ '9'

def digitsValue (ds : List Char) : Nat := Decimal.valueOf (ds.map fun c => c.toNat - 48)

/-- The digits before the point: a lone zero, or a run that starts with another digit. -/
def wholeDigits? : (cs : List Char) → Option (List Char × Rest cs)
  | [] => none
  | c :: rest =>
    if c = '0' then some (['0'], ⟨rest, by simp⟩)
    else if isDigit c then
      some (c :: rest.takeWhile isDigit,
        ⟨rest.dropWhile isDigit, Nat.lt_succ_of_le (length_dropWhile_le ..)⟩)
    else none

/-- The digits after a point, if a point with a digit follows. -/
def fractionDigits : (cs : List Char) → Option (List Char) × Tail cs
  | '.' :: d :: rest =>
    if isDigit d then
      (some (d :: rest.takeWhile isDigit),
        ⟨rest.dropWhile isDigit, by have := length_dropWhile_le isDigit rest; simp; omega⟩)
    else (none, ⟨'.' :: d :: rest, Nat.le_refl _⟩)
  | cs => (none, ⟨cs, Nat.le_refl _⟩)

def signOf : (cs : List Char) → Bool × Tail cs
  | '-' :: rest => (true, ⟨rest, by simp⟩)
  | '+' :: rest => (false, ⟨rest, by simp⟩)
  | cs => (false, ⟨cs, Nat.le_refl _⟩)

/-- The exponent, if the letter for it with at least one digit follows. -/
def exponentOf : (cs : List Char) → Option Int × Tail cs
  | [] => (none, ⟨[], Nat.le_refl _⟩)
  | e :: rest =>
    let (negative, ⟨body, hb⟩) := signOf rest
    let ds := body.takeWhile isDigit
    if (e == 'e' || e == 'E') && !ds.isEmpty then
      let n : Int := digitsValue ds
      (some (if negative then -n else n),
        ⟨body.dropWhile isDigit, by have := length_dropWhile_le isDigit body; simp; omega⟩)
    else (none, ⟨e :: rest, Nat.le_refl _⟩)

/-- The number that the parts of a numeral denote. -/
def numberOf (negative : Bool) (whole : List Char) :
    Option (List Char) → Option Int → Except Fault Value
  | none, none =>
    if Decimal.maxDigits < whole.length then .error (.tooManyDigits whole.length)
    else
      let n : Int := digitsValue whole
      .ok (.int (if negative then -n else n))
  | fraction, exponent =>
    let places := fraction.getD []
    .ok (.float (.ofScientific negative (digitsValue (whole ++ places))
      (exponent.getD 0 - places.length)))

/-- A number after its sign, if one is there; `start` is what was left before the sign. -/
def number (start : List Char) (negative : Bool) (cs : List Char) :
    Except Fault (Value × Rest cs) :=
  match wholeDigits? cs with
  | none => .error (.malformed .value start.length)
  | some (whole, ⟨r₁, h₁⟩) =>
    let (fraction, ⟨r₂, h₂⟩) := fractionDigits r₁
    let (exponent, ⟨r₃, h₃⟩) := exponentOf r₂
    (numberOf negative whole fraction exponent).map fun v => (v, ⟨r₃, by omega⟩)

/-! ### Values -/

def word? : (cs : List Char) → Option (Value × Rest cs)
  | 'n' :: 'u' :: 'l' :: 'l' :: rest =>
    some (.null, ⟨rest, by simp only [List.length_cons]; omega⟩)
  | 't' :: 'r' :: 'u' :: 'e' :: rest =>
    some (.bool true, ⟨rest, by simp only [List.length_cons]; omega⟩)
  | 'f' :: 'a' :: 'l' :: 's' :: 'e' :: rest =>
    some (.bool false, ⟨rest, by simp only [List.length_cons]; omega⟩)
  | 'N' :: 'a' :: 'N' :: rest =>
    some (.float .nan, ⟨rest, by simp only [List.length_cons]; omega⟩)
  | 'I' :: 'n' :: 'f' :: 'i' :: 'n' :: 'i' :: 't' :: 'y' :: rest =>
    some (.float (.infinite false), ⟨rest, by simp only [List.length_cons]; omega⟩)
  | '-' :: 'I' :: 'n' :: 'f' :: 'i' :: 'n' :: 'i' :: 't' :: 'y' :: rest =>
    some (.float (.infinite true), ⟨rest, by simp only [List.length_cons]; omega⟩)
  | _ => none

def scalar (cs : List Char) : Except Fault (Value × Rest cs) :=
  match word? cs with
  | some hit => .ok hit
  | none =>
    match cs with
    | '"' :: rest => do
      let (s, ⟨r, h⟩) ← string rest
      return (.str s, ⟨r, by simp; omega⟩)
    | '-' :: rest => do
      let (v, ⟨r, h⟩) ← number ('-' :: rest) true rest
      return (v, ⟨r, by simp; omega⟩)
    | cs => number cs false cs

mutual

def value (cs : List Char) : Except Fault (Value × Rest cs) :=
  match cs with
  | '[' :: rest =>
    match h : skipBlank rest with
    | ']' :: r => .ok (.arr [], ⟨r, by have := length_lt_of_skipBlank h; simp; omega⟩)
    | start => do
      let (vs, ⟨r, hr⟩) ← items start
      return (.arr vs, ⟨r, by have := length_skipBlank_le rest; rw [h] at this; simp; omega⟩)
  | '{' :: rest =>
    match h : skipBlank rest with
    | '}' :: r => .ok (.obj [], ⟨r, by have := length_lt_of_skipBlank h; simp; omega⟩)
    | start => do
      let (fs, ⟨r, hr⟩) ← fields start
      return (.obj (fs.foldl (fun ps f => Pairs.put f.1 f.2 ps) []),
        ⟨r, by have := length_skipBlank_le rest; rw [h] at this; simp; omega⟩)
  | cs => scalar cs
termination_by 2 * cs.length
decreasing_by
  all_goals
    have := length_skipBlank_le rest
    rw [h] at this
    simp only [List.length_cons]
    omega

/-- The items of a list from the first one on, up to its end. -/
def items (cs : List Char) : Except Fault (List Value × Rest cs) := do
  let (v, ⟨after, ha⟩) ← value cs
  match h : skipBlank after with
  | ']' :: r => return ([v], ⟨r, by have := length_lt_of_skipBlank h; omega⟩)
  | ',' :: r =>
    let (vs, ⟨r', h'⟩) ← items (skipBlank r)
    return (v :: vs, ⟨r', by
      have := length_lt_of_skipBlank h
      have := length_skipBlank_le r
      omega⟩)
  | other => .error (.malformed .comma other.length)
termination_by 2 * cs.length + 1
decreasing_by
  · omega
  · have := length_lt_of_skipBlank h
    have := length_skipBlank_le r
    omega

/-- The fields of an object from the first name on, up to its end. -/
def fields (cs : List Char) : Except Fault (List (String × Value) × Rest cs) :=
  match cs with
  | '"' :: rest => do
    let (name, ⟨afterName, hn⟩) ← string rest
    match hc : skipBlank afterName with
    | ':' :: r =>
      let (v, ⟨after, ha⟩) ← value (skipBlank r)
      match h : skipBlank after with
      | '}' :: r' =>
        return ([(name, v)], ⟨r', by
          have := length_lt_of_skipBlank hc
          have := length_skipBlank_le r
          have := length_lt_of_skipBlank h
          simp
          omega⟩)
      | ',' :: r' =>
        let (fs, ⟨r'', h''⟩) ← fields (skipBlank r')
        return ((name, v) :: fs, ⟨r'', by
          have := length_lt_of_skipBlank hc
          have := length_skipBlank_le r
          have := length_lt_of_skipBlank h
          have := length_skipBlank_le r'
          simp
          omega⟩)
      | other => .error (.malformed .comma other.length)
    | other => .error (.malformed .colon other.length)
  | cs => .error (.malformed .fieldName cs.length)
termination_by 2 * cs.length + 1
decreasing_by
  · have := length_lt_of_skipBlank hc
    have := length_skipBlank_le r
    simp only [List.length_cons]
    omega
  · have := length_lt_of_skipBlank hc
    have := length_skipBlank_le r
    have := length_lt_of_skipBlank h
    have := length_skipBlank_le r'
    simp only [List.length_cons]
    omega

end

/-! ### Documents -/

/-- The byte order mark, which may not start a document. -/
def byteOrderMark : Char := Char.ofNat 0xFEFF

def document (cs : List Char) : Except Fault Value := do
  if cs.head? == some byteOrderMark then throw (.malformed .byteOrderMark cs.length)
  let (v, ⟨rest, _⟩) ← value (skipBlank cs)
  match skipBlank rest with
  | [] => return v
  | other => throw (.malformed .extraData other.length)

/-- A place in a document: its line and column, counted from one, and its offset. -/
structure Place where
  line : Nat
  column : Nat
  offset : Nat
  deriving DecidableEq, Repr

def Place.after (before : List Char) : Place where
  line := before.count '\n' + 1
  column := (before.reverse.takeWhile (· != '\n')).length + 1
  offset := before.length

/-- Why a document cannot be read. -/
inductive ReadError where
  | malformed (problem : Problem) (place : Place)
  | tooManyDigits (count : Nat)
  deriving DecidableEq, Repr

def Fault.locate (cs : List Char) : Fault → ReadError
  | .malformed problem remaining =>
    .malformed problem (.after (cs.take (cs.length - remaining)))
  | .tooManyDigits count => .tooManyDigits count

def parse (cs : List Char) : Except ReadError Value :=
  (document cs).mapError (·.locate cs)

def Problem.message : Problem → String
  | .value => "Expecting value"
  | .extraData => "Extra data"
  | .fieldName => "Expecting property name enclosed in double quotes"
  | .colon => "Expecting ':' delimiter"
  | .comma => "Expecting ',' delimiter"
  | .unterminatedString => "Unterminated string starting at"
  | .controlCharacter => "Invalid control character at"
  | .escape => "Invalid \\escape"
  | .codeEscape => "Invalid \\uXXXX escape"
  | .byteOrderMark => "Unexpected UTF-8 BOM (decode using utf-8-sig)"

/-- A place as it stands after the words for a problem. -/
def Place.message (p : Place) : String :=
  "line " ++ Decimal.ofNat p.line ++ " column " ++ Decimal.ofNat p.column
    ++ " (char " ++ Decimal.ofNat p.offset ++ ")"

def ReadError.message : ReadError → String
  | .malformed problem place => problem.message ++ ": " ++ place.message
  | .tooManyDigits count => Decimal.tooManyDigitsMessage count

end PlotGraph.Json
