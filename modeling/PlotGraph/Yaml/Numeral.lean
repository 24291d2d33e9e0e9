import PlotGraph.Json.Reader
import PlotGraph.Yaml.Fault
import PlotGraph.Yaml.Format

/-!
# Numerals

Integers stand in base ten, or after a mark in base two, eight or sixteen; other numbers
have a point or an exponent. Underscores do not count. In the older version a leading zero
marks base eight, and parts between colons count in sixties.

`looksInteger` and `looksNumber` say which texts are numerals without being called so;
`integer` and `number` read what is said to be one.
-/

namespace PlotGraph

/-! ### Arithmetic -/

namespace Binary64

def negate : Binary64 → Binary64
  | finite negative significand shift => finite (!negative) significand shift
  | infinite negative => infinite (!negative)
  | nan => nan

def ofQuotient (num : Int) (den : Nat) : Binary64 := ofRatio (num < 0) num.natAbs den

/-- The exact value of a finite number in units of `2 ^ -1074`. -/
def exact (negative : Bool) (significand shift : Nat) : Int :=
  if negative then -((significand <<< shift : Nat) : Int) else (significand <<< shift : Nat)

def add : Binary64 → Binary64 → Binary64
  | finite n s k, finite n' s' k' =>
    if s = 0 && s' = 0 then finite (n && n') 0 0
    else ofQuotient (exact n s k + exact n' s' k') unitsPerOne
  | infinite a, infinite b => if a = b then infinite a else nan
  | infinite a, finite .. | finite .., infinite a => infinite a
  | nan, _ | _, nan => nan

/-- The product with a positive integer, rounded. -/
def timesNat (x : Binary64) (n : Nat) : Binary64 :=
  match x with
  | finite negative s k => ofRatio negative ((s <<< k) * n) unitsPerOne
  | x => x

end Binary64

namespace Yaml.Numeral

/-! ### Parts of a text -/

def signed : List Char → Bool × List Char
  | '-' :: rest => (true, rest)
  | '+' :: rest => (false, rest)
  | cs => (false, cs)

/-- Whether digits to a base make up a text, with underscores anywhere among them. -/
def isRun (base : Nat) (cs : List Char) : Bool :=
  !cs.isEmpty && cs.all fun c => c == '_' || (Json.hexValue? c).any (· < base)

def colonParts (cs : List Char) : List (List Char) := cs.splitOn ':'

/-- Whether a text is a count in sixties after its first part: one or two digits, with the
first of two below six. -/
def isSixtieth : List Char → Bool
  | [c] => c.isDigit
  | [c, d] => '0' ≤ c && c ≤ '5' && d.isDigit
  | _ => false

/-! ### Integers -/

/-- Whether a text without a sign looks like an integer of the older version. -/
def looksOlderInteger : List Char → Bool
  | '0' :: 'b' :: rest => isRun 2 rest
  | '0' :: 'x' :: rest => isRun 16 rest
  | cs =>
    isRun 8 cs ||
      match colonParts cs with
      | first :: sixtieths =>
        isRun 10 first && (first.head?.any fun c => '1' ≤ c && c ≤ '9')
          && sixtieths.all isSixtieth
      | [] => false

/-- Whether a text without a sign looks like an integer of the newer version. -/
def looksNewerInteger : List Char → Bool
  | '0' :: 'b' :: rest => isRun 2 rest
  | '0' :: 'o' :: rest => isRun 8 rest
  | '0' :: 'x' :: rest => isRun 16 rest
  | cs => isRun 10 cs

def looksInteger (v : Version) (cs : List Char) : Bool :=
  cs.head? != some '_' &&
    match v with
    | .older => looksOlderInteger (signed cs).2
    | .newer => looksNewerInteger (signed cs).2

/-- The value of a digit of any script, or of a letter that is a hexadecimal digit. -/
def digitValue? (c : Char) : Option Nat := (Text.digitValue? c).or (Json.hexValue? c)

/-- The number that digits to a base denote. -/
def valueTo (base : Nat) (ds : List Nat) : Nat := ds.foldl (fun n d => base * n + d) 0

/-- The values of the digits to a base at the start of a text. -/
def leadingDigits (base : Nat) : List Char → List Nat
  | [] => []
  | c :: rest =>
    match digitValue? c with
    | some d => if d < base then d :: leadingDigits base rest else []
    | none => []

/-- A text without the mark of a base, where it is the mark of this one. -/
def dropMark (base : Nat) (cs : List Char) : List Char :=
  let marks := if base = 16 then ['x', 'X'] else if base = 8 then ['o', 'O']
    else if base = 2 then ['b', 'B'] else []
  match cs with
  | '0' :: c :: rest => if marks.contains c then rest else cs
  | _ => cs

/-- The integer that a text denotes to a base: white space may stand around it, and a sign
and the mark of the base before the digits. The number of digits is limited in base ten. -/
def integerTo (base : Nat) (cs : List Char) : Except ScalarFault Int :=
  let (negative, body) := signed (Text.trimBoth Text.isNumeralBlank cs)
  let body := dropMark base body
  let ds := leadingDigits base body
  if base = 10 && Decimal.maxDigits < ds.length then .error (.tooManyDigits ds.length)
  else if ds.isEmpty || ds.length < body.length then
    .error (.notAnInteger (String.ofList cs) base)
  else .ok (if negative then -(valueTo base ds : Int) else valueTo base ds)

def marked (v : Version) (base : Nat) (cs : List Char) : Except ScalarFault Int :=
  if cs.isEmpty && v == .newer then .error .noNumeral else integerTo base cs

/-- The integer that a text without a sign denotes. -/
def unsigned (v : Version) (cs : List Char) : Except ScalarFault Int :=
  match cs with
  | [] => .error .noNumeral
  | ['0'] => .ok 0
  | '0' :: 'b' :: ds => marked v 2 ds
  | '0' :: 'x' :: ds => marked v 16 ds
  | '0' :: 'o' :: ds => marked v 8 ds
  | c :: _ =>
    if v = .older && c = '0' then integerTo 8 cs
    else if v = .older && cs.contains ':' then do
      let parts ← (colonParts cs).mapM (integerTo 10)
      return parts.foldl (fun n part => 60 * n + part) 0
    else integerTo 10 cs

def integer (v : Version) (text : List Char) : Except ScalarFault Int := do
  let (negative, body) := signed (text.filter (· != '_'))
  let i ← unsigned v body
  return if negative then -i else i

/-! ### Numbers with a point or an exponent -/

/-- The parts of a numeral: the digits before and after the point, whether there is a
point, and the sign and the digits of the exponent. -/
structure Parts where
  whole : List Char
  hasPoint : Bool
  fraction : List Char
  exponent : Option (Option Char × List Char)

/-- The digits and underscores at the start of a text, and what follows them. -/
def digitsAt (cs : List Char) : List Char × List Char :=
  cs.span fun c => c.isDigit || c == '_'

/-- The exponent that makes up a text; none if it is not one. -/
def exponentOf : List Char → Option (Option (Option Char × List Char))
  | [] => some none
  | e :: rest =>
    let (sign, ds) := match rest with
      | '+' :: ds => (some '+', ds)
      | '-' :: ds => (some '-', ds)
      | ds => (none, ds)
    if (e == 'e' || e == 'E') && !ds.isEmpty && ds.all Char.isDigit then some (some (sign, ds))
    else none

def partsOf (cs : List Char) : Option Parts := do
  let (whole, rest) := digitsAt cs
  let (hasPoint, fraction, rest) := match rest with
    | '.' :: rest => let (fraction, rest) := digitsAt rest; (true, fraction, rest)
    | rest => (false, [], rest)
  return ⟨whole, hasPoint, fraction, ← exponentOf rest⟩

/-- Whether the parts make up a numeral that needs no tag: it has a point or an exponent; it
starts with a digit, or with a point and then its exponent has a sign. -/
def Parts.isPlain (p : Parts) : Bool :=
  match p.whole with
  | [] => p.hasPoint && !p.fraction.isEmpty && p.exponent.all fun e => e.1.isSome
  | c :: _ => c != '_' && (p.hasPoint || p.exponent.isSome)

def asciiValue (ds : List Char) : Nat := Decimal.valueOf (ds.map fun c => c.toNat - 48)

/-- The number that the parts denote, if there is a digit and there are no underscores. -/
def Parts.number? (p : Parts) : Option Binary64 :=
  let exponent : Int := match p.exponent with
    | none => 0
    | some (sign, ds) => if sign = some '-' then -asciiValue ds else asciiValue ds
  let ds := p.whole ++ p.fraction
  if ds.isEmpty || ds.contains '_' then none
  else some (.ofScientific false (asciiValue ds) (exponent - p.fraction.length))

def infinityWord : String := ".inf"

/-- The word for what is no number, in lower case. -/
def nanWord : String := ".nan"

def lower (cs : List Char) : List Char := cs.map Char.toLower

/-- Whether a word is written in lower case, in upper case, or in the given mixture. -/
def isSpelled (word mixed : String) (cs : List Char) : Bool :=
  let s := String.ofList cs
  s == word || s == mixed || s == String.ofList (word.toList.map Char.toUpper)

/-- Whether a text without a sign counts in sixties and ends with a fraction. -/
def looksSixties (cs : List Char) : Bool :=
  let (body, fraction) := cs.span (· != '.')
  match colonParts body with
  | first :: sixtieths =>
    isRun 10 first && first.head? != some '_' && !sixtieths.isEmpty && sixtieths.all isSixtieth
      && !fraction.isEmpty && (fraction.drop 1).all fun c => c.isDigit || c == '_'
  | [] => false

/-- Whether a text looks like a number with a point or an exponent. In the older version a
numeral that starts with a point has no sign. -/
def looksNumber (v : Version) (cs : List Char) : Bool :=
  let body := (signed cs).2
  let isBare := v == .older && body.head? == some '.' && body.length < cs.length
  (((partsOf body).map (·.isPlain)).getD false && !isBare)
    || (v == .older && looksSixties body)
    || isSpelled infinityWord ".Inf" body || isSpelled nanWord ".NaN" cs

/-- A character as it counts in a numeral: a digit of any script is an ASCII digit. -/
def plainDigit (c : Char) : Char :=
  match Text.digitValue? c with
  | some d => Decimal.digitChar d
  | none => c

/-- The number that a text in lower case denotes: white space may stand around it, and a
sign before it. -/
def decimal (cs : List Char) : Except ScalarFault Binary64 :=
  let (negative, body) := signed ((Text.trimBoth Text.isNumeralBlank cs).map plainDigit)
  let found : Option Binary64 :=
    if ["inf", "infinity"].contains (String.ofList body) then some (.infinite false)
    else if body = "nan".toList then some .nan
    else (partsOf body).bind (·.number?)
  match found with
  | some x => .ok (if negative then x.negate else x)
  | none => .error (.notANumber (String.ofList cs))

/-- Add up parts that count in sixties, the last one first. -/
def sixties (weight : Nat) (total : Binary64) : List Binary64 → Binary64
  | [] => total
  | x :: rest => sixties (60 * weight) (total.add (x.timesNat weight)) rest

/-- Refuse a numeral with an exponent that is not marked once, or has nothing after its
mark. -/
def checkExponent (text : List Char) : Except ScalarFault Unit := do
  let mark ←
    if text.count 'e' = 1 then pure 'e'
    else if text.count 'E' = 1 then pure 'E'
    else throw (.exponents (1 < text.count 'E'))
  if text.getLast? = some mark then throw .noNumeral

def number (v : Version) (text : List Char) : Except ScalarFault Binary64 := do
  let plain := lower (text.filter (· != '_'))
  if plain.isEmpty then throw .noNumeral
  let (negative, body) := signed plain
  let x ←
    if body = infinityWord.toList then pure (.infinite false)
    else if body = nanWord.toList then pure .nan
    else if v = .older && body.contains ':' then do
      let parts ← (colonParts body).mapM decimal
      pure (sixties 1 (.finite false 0 0) parts.reverse)
    else do
      if body.contains 'e' then checkExponent text
      decimal body
  return if negative then x.negate else x

end Yaml.Numeral
end PlotGraph
