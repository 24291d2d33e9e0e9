import PlotGraph.Number.Shortest
import PlotGraph.Text.Quoted
import PlotGraph.Value

/-!
# Writing JSON

Two layouts of a document: `line`, on one line and in ASCII only, for logs; and `pretty`,
indented by two spaces a level and with all characters that need no escape left as they
are, for reports.
-/

namespace PlotGraph.Json

/-! ### Strings and numbers -/

/-- The letter that a backslash escapes a character with, if it has one. -/
def escapeLetter? : Char → Option Char
  | '"' => some '"'
  | '\\' => some '\\'
  | '\n' => some 'n'
  | '\r' => some 'r'
  | '\t' => some 't'
  | '\x08' => some 'b'
  | '\x0c' => some 'f'
  | _ => none

def unitEscape (unit : Nat) : List Char := '\\' :: 'u' :: Text.hex 4 unit

/-- The escapes for a character: one code unit, or a surrogate pair. -/
def codeEscape (c : Char) : List Char :=
  let code := Text.codeOf c
  if code < 0x10000 then unitEscape code
  else
    let offset := code - 0x10000
    unitEscape (0xD800 + offset / 0x400) ++ unitEscape (0xDC00 + offset % 0x400)

/-- A character inside a string; with `ascii` all others than the printable ones of ASCII
are escaped. -/
def stringChar (ascii : Bool) (c : Char) : List Char :=
  match escapeLetter? c with
  | some letter => ['\\', letter]
  | none =>
    if c.toNat < 0x20 || (ascii && 0x7F ≤ c.toNat) then codeEscape c else [c]

def quote (ascii : Bool) (s : String) : String :=
  String.ofList ('"' :: s.toList.flatMap (stringChar ascii) ++ ['"'])

/-- A floating-point number; what is not finite is a word. -/
def floatText : Binary64 → String
  | .nan => "NaN"
  | .infinite negative => if negative then "-Infinity" else "Infinity"
  | x => x.text

/-- A value that is neither a list nor an object. -/
def scalarText (ascii : Bool) : Value → String
  | .null => "null"
  | .bool b => if b then "true" else "false"
  | .int i => Decimal.ofInt i
  | .float x => floatText x
  | .str s => quote ascii s
  | .arr _ => "[]"
  | .obj _ => "\x7b\x7d"

/-! ### On one line -/

mutual

def line : Value → String
  | .arr items => "[" ++ lineItems items ++ "]"
  | .obj fields => "\x7b" ++ lineFields fields ++ "\x7d"
  | v => scalarText true v

def lineItems : List Value → String
  | [] => ""
  | [v] => line v
  | v :: w :: rest => line v ++ ", " ++ lineItems (w :: rest)

def lineFields : List (String × Value) → String
  | [] => ""
  | [(k, v)] => quote true k ++ ": " ++ line v
  | (k, v) :: f :: rest => quote true k ++ ": " ++ line v ++ ", " ++ lineFields (f :: rest)

end

/-! ### On several lines -/

def newLine (level : Nat) : String := String.ofList ('\n' :: List.replicate (2 * level) ' ')

mutual

def prettyAt (level : Nat) : Value → String
  | .arr [] => "[]"
  | .arr (v :: rest) => "[" ++ prettyItems (level + 1) (v :: rest) ++ newLine level ++ "]"
  | .obj [] => "\x7b\x7d"
  | .obj (f :: rest) =>
    "\x7b" ++ prettyFields (level + 1) (f :: rest) ++ newLine level ++ "\x7d"
  | v => scalarText false v

def prettyItems (level : Nat) : List Value → String
  | [] => ""
  | [v] => newLine level ++ prettyAt level v
  | v :: w :: rest => newLine level ++ prettyAt level v ++ "," ++ prettyItems level (w :: rest)

/-- The fields of an object, each on lines of its own. -/
def prettyFields (level : Nat) : List (String × Value) → String
  | [] => ""
  | [(k, v)] => newLine level ++ quote false k ++ ": " ++ prettyAt level v
  | (k, v) :: f :: rest =>
    newLine level ++ quote false k ++ ": " ++ prettyAt level v ++ ","
      ++ prettyFields level (f :: rest)

end

def pretty (v : Value) : String := prettyAt 0 v

end PlotGraph.Json
