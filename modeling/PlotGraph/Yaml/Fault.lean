import PlotGraph.Number.Decimal
import PlotGraph.Text.Quoted

/-!
# What can be wrong with a document

A document that breaks the rules of the format is malformed, and nothing more is said
about it. What is wrong with the value of a scalar, with a key or with the version has
words of its own.
-/

namespace PlotGraph.Yaml

/-- Why a point in time does not exist. -/
inductive TimeFault where
  | year (year : Nat)
  | month
  | day
  | hour
  | minute
  | second
  /-- The offset of a time zone is a day or more; it is given in minutes. -/
  | offset (minutes : Int)
  deriving DecidableEq, Repr

/-- A span of minutes as it is shown in messages: whole days, which may be negative, and
seconds, which are not. -/
def spanText (minutes : Int) : String :=
  let days := minutes.fdiv 1440
  let seconds := minutes.fmod 1440 * 60
  let parts :=
    (if days = 0 then [] else ["days=" ++ Decimal.ofInt days])
      ++ (if seconds = 0 then [] else ["seconds=" ++ Decimal.ofInt seconds])
  "datetime.timedelta(" ++ (if parts.isEmpty then "0" else ", ".intercalate parts) ++ ")"

/-- The words for a point in time that does not exist. -/
def TimeFault.message : TimeFault → String
  | .year y => "year " ++ Decimal.ofNat y ++ " is out of range"
  | .month => "month must be in 1..12"
  | .day => "day is out of range for month"
  | .hour => "hour must be in 0..23"
  | .minute => "minute must be in 0..59"
  | .second => "second must be in 0..59"
  | .offset minutes =>
    "offset must be a timedelta strictly between -timedelta(hours=24) and timedelta(hours=24), not "
      ++ spanText minutes ++ "."

/-- What is wrong with the value of a scalar. -/
inductive ScalarFault where
  /-- An escape is past the last character. -/
  | codePoint
  /-- An escape is past all numbers of characters. -/
  | codeNumber
  | tooManyDigits (count : Nat)
  | notAnInteger (text : String) (base : Nat)
  | notANumber (text : String)
  | noNumeral
  /-- A numeral has several exponents, or one that is not marked like the others. -/
  | exponents (several : Bool)
  | notATruthValue (word : String)
  | time (fault : TimeFault)
  deriving DecidableEq, Repr

/-- The longest part of a text that is shown where it is no integer. -/
def maxShownNumeral : Nat := 200

/-- The words for what is wrong with the value of a scalar. -/
def ScalarFault.message : ScalarFault → String
  | .codePoint => "chr() arg not in range(0x110000)"
  | .codeNumber => "Python int too large to convert to C int"
  | .tooManyDigits count => Decimal.tooManyDigitsMessage count
  | .notAnInteger text base =>
    "invalid literal for int() with base " ++ Decimal.ofNat base ++ ": "
      ++ String.ofList ((Text.quotedChars text.toList).take maxShownNumeral)
  | .notANumber text => "could not convert string to float: " ++ Text.quoted text
  | .noNumeral => "string index out of range"
  | .exponents false => "not enough values to unpack (expected 2, got 1)"
  | .exponents true => "too many values to unpack (expected 2)"
  | .notATruthValue word => Text.quoted word
  | .time fault => fault.message

/-- What is wrong with the contents of a collection. -/
inductive ContentFault where
  /-- A key holds a collection of a kind. -/
  | unhashable (kind : String)
  /-- A list of pairs is a key. -/
  | pairsAsKey
  /-- A key stands twice in an ordered mapping. -/
  | repeatedKey
  /-- A scalar is said to be a collection. -/
  | scalarAsCollection
  /-- Something of a kind is to be taken in that is no mapping. -/
  | merged (kind : String)
  /-- An integer is too long to be shown. -/
  | unshowable
  deriving DecidableEq, Repr

/-- The words for what is wrong with the contents of a collection. -/
def ContentFault.message : ContentFault → String
  | .unhashable kind => "unhashable type: " ++ Text.quoted kind
  | .pairsAsKey => "'list' object has no attribute 'lc'"
  | .repeatedKey => ""
  | .scalarAsCollection => "'ScalarNode' object has no attribute 'flow_style'"
  | .merged kind => Text.quoted kind ++ " object has no attribute 'add_referent'"
  | .unshowable => Decimal.unshowableMessage

/-- Why a document cannot be read. -/
inductive Fault where
  | malformed
  /-- The document asks for a version that is not known. -/
  | version (minor : Nat)
  | scalar (fault : ScalarFault)
  | content (fault : ContentFault)
  deriving DecidableEq, Repr

/-- The words for a document that cannot be read; none where it is just malformed. -/
def Fault.message? : Fault → Option String
  | .malformed => none
  | .version minor =>
    some ("version minor part can only be 2 or 1, got (1, " ++ Decimal.ofNat minor ++ ")")
  | .scalar fault => some fault.message
  | .content fault => some fault.message

end PlotGraph.Yaml
