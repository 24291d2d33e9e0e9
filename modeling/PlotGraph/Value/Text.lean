import PlotGraph.Number.Shortest
import PlotGraph.Text.Quoted
import PlotGraph.Value

/-!
# Values as text

Two forms of a value: `text`, in which a string stands for itself, and `shown`, in which
a string is quoted. Inside a list or an object everything is shown.
-/

namespace PlotGraph.Value

mutual

/-- A value as it is shown in messages: strings are quoted. -/
def shown : Value → String
  | null => "None"
  | bool b => if b then "True" else "False"
  | int i => Decimal.ofInt i
  | float x => x.text
  | str s => Text.quoted s
  | arr items => "[" ++ shownItems items ++ "]"
  | obj fields => "\x7b" ++ shownFields fields ++ "\x7d"

/-- The items of a list, with a comma between two of them. -/
def shownItems : List Value → String
  | [] => ""
  | [v] => shown v
  | v :: w :: rest => shown v ++ ", " ++ shownItems (w :: rest)

/-- The fields of an object, with a comma between two of them. -/
def shownFields : List (String × Value) → String
  | [] => ""
  | [(k, v)] => Text.quoted k ++ ": " ++ shown v
  | (k, v) :: f :: rest =>
    Text.quoted k ++ ": " ++ shown v ++ ", " ++ shownFields (f :: rest)

end

mutual

/-- Whether a value can be shown: no integer in it is too long. -/
def isShowable : Value → Bool
  | int i => Decimal.isShowable i
  | arr items => areShowable items
  | obj fields => haveShowable fields
  | _ => true

def areShowable : List Value → Bool
  | [] => true
  | v :: rest => isShowable v && areShowable rest

/-- Whether the values of all fields can be shown. -/
def haveShowable : List (String × Value) → Bool
  | [] => true
  | (_, v) :: rest => isShowable v && haveShowable rest

end

/-- A value as text: a string stands for itself, all else is shown. -/
def text : Value → String
  | str s => s
  | v => shown v

end PlotGraph.Value
