import PlotGraph.Text.Octets
import PlotGraph.Value.Text
import PlotGraph.Yaml.Format
import PlotGraph.Yaml.Moment
import PlotGraph.Yaml.Tag

/-!
# Data of a document

What a document holds once its scalars have been given their values: what JSON knows, and
besides that points in time, octets, sets, keys of any kind, and scalars of kinds that are
not known here.

A list or a mapping that is a key cannot be changed any more and is shown in a form of its
own: `tuple` and `keyMapping`.
-/

namespace PlotGraph

/-! ### Exact numbers -/

/-- The number of units of `2 ^ -1074` that a finite number is made of. -/
def Binary64.units? : Binary64 → Option Int
  | .finite negative significand shift =>
    let units : Int := (significand <<< shift : Nat)
    some (if negative then -units else units)
  | _ => none

namespace Yaml

/-- A scalar of a kind that is not known: its text, how it is written, the name of its tag,
and the place of its anchor, if it has one. -/
structure TaggedScalar where
  text : String
  style : Style
  tag : String
  anchor : Option Nat := none
  deriving DecidableEq, Repr

def TaggedScalar.shown (s : TaggedScalar) : String :=
  let style := match s.style.indicator? with
    | some c => Text.quoted (String.ofList [c])
    | none => "None"
  "TaggedScalar(value=" ++ Text.quoted s.text ++ ", style=" ++ style ++ ", tag=Tag("
    ++ Text.quoted s.tag ++ "))"

/-- What a document holds. -/
inductive Datum where
  | null
  | bool (b : Bool)
  | int (i : Int)
  | float (x : Binary64)
  | text (s : String)
  | octets (bs : List UInt8)
  | date (d : Date)
  | moment (m : Moment)
  | tagged (s : TaggedScalar)
  | list (items : List Datum)
  /-- Pairs of keys and values in which a key may occur twice. -/
  | pairs (entries : List (Datum × Datum))
  /-- A mapping; one may be said to be ordered. -/
  | mapping (isOrdered : Bool) (entries : List (Datum × Datum))
  | set (items : List Datum)
  /-- A list that is a key. -/
  | tuple (items : List Datum)
  /-- A mapping that is a key. -/
  | keyMapping (entries : List (Datum × Datum))
  /-- The whole document inside itself. -/
  | whole (isList : Bool)
  deriving Inhabited

namespace Datum

/-! ### Showing -/

mutual

def shown : Datum → String
  | null => "None"
  | bool b => if b then "True" else "False"
  | int i => Decimal.ofInt i
  | float x => x.text
  | text s => Text.quoted s
  | octets bs => Text.Octets.shown bs
  | date d => d.shown
  | moment m => m.shown
  | tagged s => s.shown
  | list items => "[" ++ shownItems items ++ "]"
  | pairs entries => "[" ++ shownPairs entries ++ "]"
  | mapping _ entries => "\x7b" ++ shownEntries entries ++ "\x7d"
  | set items => "set(odict_keys([" ++ shownItems items ++ "]))"
  | tuple [item] => "(" ++ shown item ++ ",)"
  | tuple items => "(" ++ shownItems items ++ ")"
  | keyMapping [] => "ordereddict()"
  | keyMapping entries => "ordereddict([" ++ shownPairs entries ++ "])"
  | whole isList => if isList then "[...]" else "\x7b...\x7d"

def shownItems : List Datum → String
  | [] => ""
  | [v] => shown v
  | v :: w :: rest => shown v ++ ", " ++ shownItems (w :: rest)

/-- The entries of a mapping, with a comma between two of them. -/
def shownEntries : List (Datum × Datum) → String
  | [] => ""
  | [(k, v)] => shown k ++ ": " ++ shown v
  | (k, v) :: e :: rest => shown k ++ ": " ++ shown v ++ ", " ++ shownEntries (e :: rest)

/-- Pairs in parentheses, with a comma between two of them. -/
def shownPairs : List (Datum × Datum) → String
  | [] => ""
  | [(k, v)] => "(" ++ shown k ++ ", " ++ shown v ++ ")"
  | (k, v) :: e :: rest =>
    "(" ++ shown k ++ ", " ++ shown v ++ "), " ++ shownPairs (e :: rest)

end

mutual

/-- Whether a datum can be shown: no integer in it is too long. -/
def isShowable : Datum → Bool
  | int i => Decimal.isShowable i
  | list items | set items | tuple items => areShowable items
  | pairs entries | mapping _ entries | keyMapping entries => haveShowable entries
  | _ => true

def areShowable : List Datum → Bool
  | [] => true
  | v :: rest => isShowable v && areShowable rest

def haveShowable : List (Datum × Datum) → Bool
  | [] => true
  | (k, v) :: rest => isShowable k && isShowable v && haveShowable rest

end

/-! ### Equality of keys -/

/-- The exact number that a datum is, in units of `2 ^ -1074`. Truth values are numbers. -/
def units? : Datum → Option Int
  | bool b => some (if b then Binary64.unitsPerOne else 0)
  | int i => some (i * Binary64.unitsPerOne)
  | float x => x.units?
  | _ => none

mutual

/-- Whether two data are the same key. Numbers of different kinds are if they are equal. Of
tagged scalars only one with an anchor can occur twice. -/
def sameKey : Datum → Datum → Bool
  | null, null => true
  | float (.infinite a), float (.infinite b) => a == b
  | float .nan, float .nan => true
  | text a, text b => a == b
  | octets a, octets b => a == b
  | date a, date b => a == b
  | moment a, moment b => a.isSame b
  | tagged a, tagged b => a.anchor.isSome && a.anchor == b.anchor
  | list as, list bs => sameKeys as bs
  | tuple as, tuple bs => sameKeys as bs
  | keyMapping as, keyMapping bs => sameEntries as bs
  | a, b => a.units?.isSome && a.units? == b.units?

def sameKeys : List Datum → List Datum → Bool
  | [], [] => true
  | a :: as, b :: bs => sameKey a b && sameKeys as bs
  | _, _ => false

def sameEntries : List (Datum × Datum) → List (Datum × Datum) → Bool
  | [], [] => true
  | (j, a) :: as, (k, b) :: bs => sameKey j k && sameKey a b && sameEntries as bs
  | _, _ => false

end

def hasKey (key : Datum) (entries : List (Datum × Datum)) : Bool :=
  entries.any fun e => e.1.sameKey key

def field? (name : String) : Datum → Option Datum
  | mapping _ entries => (entries.find? fun e => e.1.sameKey (.text name)).map Prod.snd
  | _ => none

/-! ### Keys -/

/-- The word for a kind of collection that cannot be changed into a key. -/
def collectionKind? : Datum → Option String
  | list _ | whole true => some "CommentedSeq"
  | pairs _ => some "list"
  | mapping false _ | whole false => some "CommentedMap"
  | mapping true _ => some "CommentedOrderedMap"
  | set _ => some "CommentedSet"
  | _ => none

mutual

/-- The kind of the first collection in a key, other than the key itself. -/
def unhashable? : Datum → Option String
  | tuple items => unhashableItem? items
  | keyMapping entries => unhashablePart? entries
  | d => d.collectionKind?

def unhashableItem? : List Datum → Option String
  | [] => none
  | v :: rest => (unhashable? v).or (unhashableItem? rest)

/-- The kind of the first collection among the parts of entries. -/
def unhashablePart? : List (Datum × Datum) → Option String
  | [] => none
  | (k, v) :: rest => ((unhashable? k).or (unhashable? v)).or (unhashablePart? rest)

end

def toKey : Datum → Except Fault Datum
  | list items => .ok (tuple items)
  | mapping _ entries => .ok (keyMapping entries)
  | whole isList => .ok (if isList then tuple [] else keyMapping [])
  | pairs _ => .error (.content .pairsAsKey)
  | set _ => .error .malformed
  | d => .ok d

def toItem : Datum → Except Fault Datum
  | list items => .ok (tuple items)
  | pairs entries => .ok (tuple (entries.map fun (k, v) => tuple [k, v]))
  | whole true => .ok (tuple [])
  | mapping _ _ | whole false | set _ => .error .malformed
  | d => .ok d

def checkHashable (key : Datum) : Except Fault Unit :=
  match key.unhashable? with
  | some kind => .error (.content (.unhashable kind))
  | none => .ok ()

end Datum
end Yaml
end PlotGraph
