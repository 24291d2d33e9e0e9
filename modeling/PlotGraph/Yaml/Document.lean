import PlotGraph.Yaml.Node
import PlotGraph.Yaml.Scalar

/-!
# Documents

Reading a document: its text becomes tokens, these become nodes, and these become data. In
a mapping no two keys may be equal, and no key may hold a collection that is not itself a
key. The entries of mappings that are taken in under the merge key stand after all others,
and a key that is already there is passed over.

A node with an anchor becomes a datum once, and its aliases share that datum (`Making`). An
alias for a collection that it stands in is null there, except that the whole document may
be inside itself.
-/

namespace PlotGraph.Yaml

/-! ### Nodes as keys and as collections -/

namespace Node

/-- A node without the mark of its anchor. -/
def bare : Node → Node
  | .anchored _ n => bare n
  | n => n

def isScalar (n : Node) : Bool :=
  match n.bare with
  | .scalar _ _ _ => true
  | _ => false

def isMapping (n : Node) : Bool :=
  match n.bare with
  | .mapping _ _ | .enclosing _ false => true
  | _ => false

def isNamed (v : Version) (name : String) (n : Node) : Bool :=
  match n.bare with
  | .scalar s style tag => (Scalar.tagOf v s style tag).standardName? == some name
  | _ => false

/-- Whether a node is the key under which a mapping takes in others. -/
def isMergeKey (v : Version) (n : Node) : Bool := n.isNamed v Scalar.mergeName

def valueSign? (v : Version) (n : Node) : Option String :=
  if n.isNamed v Scalar.valueName then
    match n.bare with
    | .scalar s _ _ => some s
    | _ => none
  else none

end Node

/-! ### What a tag asks of a collection -/

inductive Shape where
  | list
  | mapping
  | orderedMapping
  | pairs
  | set
  /-- No collection at all. -/
  | scalar
  /-- A kind that is not known: the collection stays what it is. -/
  | unknown
  deriving DecidableEq, Repr

/-- The kind of collection that a tag asks for. -/
def Shape.ofTag (t : Tag) : Shape :=
  match t.standardName? with
  | some "seq" => .list
  | some "map" => .mapping
  | some "omap" => .orderedMapping
  | some "pairs" => .pairs
  | some "set" => .set
  | some "str" => if t.hasHandle then .unknown else .scalar
  | some name => if (Scalar.Kind.ofName? name).isSome then .scalar else .unknown
  | none => .unknown

/-- The kind of a collection with a tag, given the kind of one without. -/
def Shape.of (plain : Shape) : Option Tag → Shape
  | some t => if t.isOpen then plain else .ofTag t
  | none => plain

/-! ### Making data -/

/-- Making data of nodes: those of nodes with anchors are kept under their places. -/
abbrev Making := StateT (Mapping Nat Datum) (Except Fault)

namespace Datum

/-- The entries that a mapping takes in from another one. -/
def merged? : Datum → Except Fault (List (Datum × Datum))
  | mapping _ entries => .ok entries
  | whole _ => .ok []
  | null => .error (.content (.merged "NoneType"))
  | _ => .error (.content (.merged "CommentedSet"))

/-- Add entries, except those whose keys are already there. -/
def addMissing (entries : List (Datum × Datum)) (others : List (Datum × Datum)) :
    List (Datum × Datum) :=
  others.foldl (fun es e => if hasKey e.1 es then es else es ++ [e]) entries

/-- Take in the entries of other mappings, one after the other. -/
def mergeAll (entries : List (Datum × Datum)) :
    List Datum → Except Fault (List (Datum × Datum))
  | [] => .ok entries
  | d :: rest => do mergeAll (addMissing entries (← d.merged?)) rest

/-- Refuse a key that is already there. The words for that show it with both values. -/
def checkNew (entries : List (Datum × Datum)) (key value : Datum) : Except Fault Unit := do
  key.checkHashable
  match entries.find? fun e => e.1.sameKey key with
  | none => return
  | some (_, other) =>
    if haveShowable [(key, value), (key, other)] then throw .malformed
    else throw (.content .unshowable)

/-- Whatever is wrong, the document is malformed. -/
def malformedIf {α : Type} (m : Making α) : Making α := fun made =>
  (m.run made).mapError fun _ => .malformed

mutual

/-- Make the datum of a node whose anchor stands at a place. Unless nothing may be put off,
the collections in a list come after its scalars. -/
def ofNode (v : Version) (atOnce : Bool) (place : Option Nat) : Node → Making Datum
  | .scalar s style tag => Scalar.datum v s style tag place
  | .anchored place n => do
    match (← get).get? place with
    | some d => return d
    | none =>
      let d ← ofNode v atOnce (some place) n
      modify (·.put place d)
      return d
  | .enclosing isWhole isList => return if isWhole then whole isList else null
  | .list tag items =>
    match Shape.of .list tag with
    | .list => do
      if !atOnce then scalarsOf v items
      return list (← ofNodes v atOnce items)
    | .unknown => do
      if atOnce then return list (← malformedIf (ofNodes v atOnce items))
      else
        malformedIf (scalarsOf v items)
        return list (← ofNodes v atOnce items)
    | .orderedMapping => return mapping true (← orderedEntries v atOnce [] items)
    | .pairs => return pairs (← pairsOf v atOnce items)
    | _ => throw .malformed
  | .mapping tag entries =>
    match Shape.of .mapping tag with
    | .mapping => do
      let others ← mergesOf v false entries
      return mapping false (← mergeAll (← entriesOf v true [] entries) others)
    | .unknown => malformedIf do
      let others ← mergesOf v false entries
      return mapping false (← mergeAll (← entriesOf v atOnce [] entries) others)
    | .set => return set (← itemsOf v atOnce [] entries)
    | _ => throw .malformed

def ofNodes (v : Version) (atOnce : Bool) : List Node → Making (List Datum)
  | [] => return []
  | n :: rest => do return (← ofNode v atOnce none n) :: (← ofNodes v atOnce rest)

/-- Make the data of the scalars among nodes. -/
def scalarsOf (v : Version) : List Node → Making Unit
  | [] => return
  | n :: rest => do
    if n.isScalar then discard (ofNode v true none n)
    scalarsOf v rest

/-- Make the mappings that stand under the merge key, of which there is one. -/
def mergesOf (v : Version) (seen : Bool) : List (Node × Node) → Making (List Datum)
  | [] => return []
  | (k, n) :: rest => do
    if k.isMergeKey v then
      if seen then throw .malformed
      let found ← if n.isMapping then pure [← ofNode v true none n] else sourcesOf v n
      return found ++ (← mergesOf v (!found.isEmpty) rest)
    else mergesOf v seen rest

def sourcesOf (v : Version) : Node → Making (List Datum)
  | .list _ items => mappingsOf v items
  | .anchored _ n => sourcesOf v n
  | _ => throw .malformed

def mappingsOf (v : Version) : List Node → Making (List Datum)
  | [] => return []
  | n :: rest => do
    if n.isMapping then return (← ofNode v true none n) :: (← mappingsOf v rest)
    else throw .malformed

/-- Add entries of a mapping to those before them; merge keys are passed over. -/
def entriesOf (v : Version) (atOnce : Bool) (before : List (Datum × Datum)) :
    List (Node × Node) → Making (List (Datum × Datum))
  | [] => return before
  | (k, n) :: rest => do
    if k.isMergeKey v then entriesOf v atOnce before rest
    else
      let key ← match k.valueSign? v with
        | some s => pure (text s)
        | none => (← ofNode v true none k).toKey
      let value ← ofNode v atOnce none n
      checkNew before key value
      entriesOf v atOnce (before ++ [(key, value)]) rest

def orderedEntries (v : Version) (atOnce : Bool) (before : List (Datum × Datum)) :
    List Node → Making (List (Datum × Datum))
  | [] => return before
  | n :: rest => do
    orderedEntries v atOnce (before ++ [← orderedEntry v atOnce before n]) rest

/-- Make the one entry of a mapping; its key may not be among those before it. -/
def orderedEntry (v : Version) (atOnce : Bool) (before : List (Datum × Datum)) :
    Node → Making (Datum × Datum)
  | .mapping _ [(k, n)] => do
    let key ← ofNode v atOnce none k
    key.checkHashable
    if hasKey key before then throw (.content .repeatedKey)
    return (key, ← ofNode v atOnce none n)
  | .anchored _ n => orderedEntry v atOnce before n
  | _ => throw .malformed

def pairsOf (v : Version) (atOnce : Bool) : List Node → Making (List (Datum × Datum))
  | [] => return []
  | n :: rest => do return (← pairOf v atOnce n) :: (← pairsOf v atOnce rest)

def pairOf (v : Version) (atOnce : Bool) : Node → Making (Datum × Datum)
  | .mapping _ [(k, n)] => do return (← ofNode v atOnce none k, ← ofNode v atOnce none n)
  | .anchored _ n => pairOf v atOnce n
  | _ => throw .malformed

def itemsOf (v : Version) (atOnce : Bool) (before : List Datum) :
    List (Node × Node) → Making (List Datum)
  | [] => return before
  | (k, n) :: rest => do
    let item ← (← ofNode v true none k).toItem
    discard (ofNode v atOnce none n)
    item.checkHashable
    if before.any (·.sameKey item) then throw .malformed
    itemsOf v atOnce (before ++ [item]) rest

end
end Datum

/-- Read a document; one that holds nothing is null. -/
def read (text : List Char) : Except Fault Datum := do
  match ← Node.ofTokens (← tokens text) with
  | some (v, n) => (Datum.ofNode v false none n).run' {}
  | none => return .null

end PlotGraph.Yaml
