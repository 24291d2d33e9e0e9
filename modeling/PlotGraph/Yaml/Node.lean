import PlotGraph.Mapping
import PlotGraph.Yaml.Tokens

/-!
# Nodes

The nodes that a sequence of tokens describes: scalars, lists and mappings, with aliases
replaced by the nodes they name. A node with an anchor is marked by the place of its
anchor, so that all its occurrences are known to be one. Where a key or a value is missing,
an empty scalar stands in its place.

Every reader returns the tokens that are left. There are fewer of them than before, or,
where nothing has to be read, at most as many; this ends the recursion.
-/

namespace PlotGraph.Yaml

/-- A node. -/
inductive Node where
  | scalar (text : String) (style : Style) (tag : Option Tag)
  | list (tag : Option Tag) (items : List Node)
  | mapping (tag : Option Tag) (entries : List (Node × Node))
  /-- A node with an anchor, which stands at a place. -/
  | anchored (place : Nat) (node : Node)
  /-- An alias for a list or a mapping that it stands in; it may be the whole document. -/
  | enclosing (isWhole isList : Bool)
  deriving Inhabited

namespace Node

/-- The scalar that stands in the place of a missing key or value. -/
def empty : Node := .scalar "" .plain none

/-- The nodes that aliases name. -/
abbrev Anchors := Mapping String Node

/-- The tokens after something that was read. -/
abbrev Rest (ts : List Token) := { r : List Token // r.length < ts.length }

/-- The tokens after something that may be empty. -/
abbrev Tail (ts : List Token) := { r : List Token // r.length ≤ ts.length }

/-! ### Properties -/

/-- What may stand before a node: an anchor and a tag, in either order. The place is the
number of tokens that are left there. -/
structure Properties where
  anchor : Option String := none
  tag : Option Tag := none
  place : Nat

def properties (ts : List Token) : Properties × Tail ts :=
  let place := ts.length
  match ts with
  | .anchor a :: .tag t :: rest =>
    ({ anchor := some a, tag := some t, place }, ⟨rest, Nat.le_succ_of_le (Nat.le_succ _)⟩)
  | .tag t :: .anchor a :: rest =>
    ({ anchor := some a, tag := some t, place }, ⟨rest, Nat.le_succ_of_le (Nat.le_succ _)⟩)
  | .anchor a :: rest => ({ anchor := some a, place }, ⟨rest, Nat.le_succ _⟩)
  | .tag t :: rest => ({ tag := some t, place }, ⟨rest, Nat.le_succ _⟩)
  | ts => ({ place }, ⟨ts, Nat.le_refl _⟩)

def Properties.mark (p : Properties) (n : Node) : Node :=
  if p.anchor.isSome then .anchored p.place n else n

def Properties.name (p : Properties) (n : Node) (anchors : Anchors) : Anchors :=
  match p.anchor with
  | some a => anchors.put a n
  | none => anchors

/-- A scalar with its mark, and the anchors with its name. -/
def Properties.finish (p : Properties) (n : Node) (anchors : Anchors) : Node × Anchors :=
  (p.mark n, p.name (p.mark n) anchors)

/-- Whether a node stands for one that it is in. -/
def isEnclosing : Node → Bool
  | .enclosing _ _ => true
  | _ => false

/-- A list or a mapping with its mark, and the anchors with its name, unless the name has
gone to another node inside it. -/
def Properties.leave (p : Properties) (n : Node) (anchors : Anchors) : Node × Anchors :=
  match p.anchor with
  | some a =>
    (p.mark n, if (anchors.get? a).any isEnclosing then anchors.put a (p.mark n) else anchors)
  | none => (n, anchors)

/-! ### Where a part is missing -/

/-- Whether the next token is one of those before which a part is missing. -/
def isMissing (stops : List Token) (ts : List Token) : Bool := ts.head?.any stops.contains

def blockStops : List Token := [.key, .value, .blockEnd]

def itemStops : List Token := [.blockEntry, .blockEnd]

/-- The tokens before which an entry of a list without indentation is missing. -/
def indentlessStops : List Token := .blockEntry :: blockStops

/-- The tokens before which a value inside brackets is missing. -/
def flowStops (closing : Token) : List Token := [.flowEntry, closing]

/-- Where a node stands: as a whole document, inside brackets, as an entry of a block list,
or as a part of a block mapping, where a list needs no indentation. -/
inductive Slot where
  | whole
  | flow
  | item
  | part
  deriving DecidableEq

/-- The anchors inside a list or a mapping, which its own name stands for there. -/
def Properties.enter (p : Properties) (slot : Slot) (isList : Bool) (anchors : Anchors) :
    Anchors :=
  p.name (.enclosing (slot == .whole) isList) anchors

/-! ### Nodes -/

mutual

/-- Read a node, or the empty one where it is missing. -/
def partOf (slot : Slot) (stops : List Token) (anchors : Anchors) (ts : List Token) :
    Except Fault (Node × Anchors × Tail ts) := do
  if isMissing stops ts then return (empty, anchors, ⟨ts, Nat.le_refl _⟩)
  let (n, anchors, ⟨rest, h⟩) ← node slot anchors ts
  return (n, anchors, ⟨rest, Nat.le_of_lt h⟩)
termination_by 6 * ts.length + 4

def node (slot : Slot) (anchors : Anchors) (ts : List Token) :
    Except Fault (Node × Anchors × Rest ts) :=
  match ts with
  | .alias name :: rest =>
    match anchors.get? name with
    | some n => .ok (n, anchors, ⟨rest, by simp⟩)
    | none => .error .malformed
  | ts => do
    let (p, ⟨body, hbody⟩) := properties ts
    match ← content slot p anchors body with
    | some (n, anchors, ⟨rest, h⟩) => return (n, anchors, ⟨rest, by omega⟩)
    | none =>
      if h : body.length < ts.length then
        let (n, anchors) := p.finish (.scalar "" .plain p.tag) anchors
        return (n, anchors, ⟨body, h⟩)
      else throw .malformed
termination_by 6 * ts.length + 3

/-- Read what stands after the properties of a node; none if nothing does. -/
def content (slot : Slot) (p : Properties) (anchors : Anchors) (ts : List Token) :
    Except Fault (Option (Node × Anchors × Rest ts)) :=
  match ts with
  | .scalar text style :: rest =>
    let (n, anchors) := p.finish (.scalar text style p.tag) anchors
    .ok (some (n, anchors, ⟨rest, by simp⟩))
  | .flowSequenceStart :: rest => do
    let (items, anchors, ⟨r, h⟩) ← flowItem (p.enter slot true anchors) rest
    let (n, anchors) := p.leave (.list p.tag items) anchors
    return some (n, anchors, ⟨r, by simp; omega⟩)
  | .flowMappingStart :: rest => do
    let (entries, anchors, ⟨r, h⟩) ← flowEntry (p.enter slot false anchors) rest
    let (n, anchors) := p.leave (.mapping p.tag entries) anchors
    return some (n, anchors, ⟨r, by simp; omega⟩)
  | .sequenceStart :: rest => do
    if slot = .flow then return none
    let (items, anchors, ⟨r, h⟩) ← blockItems (p.enter slot true anchors) rest
    let (n, anchors) := p.leave (.list p.tag items) anchors
    return some (n, anchors, ⟨r, by simp; omega⟩)
  | .mappingStart :: rest => do
    if slot = .flow then return none
    let (entries, anchors, ⟨r, h⟩) ← blockEntries (p.enter slot false anchors) rest
    let (n, anchors) := p.leave (.mapping p.tag entries) anchors
    return some (n, anchors, ⟨r, by simp; omega⟩)
  | .blockEntry :: rest => do
    if slot ≠ .part then return none
    let (first, anchors, ⟨r, h⟩) ←
      partOf .item indentlessStops (p.enter slot true anchors) rest
    let (items, anchors, ⟨r', h'⟩) ← indentlessItems anchors r
    let (n, anchors) := p.leave (.list p.tag (first :: items)) anchors
    return some (n, anchors, ⟨r', by simp; omega⟩)
  | _ => .ok none
termination_by 6 * ts.length + 2

def indentlessItems (anchors : Anchors) (ts : List Token) :
    Except Fault (List Node × Anchors × Tail ts) :=
  match ts with
  | .blockEntry :: rest => do
    let (item, anchors, ⟨r, h⟩) ← partOf .item indentlessStops anchors rest
    let (items, anchors, ⟨r', h'⟩) ← indentlessItems anchors r
    return (item :: items, anchors, ⟨r', by simp; omega⟩)
  | ts => .ok ([], anchors, ⟨ts, Nat.le_refl _⟩)
termination_by 6 * ts.length + 1

/-- Read the entries of a block list that are left, and its end. -/
def blockItems (anchors : Anchors) (ts : List Token) :
    Except Fault (List Node × Anchors × Rest ts) :=
  match ts with
  | .blockEntry :: rest => do
    let (item, anchors, ⟨r, h⟩) ← partOf .item itemStops anchors rest
    let (items, anchors, ⟨r', h'⟩) ← blockItems anchors r
    return (item :: items, anchors, ⟨r', by simp; omega⟩)
  | .blockEnd :: rest => .ok ([], anchors, ⟨rest, by simp⟩)
  | _ => .error .malformed
termination_by 6 * ts.length + 1

/-- Read a key and its value, if one of their indicators comes next. -/
def entry (slot : Slot) (keyStops valueStops : List Token) (anchors : Anchors)
    (ts : List Token) : Except Fault (Option ((Node × Node) × Anchors × Rest ts)) :=
  match ts with
  | .key :: rest => do
    let (k, anchors, ⟨r, h⟩) ← partOf slot keyStops anchors rest
    match r, h with
    | .value :: r, h =>
      let (v, anchors, ⟨r', h'⟩) ← partOf slot valueStops anchors r
      return some ((k, v), anchors,
        ⟨r', Nat.lt_succ_of_le (Nat.le_trans h' (Nat.le_of_succ_le h))⟩)
    | r, h => return some ((k, empty), anchors, ⟨r, Nat.lt_succ_of_le h⟩)
  | .value :: rest => do
    let (v, anchors, ⟨r, h⟩) ← partOf slot valueStops anchors rest
    return some ((empty, v), anchors, ⟨r, by simp; omega⟩)
  | _ => .ok none
termination_by 6 * ts.length + 1
decreasing_by all_goals grind

/-- Read the entries of a block mapping that are left, and its end. -/
def blockEntries (anchors : Anchors) (ts : List Token) :
    Except Fault (List (Node × Node) × Anchors × Rest ts) :=
  match ts with
  | .blockEnd :: rest => .ok ([], anchors, ⟨rest, by simp⟩)
  | ts => do
    match ← entry .part blockStops blockStops anchors ts with
    | some (e, anchors, ⟨r, h⟩) =>
      let (entries, anchors, ⟨r', h'⟩) ← blockEntries anchors r
      return (e :: entries, anchors, ⟨r', by omega⟩)
    | none => throw .malformed
termination_by 6 * ts.length + 2

/-- Read an entry of a list in brackets and those that follow it, or the end of the list. -/
def flowItem (anchors : Anchors) (ts : List Token) :
    Except Fault (List Node × Anchors × Rest ts) :=
  match ts with
  | .flowSequenceEnd :: rest => .ok ([], anchors, ⟨rest, by simp⟩)
  | .key :: rest => do
    let stops := flowStops .flowSequenceEnd
    match ← entry .flow (.value :: stops) stops anchors (.key :: rest) with
    | some ((k, v), anchors, ⟨r, h⟩) =>
      let (items, anchors, ⟨r', h'⟩) ← flowItems anchors r
      return (.mapping none [(k, v)] :: items, anchors, ⟨r', by simp only [List.length_cons] at h ⊢; omega⟩)
    | none => throw .malformed
  | ts => do
    let (item, anchors, ⟨r, h⟩) ← node .flow anchors ts
    let (items, anchors, ⟨r', h'⟩) ← flowItems anchors r
    return (item :: items, anchors, ⟨r', by omega⟩)
termination_by 6 * ts.length + 5
decreasing_by all_goals grind

/-- Read what follows an entry of a list in brackets. -/
def flowItems (anchors : Anchors) (ts : List Token) :
    Except Fault (List Node × Anchors × Rest ts) :=
  match ts with
  | .flowSequenceEnd :: rest => .ok ([], anchors, ⟨rest, by simp⟩)
  | .flowEntry :: rest => do
    let (items, anchors, ⟨r, h⟩) ← flowItem anchors rest
    return (items, anchors, ⟨r, by simp; omega⟩)
  | _ => .error .malformed
termination_by 6 * ts.length + 1

/-- Read an entry of a mapping in brackets and those that follow it, or the end of the
mapping. An entry may be a key alone. -/
def flowEntry (anchors : Anchors) (ts : List Token) :
    Except Fault (List (Node × Node) × Anchors × Rest ts) :=
  match ts with
  | .flowMappingEnd :: rest => .ok ([], anchors, ⟨rest, by simp⟩)
  | ts => do
    let stops := flowStops .flowMappingEnd
    match ← entry .flow (.value :: stops) stops anchors ts with
    | some (e, anchors, ⟨r, h⟩) =>
      let (entries, anchors, ⟨r', h'⟩) ← flowEntries anchors r
      return (e :: entries, anchors, ⟨r', by omega⟩)
    | none =>
      let (k, anchors, ⟨r, h⟩) ← node .flow anchors ts
      let (entries, anchors, ⟨r', h'⟩) ← flowEntries anchors r
      return ((k, empty) :: entries, anchors, ⟨r', by omega⟩)
termination_by 6 * ts.length + 5

/-- Read what follows an entry of a mapping in brackets. -/
def flowEntries (anchors : Anchors) (ts : List Token) :
    Except Fault (List (Node × Node) × Anchors × Rest ts) :=
  match ts with
  | .flowMappingEnd :: rest => .ok ([], anchors, ⟨rest, by simp⟩)
  | .flowEntry :: rest => do
    let (entries, anchors, ⟨r, h⟩) ← flowEntry anchors rest
    return (entries, anchors, ⟨r, by simp; omega⟩)
  | _ => .error .malformed
termination_by 6 * ts.length + 1

end

/-! ### Documents -/

/-- The minor number of the version that directives ask for, and the tokens after them. -/
def afterDirectives (minor : Option Nat) : List Token → Option Nat × List Token
  | .directive (.version _ n) :: rest => afterDirectives (some n) rest
  | .directive _ :: rest => afterDirectives minor rest
  | ts => (minor, ts)

def isOver : List Token → Bool
  | [] | .directive _ :: _ | .documentStart :: _ | .documentEnd :: _ => true
  | _ => false

/-- A node after which there is nothing but the marker of the document's end. -/
def alone (n : Node) : List Token → Except Fault Node
  | [] | [.documentEnd] => .ok n
  | _ => .error .malformed

/-- The node that all tokens describe, up to the marker of the document's end. -/
def ofBody (ts : List Token) : Except Fault Node := do
  let (n, _, ⟨rest, _⟩) ← node .whole {} ts
  alone n rest

/-- The only document that the tokens describe, with the version it is written in; none if
there is nothing at all. -/
def ofTokens (ts : List Token) : Except Fault (Option (Version × Node)) := do
  match ts with
  | [] => return none
  | .directive _ :: _ | .documentStart :: _ =>
    let (minor, rest) := afterDirectives none ts
    match rest with
    | .documentStart :: body =>
      let n ← if isOver body then alone empty body else ofBody body
      return some ((minor.bind Version.ofMinor?).getD .newer, n)
    | _ => throw .malformed
  | _ => return some (.newer, ← ofBody ts)

end Node
end PlotGraph.Yaml
