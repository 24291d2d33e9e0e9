import PlotGraph.Graph.Basic
import PlotGraph.Value.Text

/-!
# Reading graphs from values

Reading is lenient: whatever an editor exports becomes a graph, so that its faults can be
reported. A field of the wrong kind counts as missing, an entry that is no object counts
as an empty one, and a scalar in place of a text is taken as its text.

Only two things are refused: a value that is no object where a node, a connection or a
graph is wanted, and a coordinate that is a whole number past the floating-point range.
Reading goes on behind what is refused, so that all such coordinates of a graph are named with
their places (`Reading.both`).

Fields may have the editor's names or the names with underscores; the editor's name wins,
even with a null.
-/

namespace PlotGraph

/-! ### What is refused -/

/-- An axis of the canvas. -/
inductive Axis where
  | x
  | y
  deriving DecidableEq, Repr

/-- The name of the field that holds a coordinate. -/
def Axis.name : Axis → String
  | .x => "x"
  | .y => "y"

/-- Why a value is refused. -/
inductive ReadError where
  | notAnObject
  | oversizedCoordinates (places : List (List String))
  deriving DecidableEq, Repr

namespace ReadError

/-- What is refused of a part that stands behind a path. -/
def below (path : List String) : ReadError → ReadError
  | .notAnObject => .notAnObject
  | .oversizedCoordinates places => .oversizedCoordinates (places.map (path ++ ·))

def merge : ReadError → ReadError → ReadError
  | .oversizedCoordinates places, .oversizedCoordinates more =>
    .oversizedCoordinates (places ++ more)
  | _, _ => .notAnObject

end ReadError

/-! ### Fields -/

namespace Reading

/-- A field under its editor's name, or else under its name with underscores. -/
def aliased (editorName plainName : String) (v : Value) : Option Value :=
  v.field? editorName <|> v.field? plainName

/-- The text of a field that has to be there: a missing or null one is empty. -/
def requiredText : Option Value → String
  | none | some .null => ""
  | some v => v.text

/-- The text of a scalar; what is missing, null, a list or an object has none. -/
def scalarText? : Option Value → Option String
  | none | some .null | some (.arr _) | some (.obj _) => none
  | some v => some v.text

/-- The fields of an object; nothing else has any. -/
def fieldsOf : Option Value → Mapping String Value
  | some (.obj fields) => .ofList fields
  | _ => {}

/-! ### Positions -/

def number? : Value → Option Binary64
  | .int i => some (.ofInt i)
  | .float x => some x
  | _ => none

/-- Whether a coordinate is a whole number past the floating-point range. -/
def isOversized : Value → Bool
  | .int i => (Binary64.ofInt i).isInfinite
  | _ => false

/-- The two coordinates of a position; unless both are numbers there is none. -/
def coordinates? (v : Value) : Option (Value × Value) := do
  let position ← v.field? "position"
  let x ← position.field? "x"
  let y ← position.field? "y"
  if (number? x).isSome && (number? y).isSome then return (x, y) else none

def position? (v : Value) : Option Position := do
  let (x, y) ← coordinates? v
  return { x := ← number? x, y := ← number? y }

/-- The axes whose coordinates are past the floating-point range. -/
def oversizedAxes (v : Value) : List Axis :=
  match coordinates? v with
  | none => []
  | some (x, y) => (if isOversized x then [.x] else []) ++ (if isOversized y then [.y] else [])

/-! ### Collections -/

/-- The key of an entry in a list: its id if it has one, otherwise its place. -/
def listKey (place : Nat) (entry : Value) : String :=
  match entry.field? "id" with
  | some id => if id.isGiven then id.text else Decimal.ofNat place
  | none => Decimal.ofNat place

/-- Pair the entries of a list with their keys; the first one has the given place. -/
def keyed (place : Nat) : List Value → List (String × Value)
  | [] => []
  | entry :: rest => (listKey place entry, entry) :: keyed (place + 1) rest

/-- An entry that is no object counts as an empty one. -/
def objectOrEmpty (v : Value) : Value := if v.isObject then v else .obj []

/-- The entries of a collection, which is an object or a list. -/
def entriesOf (v : Option Value) : Mapping String Value :=
  let raw : Mapping String Value := match v with
    | some (.obj fields) => .ofList fields
    | some (.arr items) => .ofList (keyed 0 items)
    | _ => {}
  raw.mapValues fun _ entry => objectOrEmpty entry

/-- Two parts that have been read, or all that is refused of them. -/
def both {α β : Type} : Except ReadError α → Except ReadError β → Except ReadError (α × β)
  | .ok a, .ok b => .ok (a, b)
  | .error e, .ok _ => .error e
  | .ok _, .error e => .error e
  | .error e, .error e' => .error (e.merge e')

/-- Read the entries of a collection that is the value of a field. -/
def readItems {α : Type} (field : String) (read : Value → Except ReadError α) :
    List (String × Value) → Except ReadError (List (String × α))
  | [] => .ok []
  | (key, entry) :: rest =>
    (both ((read entry).mapError (.below [field, key])) (readItems field read rest)).map
      fun (a, more) => (key, a) :: more

def readEntries {α : Type} (field : String) (read : Value → Except ReadError α)
    (entries : Mapping String Value) : Except ReadError (Mapping String α) :=
  (readItems field read entries.entries).map .ofList

end Reading

open Reading

/-! ### Nodes, connections and graphs -/

def Node.ofFields (v : Value) : Node where
  id := requiredText (v.field? "id")
  tag := requiredText (v.field? "type")
  label := scalarText? (v.field? "label")
  position := position? v
  config := fieldsOf (v.field? "config")
  condition := (v.field? "condition").getD .null

def Node.ofValue (v : Value) : Except ReadError Node :=
  if !v.isObject then .error .notAnObject
  else
    match (oversizedAxes v).map fun axis => ["position", axis.name] with
    | [] => .ok (Node.ofFields v)
    | places => .error (.oversizedCoordinates places)

def Connection.ofFields (v : Value) : Connection where
  id := requiredText (v.field? "id")
  source := requiredText (aliased "sourceNodeId" "source_node_id" v)
  target := requiredText (aliased "targetNodeId" "target_node_id" v)
  sourcePort := scalarText? (aliased "sourcePortId" "source_port_id" v)
  targetPort := scalarText? (aliased "targetPortId" "target_port_id" v)
  wireType := scalarText? (v.field? "type")

def Connection.ofValue (v : Value) : Except ReadError Connection :=
  if v.isObject then .ok (Connection.ofFields v) else .error .notAnObject

def Graph.nodeEntries (v : Value) : Mapping String Value := entriesOf (v.field? "nodes")

def Graph.connectionEntries (v : Value) : Mapping String Value :=
  entriesOf (v.field? "connections")

def Graph.ofValue (v : Value) : Except ReadError Graph :=
  if !v.isObject then .error .notAnObject
  else
    (both (readEntries "nodes" Node.ofValue (Graph.nodeEntries v))
        (readEntries "connections" Connection.ofValue (Graph.connectionEntries v))).map
      fun (nodes, connections) => {
        id := requiredText (v.field? "id")
        name := scalarText? (v.field? "name")
        nodes, connections }

/-- The mapping of a list whose entries are keyed by their places. -/
def Mapping.ofItems {α : Type} (items : List α) : Mapping String α :=
  .ofList (items.zipIdx.map fun (item, place) => (Decimal.ofNat place, item))

end PlotGraph
