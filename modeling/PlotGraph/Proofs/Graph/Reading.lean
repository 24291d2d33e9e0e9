import PlotGraph.Graph.Reading
import PlotGraph.Proofs.Mapping

/-!
# What is read of a graph

A graph is read node by node and connection by connection. All in all that is what its fields
describe (`Graph.ofFields`), unless coordinates of nodes are past the floating-point range: then
these are named, and nothing else is at fault (`Graph.ofValue_eq`).
-/

namespace PlotGraph

open Reading

/-! ### Parts that may be refused -/

namespace Reading

variable {α β : Type}

/-- What is read, unless coordinates are refused. -/
def unlessOversized (places : List (List String)) (a : α) : Except ReadError α :=
  match places with
  | [] => .ok a
  | places => .error (.oversizedCoordinates places)

@[simp] theorem unlessOversized_nil (a : α) : unlessOversized [] a = .ok a := rfl

/-- With oversized places nothing is read. -/
theorem unlessOversized_of_ne_nil {places : List (List String)} (h : places ≠ []) (a : α) :
    unlessOversized places a = .error (.oversizedCoordinates places) := by
  cases places with
  | nil => exact absurd rfl h
  | cons place rest => rfl

/-- What is read is what there is to read. -/
theorem eq_of_unlessOversized {places : List (List String)} {a b : α}
    (h : unlessOversized places a = .ok b) : b = a := by
  cases places with
  | nil => exact (Except.ok.inj h).symm
  | cons place rest => cases h

/-- What is made of it makes no difference to the places. -/
theorem map_unlessOversized (f : α → β) (places : List (List String)) (a : α) :
    (unlessOversized places a).map f = unlessOversized places (f a) := by
  cases places with
  | nil => rfl
  | cons place rest => rfl

/-- Further up the places stand below a longer path. -/
theorem mapError_below_unlessOversized (path : List String) (places : List (List String)) (a : α) :
    (unlessOversized places a).mapError (.below path) =
      unlessOversized (places.map (path ++ ·)) a := by
  cases places with
  | nil => rfl
  | cons place rest => rfl

/-- The coordinates of two parts are refused together. -/
theorem both_unlessOversized (places more : List (List String)) (a : α) (b : β) :
    both (unlessOversized places a) (unlessOversized more b) =
      unlessOversized (places ++ more) (a, b) := by
  cases places with
  | nil =>
    cases more with
    | nil => rfl
    | cons place rest => rfl
  | cons place rest =>
    cases more with
    | nil => rw [List.append_nil]; rfl
    | cons place' rest' => rfl

section Entries

variable {field : String} {read : Value → Except ReadError α}
  (places : Value → List (List String)) (shape : Value → α)

/-- Items are read unless there are oversized places in any of them, and then all places are
named. -/
theorem readItems_eq {entries : List (String × Value)}
    (h : ∀ e ∈ entries, read e.2 = unlessOversized (places e.2) (shape e.2)) :
    readItems field read entries =
      unlessOversized (entries.flatMap fun e => (places e.2).map ([field, e.1] ++ ·))
        (entries.map fun e => (e.1, shape e.2)) := by
  induction entries with
  | nil => rfl
  | cons e rest ih =>
    obtain ⟨he, hrest⟩ := List.forall_mem_cons.mp h
    rw [readItems, he, ih hrest, mapError_below_unlessOversized, both_unlessOversized,
      map_unlessOversized]
    rfl

/-- The entries of a collection are read in their places, and what is refused of them is refused
of the collection. -/
theorem readEntries_eq {m : Mapping String Value}
    (h : ∀ e ∈ m.entries, read e.2 = unlessOversized (places e.2) (shape e.2)) :
    readEntries field read m =
      unlessOversized (m.entries.flatMap fun e => (places e.2).map ([field, e.1] ++ ·))
        (m.mapValues fun _ => shape) := by
  rw [readEntries, readItems_eq places shape h, map_unlessOversized]
  exact congrArg _ (Mapping.ofList_entries_self (m.mapValues fun _ => shape))

end Entries

/-- Every entry of a collection is an object. -/
theorem isObject_of_mem_entriesOf {v : Option Value} {e : String × Value}
    (h : e ∈ (entriesOf v).entries) : e.2.isObject = true := by
  obtain ⟨⟨key, raw⟩, -, rfl⟩ := List.mem_map.mp h
  show (objectOrEmpty raw).isObject = true
  unfold objectOrEmpty
  split
  · next hobject => exact hobject
  · rfl

end Reading

/-! ### Nodes, connections and graphs -/

/-- The places of the coordinates of a node that are past the floating-point range. -/
def Node.oversized (v : Value) : List (List String) :=
  (oversizedAxes v).map fun axis => ["position", axis.name]

/-- A node is read unless it has oversized coordinates. -/
theorem Node.ofValue_eq {v : Value} (h : v.isObject = true) :
    Node.ofValue v = unlessOversized (Node.oversized v) (Node.ofFields v) := by
  rw [ofValue, h]
  rfl

/-- A connection is always read. -/
theorem Connection.ofValue_eq {v : Value} (h : v.isObject = true) :
    Connection.ofValue v = unlessOversized [] (Connection.ofFields v) := by
  rw [ofValue, if_pos h]
  rfl

namespace Graph

/-- The graph that the fields of a value describe. -/
def ofFields (v : Value) : Graph where
  id := requiredText (v.field? "id")
  name := scalarText? (v.field? "name")
  nodes := (nodeEntries v).mapValues fun _ entry => Node.ofFields entry
  connections := (connectionEntries v).mapValues fun _ entry => Connection.ofFields entry

/-- The places of the coordinates that are past the floating-point range: nodes in order,
and of each the first axis before the second. -/
def oversized (v : Value) : List (List String) :=
  (nodeEntries v).entries.flatMap fun (key, entry) =>
    (oversizedAxes entry).map fun axis => ["nodes", key, "position", axis.name]

/-- What is read of an object is what its fields describe, unless coordinates are past the
range. -/
theorem ofValue_eq {v : Value} (h : v.isObject = true) :
    ofValue v = unlessOversized (oversized v) (ofFields v) := by
  have hnodes : readEntries "nodes" Node.ofValue (nodeEntries v) =
      unlessOversized (oversized v) (ofFields v).nodes := by
    have hread : ∀ e ∈ (nodeEntries v).entries, Node.ofValue e.2 =
        unlessOversized (Node.oversized e.2) (Node.ofFields e.2) :=
      fun e he => Node.ofValue_eq (isObject_of_mem_entriesOf he)
    rw [readEntries_eq Node.oversized Node.ofFields hread, oversized]
    simp only [Node.oversized, List.map_map]
    rfl
  have hconnections : readEntries "connections" Connection.ofValue (connectionEntries v) =
      unlessOversized [] (ofFields v).connections := by
    have hread : ∀ e ∈ (connectionEntries v).entries,
        Connection.ofValue e.2 = unlessOversized [] (Connection.ofFields e.2) :=
      fun e he => Connection.ofValue_eq (isObject_of_mem_entriesOf he)
    have hnone : (connectionEntries v).entries.flatMap (fun e =>
        ([] : List (List String)).map (["connections", e.1] ++ ·)) = [] :=
      List.flatMap_eq_nil_iff.mpr fun _ _ => rfl
    rw [readEntries_eq (fun _ => []) Connection.ofFields hread, hnone]
    rfl
  rw [ofValue, h, hnodes, hconnections, both_unlessOversized, List.append_nil]
  exact map_unlessOversized _ _ _

/-- Only an object is read as a graph. -/
theorem ofValue_of_not_isObject {v : Value} (h : v.isObject = false) :
    ofValue v = .error .notAnObject := by
  rw [ofValue, h]
  rfl

/-- What is read, if anything is, is what the fields of the value describe. -/
theorem eq_ofFields_of_ofValue {v : Value} {g : Graph} (h : ofValue v = .ok g) :
    g = ofFields v := by
  cases hobject : v.isObject with
  | false =>
    rw [ofValue_of_not_isObject hobject] at h
    cases h
  | true =>
    rw [ofValue_eq hobject] at h
    exact eq_of_unlessOversized h

end Graph
end PlotGraph
