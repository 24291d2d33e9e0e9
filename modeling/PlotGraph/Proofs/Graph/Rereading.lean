import PlotGraph.Graph.Writing
import PlotGraph.Proofs.Graph.Reading

/-!
# Graphs that are written and read again

What reading makes of a value is a normal form: a text stays the text it is, a field without a
value is left out and so is missing, a coordinate is a floating-point number, the keys of a
mapping are distinct. Written out, each of them is read as itself, so that a graph is not
changed by writing and reading it (`Graph.ofValue_toValue`), and a value that has been read,
written and read again gives the same graph as at first (`Graph.ofValue_bind_toValue`).
-/

namespace PlotGraph

open Reading Value

/-! ### Normal forms are kept -/

namespace Reading

theorem requiredText_str (s : String) : requiredText (some (.str s)) = s := rfl

theorem scalarText?_map_str (s : Option String) : scalarText? (s.map .str) = s := by
  cases s with
  | none => rfl
  | some s => rfl

theorem fieldsOf_entries (m : Mapping String Value) : fieldsOf (some (.obj m.entries)) = m :=
  Mapping.ofList_entries_self m

variable {v : Value} {p : Option Position}

/-- Coordinates are read back from the position that was written. -/
theorem coordinates?_of_field (h : v.field? "position" = p.map (·.toValue)) :
    coordinates? v = p.map fun p => (.float p.x, .float p.y) := by
  cases p with
  | none =>
      rw [coordinates?, h]
      rfl
  | some p =>
      rw [coordinates?, h]
      rfl

/-- A position is read back. -/
theorem position?_of_field (h : v.field? "position" = p.map (·.toValue)) : position? v = p := by
  rw [position?, coordinates?_of_field h]
  cases p with
  | none => rfl
  | some p => rfl

/-- A position that was written is within the range. -/
theorem oversizedAxes_of_field (h : v.field? "position" = p.map (·.toValue)) :
    oversizedAxes v = [] := by
  rw [oversizedAxes, coordinates?_of_field h]
  cases p with
  | none => rfl
  | some p => rfl

/-- The entries of a mapping of written objects are read as they stand. -/
theorem entriesOf_mapValues {α : Type} (write : α → Value) (m : Mapping String α)
    (hobject : ∀ a, (write a).isObject = true) :
    entriesOf (some (.obj (m.mapValues fun _ => write).entries)) =
      m.mapValues fun _ => write := by
  have hkeep : ∀ a, objectOrEmpty (write a) = write a := fun a => if_pos (hobject a)
  simp only [entriesOf, Mapping.ofList_entries_self, Mapping.mapValues_mapValues, hkeep]

end Reading

/-! ### Nodes and connections -/

namespace Node

theorem isObject_toValue (n : Node) : n.toValue.isObject = true := rfl

/-- The condition of a node is only written if there is one. -/
@[simp] theorem lookup_condition (key : String) (v : Value) :
    Pairs.lookup key (if v = .null then [] else [("condition", v)]) =
      if "condition" = key ∧ v ≠ .null then some v else none := by
  by_cases h : v = .null
  · simp [h, Pairs.lookup]
  · simp [h, Pairs.lookup]

/-- The position of a node is written if it has one. -/
theorem field?_position_toValue (n : Node) :
    n.toValue.field? "position" = n.position.map (·.toValue) := by
  simp [toValue, Pairs.lookup_append, Pairs.lookup]

/-- A node is read back from its fields. -/
theorem ofFields_toValue (n : Node) : ofFields n.toValue = n := by
  have hid : n.toValue.field? "id" = some (.str n.id) := by simp [toValue, Pairs.lookup]
  have htag : n.toValue.field? "type" = some (.str n.tag) := by simp [toValue, Pairs.lookup]
  have hlabel : n.toValue.field? "label" = n.label.map .str := by
    simp [toValue, Pairs.lookup_append, Pairs.lookup]
  have hconfig : n.toValue.field? "config" = some (.obj n.config.entries) := by
    simp [toValue, Pairs.lookup_append, Pairs.lookup]
  -- a condition that is null is left out, and what is missing is read as null
  have hcondition : (n.toValue.field? "condition").getD .null = n.condition := by
    by_cases h : n.condition = .null
    · simp [toValue, Pairs.lookup_append, Pairs.lookup, h]
    · simp [toValue, Pairs.lookup_append, Pairs.lookup, h]
  rw [ofFields, hid, htag, hlabel, hconfig, hcondition, requiredText_str, requiredText_str,
    scalarText?_map_str, position?_of_field n.field?_position_toValue, fieldsOf_entries]

/-- A node is read back. -/
theorem ofValue_toValue (n : Node) : ofValue n.toValue = .ok n := by
  rw [ofValue_eq n.isObject_toValue, oversized,
    oversizedAxes_of_field n.field?_position_toValue, ofFields_toValue]
  rfl

end Node

namespace Connection

theorem isObject_toValue (c : Connection) : c.toValue.isObject = true := rfl

/-- A connection is read back from its fields. -/
theorem ofFields_toValue (c : Connection) : ofFields c.toValue = c := by
  have hid : c.toValue.field? "id" = some (.str c.id) := by simp [toValue, Pairs.lookup]
  -- the first spelling of an end is the one that is written, and also the one that wins
  have hsource : aliased "sourceNodeId" "source_node_id" c.toValue = some (.str c.source) := by
    simp [aliased, toValue, Pairs.lookup]
  have htarget : aliased "targetNodeId" "target_node_id" c.toValue = some (.str c.target) := by
    simp [aliased, toValue, Pairs.lookup]
  have hsourcePort : aliased "sourcePortId" "source_port_id" c.toValue =
      c.sourcePort.map .str := by
    simp [aliased, toValue, Pairs.lookup_append, Pairs.lookup]
  have htargetPort : aliased "targetPortId" "target_port_id" c.toValue =
      c.targetPort.map .str := by
    simp [aliased, toValue, Pairs.lookup_append, Pairs.lookup]
  have hwireType : c.toValue.field? "type" = c.wireType.map .str := by
    simp [toValue, Pairs.lookup_append, Pairs.lookup]
  rw [ofFields, hid, hsource, htarget, hsourcePort, htargetPort, hwireType]
  simp only [requiredText_str, scalarText?_map_str]

end Connection

/-! ### Graphs -/

namespace Graph

/-- The nodes of a graph are written under their keys. -/
theorem nodeEntries_toValue (g : Graph) :
    nodeEntries g.toValue = g.nodes.mapValues fun _ n => n.toValue := by
  have hnodes : g.toValue.field? "nodes" =
      some (.obj (g.nodes.mapValues fun _ n => n.toValue).entries) := by
    simp [toValue, Mapping.mapValues, Pairs.lookup_append, Pairs.lookup]
  rw [nodeEntries, hnodes, entriesOf_mapValues _ _ Node.isObject_toValue]

/-- The connections of a graph are written under their keys. -/
theorem connectionEntries_toValue (g : Graph) :
    connectionEntries g.toValue = g.connections.mapValues fun _ c => c.toValue := by
  have hconnections : g.toValue.field? "connections" =
      some (.obj (g.connections.mapValues fun _ c => c.toValue).entries) := by
    simp [toValue, Mapping.mapValues, Pairs.lookup_append, Pairs.lookup]
  rw [connectionEntries, hconnections, entriesOf_mapValues _ _ Connection.isObject_toValue]

/-- A graph is read back from its fields. -/
theorem ofFields_toValue (g : Graph) : ofFields g.toValue = g := by
  have hid : g.toValue.field? "id" = some (.str g.id) := by simp [toValue, Pairs.lookup]
  have hname : g.toValue.field? "name" = g.name.map .str := by
    simp [toValue, Pairs.lookup_append, Pairs.lookup]
  rw [ofFields, hid, hname, requiredText_str, scalarText?_map_str, nodeEntries_toValue,
    connectionEntries_toValue, Mapping.mapValues_mapValues, Mapping.mapValues_mapValues]
  simp only [Node.ofFields_toValue, Connection.ofFields_toValue, Mapping.mapValues_self]

/-- Nothing in a graph that was written is past the range. -/
theorem oversized_toValue (g : Graph) : oversized g.toValue = [] := by
  rw [oversized, nodeEntries_toValue, List.flatMap_eq_nil_iff]
  rintro ⟨key, entry⟩ hentry
  obtain ⟨⟨key', n⟩, -, heq⟩ := List.mem_map.mp hentry
  cases heq
  show (oversizedAxes n.toValue).map _ = []
  rw [oversizedAxes_of_field n.field?_position_toValue]
  rfl

/-- A graph that is written is read as the same graph. -/
theorem ofValue_toValue (g : Graph) : ofValue g.toValue = .ok g := by
  rw [ofValue_eq rfl, oversized_toValue, ofFields_toValue]
  rfl

/-- **Reading again changes nothing.** Whatever a value holds, the graph read from it is written
as a value from which the same graph is read; what is refused at first stays refused. So it is
for every graph, not only for those that some value gives. -/
theorem ofValue_bind_toValue (v : Value) :
    ((ofValue v).bind fun g => ofValue g.toValue) = ofValue v ∧
      ∀ g : Graph, ofValue g.toValue = .ok g := by
  refine ⟨?_, ofValue_toValue⟩
  cases hread : ofValue v with
  | error e => rfl
  | ok g => exact ofValue_toValue g

end Graph
end PlotGraph
