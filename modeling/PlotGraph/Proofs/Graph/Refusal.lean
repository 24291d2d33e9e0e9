import PlotGraph.Proofs.Graph.Path
import PlotGraph.Proofs.Graph.Reading
import PlotGraph.Proofs.Number.Range

/-!
# What is refused of a graph

Reading an object as a graph fails for one reason only: a node whose position has a number on
either axis, one of which is a whole number past the floating-point range
(`Graph.IsPastRange`). `Graph.ofValue_obj_refusals` says so, and that all such coordinates are
named when it fails: in the order of the nodes, and of one node the first axis before the second.
Whatever else an object holds, it is read.
-/

namespace PlotGraph

/-! ### Coordinates past the range -/

/-- A number, whole or not; a truth value is none. -/
def Value.IsNumber : Value → Prop
  | .int _ | .float _ => True
  | _ => False

/-- The coordinate of an entry on an axis is a whole number past the floating-point range, and
the entry has numbers on both axes. -/
def Reading.IsPastRange (entry : Value) (axis : Axis) : Prop :=
  ∃ position x y i,
    entry.field? "position" = some position ∧
      position.field? "x" = some x ∧ position.field? "y" = some y ∧ x.IsNumber ∧ y.IsNumber ∧
      position.field? axis.name = some (.int i) ∧ Binary64.overflow ≤ i.natAbs

/-- The coordinate on an axis of the node with a key is past the range. -/
def Graph.IsPastRange (v : Value) (key : String) (axis : Axis) : Prop :=
  ∃ entry, (Graph.nodeEntries v).get? key = some entry ∧ Reading.IsPastRange entry axis

namespace Reading

theorem isSome_number?_iff (v : Value) : (number? v).isSome = true ↔ v.IsNumber := by
  cases v <;> simp [number?, Value.IsNumber]

/-- Only integers can be oversized. -/
theorem isOversized_iff (v : Value) :
    isOversized v = true ↔ ∃ i, v = .int i ∧ Binary64.overflow ≤ i.natAbs := by
  cases v with
  | int i => simp [isOversized, Binary64.isInfinite_ofInt_iff]
  | _ => simp [isOversized]

/-- Coordinates are two numbers in the position. -/
theorem coordinates?_eq_some_iff (v x y : Value) :
    coordinates? v = some (x, y) ↔
      ∃ position, v.field? "position" = some position ∧ position.field? "x" = some x ∧
        position.field? "y" = some y ∧ x.IsNumber ∧ y.IsNumber := by
  simp only [coordinates?, Option.bind_eq_bind, Option.bind_eq_some_iff, Option.pure_def,
    Option.ite_none_right_eq_some, Bool.and_eq_true, isSome_number?_iff, Option.some.injEq,
    Prod.mk.injEq]
  constructor
  · rintro ⟨position, hposition, x', hx, y', hy, hnumbers, rfl, rfl⟩
    exact ⟨position, hposition, hx, hy, hnumbers⟩
  · rintro ⟨position, hposition, hx, hy, hnumbers⟩
    exact ⟨position, hposition, x, hx, y, hy, hnumbers, rfl, rfl⟩

/-- A coordinate is past the range exactly if it is oversized. -/
theorem isPastRange_iff {v x y : Value} (h : coordinates? v = some (x, y)) (axis : Axis) :
    IsPastRange v axis ↔ isOversized (match axis with | .x => x | .y => y) = true := by
  obtain ⟨position, hposition, hx, hy, hnx, hny⟩ := (coordinates?_eq_some_iff v x y).mp h
  have hfield : position.field? axis.name = some (match axis with | .x => x | .y => y) := by
    cases axis with
    | x => exact hx
    | y => exact hy
  rw [isOversized_iff]
  constructor
  · rintro ⟨position', x', y', i, hposition', -, -, -, -, hi, hrange⟩
    obtain rfl := Option.some.inj (hposition.symm.trans hposition')
    exact ⟨i, Option.some.inj (hfield.symm.trans hi), hrange⟩
  · rintro ⟨i, hi, hrange⟩
    exact ⟨position, x, y, i, hposition, hx, hy, hnx, hny, hfield.trans (congrArg some hi), hrange⟩

/-- The oversized axes are those past the range. -/
theorem mem_oversizedAxes_iff (v : Value) (axis : Axis) :
    axis ∈ oversizedAxes v ↔ IsPastRange v axis := by
  unfold oversizedAxes
  split
  · next h =>
    refine iff_of_false List.not_mem_nil ?_
    rintro ⟨position, x, y, -, hposition, hx, hy, hnx, hny, -⟩
    rw [(coordinates?_eq_some_iff v x y).mpr ⟨position, hposition, hx, hy, hnx, hny⟩] at h
    cases h
  · next x y h =>
    rw [isPastRange_iff h, List.mem_append]
    cases axis with
    | x => simp
    | y => simp

/-- The first axis comes before the second. -/
theorem pairwise_oversizedAxes (v : Value) :
    (oversizedAxes v).Pairwise fun a b => a = .x ∧ b = .y := by
  unfold oversizedAxes
  split
  · exact List.Pairwise.nil
  · split
    · split
      · simp
      · simp
    · split
      · simp
      · simp

end Reading

/-! ### All that is refused -/

namespace Graph

open Reading

/-- The coordinates past the range, as the keys of nodes and the axes. -/
def pastRange (v : Value) : List (String × Axis) :=
  (nodeEntries v).entries.flatMap fun (key, entry) => (oversizedAxes entry).map (key, ·)

/-- Where a coordinate stands in a graph. -/
def placeOf (c : String × Axis) : List String := ["nodes", c.1, "position", c.2.name]

/-- One coordinate comes before another: its node does in the order of the keys, or it is that
of the first axis of the same node. -/
def IsBefore (keys : List String) (c d : String × Axis) : Prop :=
  keys.idxOf c.1 < keys.idxOf d.1 ∨ c.1 = d.1 ∧ c.2 = .x ∧ d.2 = .y

/-- What is refused is named by the places that are past the range. -/
theorem oversized_eq_map_pastRange (v : Value) : oversized v = (pastRange v).map placeOf := by
  simp only [oversized, pastRange, List.map_flatMap, List.map_map]
  rfl

/-- The list holds all coordinates past the range, and no others. -/
theorem mem_pastRange_iff (v : Value) (key : String) (axis : Axis) :
    (key, axis) ∈ pastRange v ↔ IsPastRange v key axis := by
  simp only [pastRange, List.mem_flatMap, List.mem_map, mem_oversizedAxes_iff, IsPastRange,
    Mapping.get?_eq_some_iff]
  constructor
  · rintro ⟨⟨k, entry⟩, hentry, a, ha, heq⟩
    cases heq
    exact ⟨entry, hentry, ha⟩
  · rintro ⟨entry, hentry, haxis⟩
    exact ⟨(key, entry), hentry, axis, haxis, rfl⟩

/-- They come in the order of the nodes, and x before y. -/
theorem pairwise_pastRange (v : Value) :
    (pastRange v).Pairwise (IsBefore (nodeEntries v).keys) := by
  have hkeys : (nodeEntries v).keys.Pairwise fun j k =>
      (nodeEntries v).keys.idxOf j < (nodeEntries v).keys.idxOf k :=
    List.pairwise_iff_forall_sublist.mpr (idxOf_lt_of_sublist (nodeEntries v).keys_nodup)
  rw [pastRange, List.pairwise_flatMap]
  constructor
  · rintro ⟨key, entry⟩ -
    rw [List.pairwise_map]
    exact (pairwise_oversizedAxes entry).imp fun h => Or.inr ⟨rfl, h⟩
  · refine (List.pairwise_map.mp hkeys).imp fun hlt c hc d hd => Or.inl ?_
    obtain ⟨a, -, rfl⟩ := List.mem_map.mp hc
    obtain ⟨b, -, rfl⟩ := List.mem_map.mp hd
    exact hlt

/-- Without such coordinates a graph is read. -/
theorem ofValue_of_pastRange_eq_nil {fields : List (String × Value)}
    (h : pastRange (.obj fields) = []) :
    ofValue (.obj fields) = .ok (ofFields (.obj fields)) := by
  rw [ofValue_eq rfl, oversized_eq_map_pastRange, h]
  rfl

/-- With them it is refused, and all of them are named. -/
theorem ofValue_of_pastRange_ne_nil {fields : List (String × Value)}
    (h : pastRange (.obj fields) ≠ []) :
    ofValue (.obj fields) =
      .error (.oversizedCoordinates ((pastRange (.obj fields)).map placeOf)) := by
  rw [ofValue_eq rfl, oversized_eq_map_pastRange]
  exact unlessOversized_of_ne_nil (by simpa using h) _

/-- **Only coordinates past the floating-point range are refused.** An object is read as a graph
unless some node has such a coordinate, and all of them are named then, in the order of the nodes
and of the axes. -/
theorem ofValue_obj_refusals (fields : List (String × Value)) :
    ((∃ e, ofValue (.obj fields) = .error e) ↔
      ∃ key axis, IsPastRange (.obj fields) key axis) ∧
    ∃ refused : List (String × Axis),
      (∀ key axis, (key, axis) ∈ refused ↔ IsPastRange (.obj fields) key axis) ∧
      refused.Pairwise (IsBefore (nodeEntries (.obj fields)).keys) ∧
      (refused = [] → ofValue (.obj fields) = .ok (ofFields (.obj fields))) ∧
      (refused ≠ [] →
        ofValue (.obj fields) = .error (.oversizedCoordinates (refused.map placeOf))) := by
  refine ⟨?_, pastRange (.obj fields), mem_pastRange_iff _, pairwise_pastRange _,
    ofValue_of_pastRange_eq_nil, ofValue_of_pastRange_ne_nil⟩
  constructor
  · rintro ⟨e, he⟩
    have hne : pastRange (.obj fields) ≠ [] := by
      intro hnil
      rw [ofValue_of_pastRange_eq_nil hnil] at he
      cases he
    obtain ⟨⟨key, axis⟩, hmem⟩ := List.exists_mem_of_ne_nil _ hne
    exact ⟨key, axis, (mem_pastRange_iff _ key axis).mp hmem⟩
  · rintro ⟨key, axis, hpast⟩
    have hmem := (mem_pastRange_iff _ key axis).mpr hpast
    exact ⟨_, ofValue_of_pastRange_ne_nil (List.ne_nil_of_mem hmem)⟩

end Graph
end PlotGraph
