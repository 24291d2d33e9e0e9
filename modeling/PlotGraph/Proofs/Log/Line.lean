import PlotGraph.Log.Event
import PlotGraph.Proofs.Mapping

/-!
# What stands on the line of an event

Fields come together from three sides: those that every line begins with, those that the event
names, and those that are bound. What the event names replaces what the line begins with
(`Pairs.lookup_foldl_put`), so that a field of the event is on the line unless it is dropped
(`Event.field?_line_of_mem`). A bound field gives way to one of the event (`Event.field?_line_bind`),
and one that is neither bound nor among the first is there exactly if the event names it
(`Event.isSome_field?_line`).
-/

namespace PlotGraph

namespace Log.Event

variable {e : Event} {name : String} {value : Value}

/-- With fields bound to it an event has these and its own. -/
theorem mem_names_bind {context : List (String × Value)} :
    name ∈ (e.bind context).names ↔ name ∈ context.map Prod.fst ∨ name ∈ e.names := by
  have hnames : (e.bind context).names =
      e.names ++ (context.filter fun f => !e.names.contains f.1).map Prod.fst :=
    List.map_append
  rw [hnames, List.mem_append, or_comm]
  refine or_congr_left' fun hown => ?_
  rw [List.mem_map, List.mem_map]
  constructor
  · rintro ⟨f, hf, rfl⟩
    exact ⟨f, (List.mem_filter.mp hf).1, rfl⟩
  · rintro ⟨f, hf, rfl⟩
    exact ⟨f, List.mem_filter.mpr ⟨hf, by simpa using hown⟩, rfl⟩

/-- The fields that the line begins with. -/
def head (e : Event) : List (String × Value) :=
  [("level", .str e.level.name), ("logger", .str (loggerName e.logger)),
    ("message", .str e.message)]

/-- On a line the fields of the event stand in the place of those of the head. -/
theorem field?_line (e : Event) (name : String) : e.line.field? name =
    Pairs.lookup name ((e.fields.filter fun f => !droppedFields.contains f.1).foldl
      (fun fs f => Pairs.put f.1 f.2 fs) e.head) := rfl

/-- The names on a line are distinct. -/
theorem exists_line_eq (e : Event) : ∃ fs, e.line = .obj fs ∧ (fs.map Prod.fst).Nodup := by
  have hhead : (e.head.map Prod.fst).Nodup := by simp [head]
  exact ⟨_, rfl, Pairs.nodup_foldl_put hhead _⟩

/-- A field that is not dropped is on the line, whatever the line begins with. -/
theorem field?_line_of_mem (hnames : e.names.Nodup) {f : String × Value} (hf : f ∈ e.fields)
    (hkept : f.1 ∉ droppedFields) : e.line.field? f.1 = some f.2 := by
  have hnodup : ((e.fields.filter fun f => !droppedFields.contains f.1).map Prod.fst).Nodup :=
    hnames.sublist (List.filter_sublist.map _)
  have hmem : (f.1, f.2) ∈ e.fields.filter fun f => !droppedFields.contains f.1 :=
    List.mem_filter.mpr ⟨hf, by simpa using hkept⟩
  rw [field?_line, Pairs.lookup_foldl_put hnodup, (Pairs.lookup_eq_some_iff hnodup).mpr hmem]
  rfl

/-- Under a name that no field has, or that is dropped, there is what the line begins with. -/
theorem field?_line_of_not_mem (h : name ∉ e.names ∨ name ∈ droppedFields) :
    e.line.field? name = Pairs.lookup name e.head := by
  rw [field?_line, Pairs.lookup_foldl_put_of_not_mem]
  intro hmem
  obtain ⟨f, hf, rfl⟩ := List.mem_map.mp hmem
  obtain ⟨hfield, hkept⟩ := List.mem_filter.mp hf
  rcases h with hname | hdropped
  · exact hname (List.mem_map_of_mem hfield)
  · simp [hdropped] at hkept

/-- The level of an event always stands on its line. -/
theorem level_line (e : Event) : e.line.field? "level" = some (.str e.level.name) :=
  field?_line_of_not_mem (.inr (by decide))

/-- A field that is bound is on the line, unless the event names it itself. -/
theorem field?_line_bind (hname : name ∉ e.names) (hkept : name ∉ droppedFields) (value : Value) :
    (e.bind [(name, value)]).line.field? name = some value := by
  have hfields : (e.bind [(name, value)]).fields = e.fields ++ [(name, value)] := by
    simp [bind, hname]
  have hfilter : ((e.bind [(name, value)]).fields.filter fun f => !droppedFields.contains f.1) =
      (e.fields.filter fun f => !droppedFields.contains f.1) ++ [(name, value)] := by
    rw [hfields, List.filter_append, List.filter_cons_of_pos (by simpa using hkept),
      List.filter_nil]
  rw [field?_line, hfilter, List.foldl_append, List.foldl_cons, List.foldl_nil, Pairs.lookup_put,
    if_pos rfl]

/-- The names of the fields that every line begins with. -/
def headFields : List String := ["level", "logger", "message"]

/-- Any other field is on the line exactly if the event names it. -/
theorem isSome_field?_line (hhead : name ∉ headFields) (hkept : name ∉ droppedFields) :
    (e.line.field? name).isSome = true ↔ name ∈ e.names := by
  have hnames : name ∈ (e.fields.filter fun f => !droppedFields.contains f.1).map Prod.fst ↔
      name ∈ e.names := by
    rw [names, List.mem_map, List.mem_map]
    constructor
    · rintro ⟨f, hf, rfl⟩
      exact ⟨f, (List.mem_filter.mp hf).1, rfl⟩
    · rintro ⟨f, hf, rfl⟩
      exact ⟨f, List.mem_filter.mpr ⟨hf, by simpa using hkept⟩, rfl⟩
  rw [field?_line, Option.isSome_iff_ne_none, Ne, Pairs.lookup_eq_none_iff, Decidable.not_not,
    Pairs.mem_keys_foldl_put, hnames]
  exact or_iff_right hhead

/-! ### Events that nothing is against -/

/-- Without reserved names no field is at fault. -/
theorem reservedFault?_eq_none (h : ∀ name ∈ e.names, name ∉ reservedFields) :
    e.reservedFault? = none := by
  rw [reservedFault?, Option.map_eq_none_iff, List.find?_eq_none]
  intro f hf
  have hname := h f.1 (List.mem_map_of_mem hf)
  simpa using hname

/-- Without fields that have to be texts the console finds no fault. -/
theorem consoleFault?_eq_none (h : ∀ name ∈ e.names, name ∉ textFields) :
    e.consoleFault? = none := by
  rw [consoleFault?, Option.map_eq_none_iff, List.find?_eq_none]
  intro name hname
  have hlookup : Pairs.lookup name e.fields = none :=
    (Pairs.lookup_eq_none_iff name e.fields).mpr fun hmem => h name hmem hname
  simp [isTextOrNull, hlookup]

end Log.Event
end PlotGraph
