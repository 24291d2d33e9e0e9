import PlotGraph.Report.Wire
import Mathlib.Data.List.Perm.Subperm
import Mathlib.Data.Option.Basic

/-!
# What the wire shape tells apart

In the wire shape a field without a value is left out, an empty text is kept, and of a fix the
action is dropped. All else that a finding is made of can be read back from the fields that are
there, in whatever order they stand (`Tells`). So two reports have the same wire shape
exactly if they agree (`Report.alike_toValue_iff`).
-/

namespace PlotGraph

/-! ### Values up to the order of fields -/

namespace Value

mutual

/-- Whether two values are the same but for the order in which their objects have their fields. -/
def alike : Value → Value → Bool
  | arr as, arr bs => alikeItems as bs
  | obj fs, obj gs => fs.length == gs.length && alikeFields fs gs
  | arr _, _ | obj _, _ => false
  | v, w => v == w

/-- Whether two lists of values are alike item by item. -/
def alikeItems : List Value → List Value → Bool
  | [], [] => true
  | a :: as, b :: bs => alike a b && alikeItems as bs
  | _, _ => false

/-- Whether each field of the first list has one that is alike in the second. -/
def alikeFields : List (String × Value) → List (String × Value) → Bool
  | [], _ => true
  | (name, v) :: fs, gs =>
    (match Pairs.lookup name gs with
      | some w => alike v w
      | none => false) && alikeFields fs gs

end

variable {v w : Value} {fs gs : List (String × Value)}

theorem alike_bool_iff {b c : Bool} : (bool b).alike (bool c) = true ↔ b = c := by
  simp [alike]

theorem alike_str_iff {s t : String} : (str s).alike (str t) = true ↔ s = t := by
  simp [alike]

theorem alike_arr_iff {as bs : List Value} :
    (arr as).alike (arr bs) = true ↔ alikeItems as bs = true := by
  rw [alike]

/-- Fields are alike if each of them has one alike under its name. -/
theorem alikeFields_iff : alikeFields fs gs = true ↔
    ∀ f ∈ fs, ∃ w, Pairs.lookup f.1 gs = some w ∧ f.2.alike w = true := by
  induction fs with
  | nil => simp [alikeFields]
  | cons f rest ih =>
      obtain ⟨name, v⟩ := f
      rw [alikeFields, Bool.and_eq_true, ih, List.forall_mem_cons]
      refine and_congr_left fun _ => ?_
      cases Pairs.lookup name gs with
      | none => simp
      | some w => simp

/-! ### Records -/

/-- An object whose fields have distinct names, and values that are alike themselves. -/
def IsRecord (v : Value) : Prop :=
  ∃ fs, v = obj fs ∧ (fs.map Prod.fst).Nodup ∧ ∀ f ∈ fs, f.2.alike f.2 = true

/-- Two optional values are alike, or there is none. -/
def AlikeIfAny : Option Value → Option Value → Prop := Option.Rel fun a b => a.alike b = true

/-- A record is alike to itself. -/
theorem IsRecord.alike_self (h : v.IsRecord) : v.alike v = true := by
  obtain ⟨fs, rfl, hnodup, hself⟩ := h
  rw [alike, Bool.and_eq_true, beq_iff_eq, alikeFields_iff]
  exact ⟨rfl, fun f hf => ⟨f.2, (Pairs.lookup_eq_some_iff hnodup).mpr hf, hself f hf⟩⟩

/-- Records that are alike have the same names, and under each name values that are alike. -/
theorem IsRecord.alikeIfAny_field? (hv : v.IsRecord) (hw : w.IsRecord) (h : v.alike w = true)
    (name : String) : AlikeIfAny (v.field? name) (w.field? name) := by
  obtain ⟨fs, rfl, hfs, -⟩ := hv
  obtain ⟨gs, rfl, hgs, -⟩ := hw
  rw [alike, Bool.and_eq_true, beq_iff_eq, alikeFields_iff] at h
  obtain ⟨hlength, hfields⟩ := h
  have hsubset : fs.map Prod.fst ⊆ gs.map Prod.fst := by
    intro key hkey
    obtain ⟨f, hf, rfl⟩ := List.mem_map.mp hkey
    obtain ⟨w, hw, -⟩ := hfields f hf
    by_contra hnone
    rw [(Pairs.lookup_eq_none_iff f.1 gs).mpr hnone] at hw
    cases hw
  -- as many names, all of them among the others, leave no other one over
  have hperm : (fs.map Prod.fst).Perm (gs.map Prod.fst) :=
    (List.subperm_of_subset hfs hsubset).perm_of_length_le (by simp [hlength])
  show AlikeIfAny (Pairs.lookup name fs) (Pairs.lookup name gs)
  cases hlookup : Pairs.lookup name fs with
  | some a =>
      obtain ⟨b, hb, halike⟩ := hfields (name, a) ((Pairs.lookup_eq_some_iff hfs).mp hlookup)
      rw [hb]
      exact .some halike
  | none =>
      rw [Pairs.lookup_eq_none_iff, hperm.mem_iff] at hlookup
      rw [(Pairs.lookup_eq_none_iff name gs).mpr hlookup]
      exact .none

theorem alikeIfAny_some_iff : AlikeIfAny (some v) (some w) ↔ v.alike w = true :=
  Option.rel_some_some

/-! ### What a shape tells -/

section Tells

variable {α β : Type} {shape : α → Value} {core : α → β}

/-- Shapes that are alike have the same core: the core can be read back from the fields of a
shape, which is made of nothing else. -/
structure Tells (shape : α → Value) (core : α → β) : Prop where
  record : ∀ x, (shape x).IsRecord
  made : ∀ x y, core x = core y → shape x = shape y
  read : ∀ x y, (∀ name, AlikeIfAny ((shape x).field? name) ((shape y).field? name)) →
    core x = core y

/-- Shapes are alike exactly if they tell the same. -/
theorem Tells.alike_iff (h : Tells shape core) (x y : α) :
    (shape x).alike (shape y) = true ↔ core x = core y := by
  constructor
  · intro halike
    exact h.read x y ((h.record x).alikeIfAny_field? (h.record y) halike)
  · intro hcore
    rw [h.made x y hcore]
    exact (h.record y).alike_self

/-- Shapes that tell the same are equal. -/
theorem Tells.eq_iff (h : Tells shape core) (x y : α) : shape x = shape y ↔ core x = core y := by
  refine ⟨fun hshape => ?_, h.made x y⟩
  rw [← h.alike_iff, hshape]
  exact (h.record y).alike_self

/-- Lists of shapes are alike exactly if they tell the same, one by one. -/
theorem Tells.alikeItems_iff (h : Tells shape core) (xs ys : List α) :
    alikeItems (xs.map shape) (ys.map shape) = true ↔ xs.map core = ys.map core := by
  induction xs generalizing ys with
  | nil => cases ys <;> simp [alikeItems]
  | cons x rest ih =>
      cases ys with
      | nil => simp [alikeItems]
      | cons y others => simp [alikeItems, h.alike_iff, ih]

/-- Lists of shapes that tell the same are equal. -/
theorem Tells.map_congr (h : Tells shape core) {xs ys : List α}
    (hcore : xs.map core = ys.map core) : xs.map shape = ys.map shape := by
  rw [← List.forall₂_eq_eq_eq, List.forall₂_map_left_iff, List.forall₂_map_right_iff] at hcore ⊢
  exact hcore.imp h.made

/-- Optional fields are alike exactly if what they are made of has the same core. -/
theorem alikeIfAny_map_iff (h : ∀ x y, (shape x).alike (shape y) = true ↔ core x = core y)
    (a b : Option α) : AlikeIfAny (a.map shape) (b.map shape) ↔ a.map core = b.map core := by
  cases a with
  | none =>
      cases b with
      | none => exact iff_of_true .none rfl
      | some y => exact iff_of_false nofun nofun
  | some x =>
      cases b with
      | none => exact iff_of_false nofun nofun
      | some y => simp [alikeIfAny_some_iff, h]

theorem alikeIfAny_texts_iff {a b : Option String} :
    AlikeIfAny (a.map str) (b.map str) ↔ a = b := by
  have htext : ∀ s t, (str s).alike (str t) = true ↔ id s = id t := fun _ _ => alike_str_iff
  simpa using alikeIfAny_map_iff htext a b

end Tells
end Value

/-! ### Findings -/

open Value (Tells alikeIfAny_some_iff alikeIfAny_texts_iff alikeIfAny_map_iff alike_str_iff)

/-- The shape of a fix tells all of it but whether there is an action. -/
theorem Fix.tells : Tells Fix.toValue fun f => { f with hasAction := false } where
  record f := ⟨_, rfl, by simp, by simp [Value.alike]⟩
  made f f' h := by
    simp only [mk.injEq] at h
    rw [toValue, toValue, h.1, h.2.1]
  read f f' h := by
    have hdescription := h "description"
    have hautoFixable := h "autoFixable"
    simp [toValue, Pairs.lookup, alikeIfAny_some_iff, Value.alike]
      at hdescription hautoFixable
    simp [hdescription, hautoFixable]

/-- What stands under the names of the shape of a defect. -/
theorem Defect.field?_toValue (d : Defect) :
    d.toValue.field? "code" = some (.str d.code) ∧
    d.toValue.field? "message" = some (.str d.message) ∧
    d.toValue.field? "plainMessage" = some (.str d.plainMessage) ∧
    d.toValue.field? "nodeId" = d.nodeId.map .str ∧
    d.toValue.field? "connectionId" = d.connectionId.map .str ∧
    d.toValue.field? "severity" = some (.str d.severity.word) ∧
    d.toValue.field? "fix" = d.fix.map (·.toValue) := by
  simp [toValue, Pairs.lookup_append, Pairs.lookup]

/-- The shape of a defect tells all of it but whether its fix has an action. -/
theorem Defect.tells : Tells Defect.toValue Report.withoutAction where
  record d := by
    have hfix := fun f => (Fix.tells.record f).alike_self
    refine ⟨_, rfl, ?_, ?_⟩ <;>
      cases d.nodeId <;> cases d.connectionId <;> cases d.fix <;>
      simp [Value.optionalText, Value.optionalField, Value.alike, hfix]
  made d d' h := by
    have hwithout : ∀ d, (Report.withoutAction d).toValue = d.toValue := by
      intro d
      rw [toValue, toValue, Report.withoutAction, Option.map_map]
      rfl
    rw [← hwithout d, h, hwithout]
  read d d' h := by
    have hcode := h "code"
    have hmessage := h "message"
    have hplain := h "plainMessage"
    have hnode := h "nodeId"
    have hconnection := h "connectionId"
    have hseverity := h "severity"
    have hfix := h "fix"
    simp only [field?_toValue, alikeIfAny_some_iff, alikeIfAny_texts_iff, alike_str_iff,
      alikeIfAny_map_iff Fix.tells.alike_iff]
      at hcode hmessage hplain hnode hconnection hseverity hfix
    simp only [Report.withoutAction, mk.injEq]
    exact ⟨hcode, hmessage, hplain, congrArg Severity.mk hseverity, hnode, hconnection, hfix⟩

/-- What stands under the names of the shape of a warning. -/
theorem Warning.field?_toValue (w : Warning) :
    w.toValue.field? "code" = some (.str w.code) ∧
    w.toValue.field? "message" = some (.str w.message) ∧
    w.toValue.field? "plainMessage" = some (.str w.plainMessage) ∧
    w.toValue.field? "nodeId" = w.nodeId.map .str ∧
    w.toValue.field? "connectionId" = w.connectionId.map .str ∧
    w.toValue.field? "suggestion" = w.suggestion.map .str := by
  simp [toValue, Pairs.lookup_append, Pairs.lookup]

/-- The shape of a warning tells all of it. -/
theorem Warning.tells : Tells Warning.toValue id where
  record w := by
    refine ⟨_, rfl, ?_, ?_⟩ <;>
      cases w.nodeId <;> cases w.connectionId <;> cases w.suggestion <;>
      simp [Value.optionalText, Value.optionalField, Value.alike]
  made w w' h := congrArg toValue h
  read w w' h := by
    have hcode := h "code"
    have hmessage := h "message"
    have hplain := h "plainMessage"
    have hnode := h "nodeId"
    have hconnection := h "connectionId"
    have hsuggestion := h "suggestion"
    simp only [field?_toValue, alikeIfAny_some_iff, alikeIfAny_texts_iff, alike_str_iff]
      at hcode hmessage hplain hnode hconnection hsuggestion
    cases w
    cases w'
    simp only [id, mk.injEq]
    exact ⟨hcode, hmessage, hplain, hnode, hconnection, hsuggestion⟩

/-- What stands under the names of the shape of a note. -/
theorem Note.field?_toValue (n : Note) :
    n.toValue.field? "code" = some (.str n.code) ∧
    n.toValue.field? "message" = some (.str n.message) ∧
    n.toValue.field? "nodeId" = n.nodeId.map .str := by
  simp [toValue, Pairs.lookup]

/-- The shape of a note tells all of it. -/
theorem Note.tells : Tells Note.toValue id where
  record n := by
    refine ⟨_, rfl, ?_, ?_⟩ <;> cases n.nodeId <;>
      simp [Value.optionalText, Value.optionalField, Value.alike]
  made n n' h := congrArg toValue h
  read n n' h := by
    have hcode := h "code"
    have hmessage := h "message"
    have hnode := h "nodeId"
    simp only [field?_toValue, alikeIfAny_some_iff, alikeIfAny_texts_iff, alike_str_iff]
      at hcode hmessage hnode
    cases n
    cases n'
    simp only [id, mk.injEq]
    exact ⟨hcode, hmessage, hnode⟩

/-- What stands under the names of the shape of a suggestion. -/
theorem Suggestion.field?_toValue (s : Suggestion) :
    s.toValue.field? "type" = some (.str s.kind.word) ∧
    s.toValue.field? "message" = some (.str s.message) ∧
    s.toValue.field? "nodeId" = s.nodeId.map .str ∧
    s.toValue.field? "action" = s.action.map .str := by
  simp [toValue, Pairs.lookup_append, Pairs.lookup]

/-- The shape of a suggestion tells all of it. -/
theorem Suggestion.tells : Tells Suggestion.toValue id where
  record s := by
    refine ⟨_, rfl, ?_, ?_⟩ <;> cases s.nodeId <;> cases s.action <;>
      simp [Value.optionalText, Value.optionalField, Value.alike]
  made s s' h := congrArg toValue h
  read s s' h := by
    have hkind := h "type"
    have hmessage := h "message"
    have hnode := h "nodeId"
    have haction := h "action"
    simp only [field?_toValue, alikeIfAny_some_iff, alikeIfAny_texts_iff, alike_str_iff]
      at hkind hmessage hnode haction
    cases s
    cases s'
    simp only [id, mk.injEq]
    exact ⟨congrArg SuggestionKind.mk hkind, hmessage, hnode, haction⟩

/-! ### Reports -/

namespace Report

/-- What stands under the names of the shape of a report. -/
theorem field?_toValue (r : Report) :
    r.toValue.field? "valid" = some (.bool r.valid) ∧
    r.toValue.field? "errors" = some (.arr (r.errors.map (·.toValue))) ∧
    r.toValue.field? "warnings" = some (.arr (r.warnings.map (·.toValue))) ∧
    r.toValue.field? "info" = some (.arr (r.notes.map (·.toValue))) ∧
    r.toValue.field? "suggestions" = some (.arr (r.suggestions.map (·.toValue))) := by
  simp [toValue, Pairs.lookup]

/-- A report is told by its wire shape but for the actions of fixes. -/
theorem tells : Tells toValue fun r => { r with errors := r.errors.map withoutAction } where
  record r := by
    refine ⟨_, rfl, by simp, ?_⟩
    simp [Value.alike, Defect.tells.alikeItems_iff, Warning.tells.alikeItems_iff,
      Note.tells.alikeItems_iff, Suggestion.tells.alikeItems_iff]
  made r r' h := by
    simp only [mk.injEq] at h
    obtain ⟨hvalid, herrors, hwarnings, hnotes, hsuggestions⟩ := h
    rw [toValue, toValue, hvalid, Defect.tells.map_congr herrors, hwarnings, hnotes, hsuggestions]
  read r r' h := by
    have hvalid := h "valid"
    have herrors := h "errors"
    have hwarnings := h "warnings"
    have hnotes := h "info"
    have hsuggestions := h "suggestions"
    simp only [field?_toValue, alikeIfAny_some_iff, Value.alike_bool_iff, Value.alike_arr_iff,
      Defect.tells.alikeItems_iff, Warning.tells.alikeItems_iff, Note.tells.alikeItems_iff,
      Suggestion.tells.alikeItems_iff, List.map_id]
      at hvalid herrors hwarnings hnotes hsuggestions
    simp only [mk.injEq]
    exact ⟨hvalid, herrors, hwarnings, hnotes, hsuggestions⟩

/-- **The wire shape tells two reports apart exactly if they differ.** The wire shapes of two
reports are the same, or the same up to the order in which objects have their fields, exactly if
the reports agree: in their validity and in all findings, in order and part by part, whether an
optional part is absent, empty or given, and whatever the actions of fixes are. -/
theorem alike_toValue_iff (r r' : Report) :
    (r.toValue.alike r'.toValue = true ↔ r.agrees r' = true) ∧
      (r.toValue = r'.toValue ↔ r.agrees r' = true) := by
  rw [tells.alike_iff, tells.eq_iff, agrees, beq_iff_eq]
  exact ⟨Iff.rfl, Iff.rfl⟩

end Report
end PlotGraph
