import PlotGraph.Check.Suggestion
import PlotGraph.Proofs.Graph.Path
import PlotGraph.Proofs.Report

/-!
# Which actions are to be joined

An action is to be joined with the next one if the only connection that leaves it leads to an
action, whatever else is connected to either of them. The connection may also lead back to the
very node it leaves, which then is to be joined with itself: where there is no such node, two
different actions are meant each time (`Graph.joins_iff_no_lone_loop`).
-/

namespace PlotGraph
namespace Graph

/-! ### Actions and what leaves them -/

/-- An output or the setting of a variable stands under the key. -/
def HasAction (g : Graph) (key : String) : Prop :=
  ∃ n ∈ g.node? key, n.tag = "output" ∨ n.tag = "variable-set"

/-- No other connection leaves the source of this one, not even one that leads nowhere. -/
def IsOnlyExit (g : Graph) (c : Connection) : Prop :=
  (g.wires.filter fun d => d.source = c.source) = [c]

/-- An action stands under the key, and the only connection that leaves it leads to an action. -/
def HandsOn (g : Graph) (key : String) : Prop :=
  g.HasAction key ∧ ∃ c ∈ g.wires, c.source = key ∧ g.IsOnlyExit c ∧ g.HasAction c.target

/-- An action stands under the key, and the only connection that leaves it leads to another
action. -/
def HandsOnToAnother (g : Graph) (key : String) : Prop :=
  g.HasAction key ∧
    ∃ c ∈ g.wires, c.source = key ∧ g.IsOnlyExit c ∧ g.HasAction c.target ∧ c.target ≠ key

/-- An action stands under the key, and the only connection that leaves it leads back to it. -/
def LoopsAlone (g : Graph) (key : String) : Prop :=
  g.HasAction key ∧ ∃ c ∈ g.wires, c.source = key ∧ g.IsOnlyExit c ∧ c.target = key

instance (g : Graph) (key : String) : Decidable (g.HasAction key) :=
  inferInstanceAs (Decidable (∃ n ∈ g.node? key, _ ∨ _))

instance (g : Graph) (c : Connection) : Decidable (g.IsOnlyExit c) :=
  inferInstanceAs (Decidable (_ = _))

instance (g : Graph) (key : String) : Decidable (g.HandsOn key) :=
  inferInstanceAs (Decidable (_ ∧ ∃ c ∈ g.wires, _))

instance (g : Graph) (key : String) : Decidable (g.HandsOnToAnother key) :=
  inferInstanceAs (Decidable (_ ∧ ∃ c ∈ g.wires, _))

instance (g : Graph) (key : String) : Decidable (g.LoopsAlone key) :=
  inferInstanceAs (Decidable (_ ∧ ∃ c ∈ g.wires, _))

variable {g : Graph} {key : String} {c d : Connection}

/-- A key has one only exit at the most. -/
theorem IsOnlyExit.eq (hc : g.IsOnlyExit c) (hd : g.IsOnlyExit d) (h : c.source = d.source) :
    c = d := by
  rw [IsOnlyExit, h] at hc
  exact (List.cons.inj (hc.symm.trans hd)).1

/-- A key hands on to another, or it loops alone. -/
theorem handsOn_iff : g.HandsOn key ↔ g.HandsOnToAnother key ∨ g.LoopsAlone key := by
  constructor
  · rintro ⟨haction, c, hc, hsource, honly, htarget⟩
    by_cases hback : c.target = key
    · exact Or.inr ⟨haction, c, hc, hsource, honly, hback⟩
    · exact Or.inl ⟨haction, c, hc, hsource, honly, htarget, hback⟩
  · rintro (⟨haction, c, hc, hsource, honly, htarget, -⟩ | ⟨haction, c, hc, hsource, honly, rfl⟩)
    · exact ⟨haction, c, hc, hsource, honly, htarget⟩
    · exact ⟨haction, c, hc, hsource, honly, haction⟩

/-- It does not do both. -/
theorem HandsOnToAnother.not_loopsAlone (h : g.HandsOnToAnother key) : ¬ g.LoopsAlone key := by
  obtain ⟨-, c, -, hsource, honly, -, hne⟩ := h
  rintro ⟨-, d, -, hsource', honly', hback⟩
  obtain rfl := honly.eq honly' (hsource.trans hsource'.symm)
  exact hne hback

/-! ### What is suggested -/

theorem isFlowAction_iff (n : Node) :
    n.isFlowAction = true ↔ n.tag = "output" ∨ n.tag = "variable-set" := by
  simp [Node.isFlowAction, flowTags, NodeKind.tag]

theorem hasAction_iff :
    ((g.node? key).map (·.isFlowAction)).getD false = true ↔ g.HasAction key := by
  rw [HasAction]
  cases hnode : g.node? key with
  | none => simp
  | some n => simp [isFlowAction_iff]

/-- A key leads to an action exactly if its only exit does. -/
theorem leadsToAction_iff : g.leadsToAction g.outgoing key = true ↔
    ∃ c ∈ g.wires, c.source = key ∧ g.IsOnlyExit c ∧ g.HasAction c.target := by
  rw [leadsToAction, outgoing_getD]
  constructor
  · intro h
    split at h
    · next c hexits =>
        have hc : c ∈ g.wires.filter fun d => d.source = key := hexits ▸ List.mem_singleton_self c
        obtain ⟨hmem, hsource⟩ := List.mem_filter.mp hc
        obtain rfl := of_decide_eq_true hsource
        exact ⟨c, hmem, rfl, hexits, hasAction_iff.mp h⟩
    · cases h
  · rintro ⟨c, -, rfl, honly, haction⟩
    rw [IsOnlyExit] at honly
    rw [honly]
    exact hasAction_iff.mpr haction

/-- There is one suggestion for each key that hands on, in order. -/
theorem suggestJoins_eq (g : Graph) : g.suggestJoins.suggestions =
    (g.nodes.keys.filter fun key => g.HandsOn key).map joinSuggestion := by
  rw [suggestJoins, Mapping.keys, List.filter_map, List.map_map]
  show List.map _ (List.filter _ g.nodes.entries) = _
  refine congrArg _ (List.filter_congr fun e he => ?_)
  have haction : e.2.isFlowAction = true ↔ g.HasAction e.1 := by
    have hnode : g.node? e.1 = some e.2 := (g.nodes.get?_eq_some_iff e.1 e.2).mpr he
    rw [← hasAction_iff, hnode]
    rfl
  rw [Function.comp_apply, Bool.eq_iff_iff, Bool.and_eq_true, haction, leadsToAction_iff,
    decide_eq_true_iff]
  rfl

/-- The suggestion of comments is of another kind. -/
theorem filter_suggest (g : Graph) :
    (g.suggest.suggestions.filter fun s => s.kind = .simplification) =
      g.suggestJoins.suggestions := by
  have hjoins : ∀ s ∈ g.suggestJoins.suggestions, s.kind = .simplification := by
    rw [suggestJoins_eq, List.forall_mem_map]
    exact fun _ _ => rfl
  have hcomments : ∀ s ∈ g.suggestComments.suggestions, s.kind ≠ .simplification := by
    intro s hs
    rw [suggestComments, Report.when] at hs
    split at hs
    · rw [List.mem_singleton.mp hs]
      decide
    · cases hs
  rw [suggest, Report.suggestions_concat]
  simp only [List.flatMap_cons, List.flatMap_nil, List.append_nil, List.filter_append]
  rw [List.filter_eq_self.mpr fun s hs => decide_eq_true (hjoins s hs),
    List.filter_eq_nil_iff.mpr fun s hs h => hcomments s hs (of_decide_eq_true h), List.append_nil]

/-- A suggestion tells its key. -/
theorem joinSuggestion_injective {j k : String} (h : joinSuggestion j = joinSuggestion k) :
    j = k :=
  Option.some.inj (congrArg Suggestion.nodeId h)

/-- Only actions that loop alone are suggested to be joined with no other one. -/
theorem suggestJoins_eq_iff (g : Graph) :
    g.suggestJoins.suggestions =
      (g.nodes.keys.filter fun key => g.HandsOnToAnother key).map joinSuggestion ↔
      ¬ ∃ key ∈ g.nodes.keys, g.LoopsAlone key := by
  rw [suggestJoins_eq, List.map_inj_right fun _ _ => joinSuggestion_injective]
  constructor
  · rintro h ⟨key, hkey, hloop⟩
    have hmem : key ∈ g.nodes.keys.filter fun key => g.HandsOn key :=
      List.mem_filter.mpr ⟨hkey, decide_eq_true (handsOn_iff.mpr (Or.inr hloop))⟩
    rw [h, List.mem_filter, decide_eq_true_iff] at hmem
    exact hmem.2.not_loopsAlone hloop
  · intro h
    refine List.filter_congr fun key hkey => decide_eq_decide.mpr ?_
    exact handsOn_iff.trans (or_iff_left fun hloop => h ⟨key, hkey, hloop⟩)

/-- **An action is to be joined with what its only connection leads to.** For each key at which
an action stands that a single connection leaves, which leads to an action, there is one
suggestion to simplify the graph, in the order of the keys, and there are no others. Either the
connection leads to another action or back to the node itself; so all of them are about two
actions exactly if no action loops alone. -/
theorem joins_iff_no_lone_loop (g : Graph) :
    (g.suggest.suggestions.filter fun s => s.kind = .simplification) =
      ((g.nodes.keys.filter fun key => g.HandsOn key).map joinSuggestion) ∧
    (∀ key, g.HandsOn key ↔ g.HandsOnToAnother key ∨ g.LoopsAlone key) ∧
    ((g.suggest.suggestions.filter fun s => s.kind = .simplification) =
        (g.nodes.keys.filter fun key => g.HandsOnToAnother key).map joinSuggestion ↔
      ¬ ∃ key ∈ g.nodes.keys, g.LoopsAlone key) := by
  rw [filter_suggest]
  exact ⟨g.suggestJoins_eq, fun _ => handsOn_iff, g.suggestJoins_eq_iff⟩

/-- An output that leads back to itself and nowhere else. -/
def loneLoop : Graph where
  id := "g"
  nodes := .ofList [("a", { id := "a", tag := "output", config := .empty })]
  connections := .ofList [("c", { id := "c", source := "a", target := "a" })]

/-- The output is to be joined with itself. -/
theorem not_forall_joins_another :
    ¬ ∀ g : Graph, (g.suggest.suggestions.filter fun s => s.kind = .simplification) =
      (g.nodes.keys.filter fun key => g.HandsOnToAnother key).map joinSuggestion := by
  intro h
  have hjoins := h loneLoop
  rw [filter_suggest, suggestJoins_eq_iff] at hjoins
  revert hjoins
  decide

end Graph
end PlotGraph
