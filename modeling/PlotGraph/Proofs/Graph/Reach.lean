import PlotGraph.Graph.Reach
import PlotGraph.Proofs.Graph.Path

/-!
# Reachable nodes are found

While nodes are expanded, everything that is reached or waits can be reached from the roots,
and whatever an expanded node is joined to is reached or waits (`Graph.Expanding`). When no
node waits any longer the reached ones are therefore closed under joining, and they are
exactly the nodes that a path leads to (`mem_reachableFrom_iff`).
-/

namespace PlotGraph
namespace Graph

variable {g : Graph} {roots reached : List String} {waiting : List g.Key}

/-- The invariant of the expansion of nodes. -/
structure Expanding (g : Graph) (roots reached : List String) (waiting : List g.Key) :
    Prop where
  nodup : reached.Nodup
  reachable : ∀ v ∈ reached, g.Reachable roots v
  waits : ∀ k ∈ waiting, g.Reachable roots k.val
  roots_mem : ∀ r ∈ roots, g.hasNode r = true → r ∈ reached ∨ r ∈ waiting.map Subtype.val
  closed : ∀ u ∈ reached, ∀ v, g.Joined u v → v ∈ reached ∨ v ∈ waiting.map Subtype.val

/-- A node that has been expanded already need not wait. -/
theorem Expanding.drop {key : g.Key} (h : g.Expanding roots reached (key :: waiting))
    (hkey : key.val ∈ reached) : g.Expanding roots reached waiting := by
  have hshift : ∀ v, v ∈ reached ∨ v ∈ (key :: waiting).map Subtype.val →
      v ∈ reached ∨ v ∈ waiting.map Subtype.val := by
    intro v hv
    rcases hv with hv | hv
    · exact Or.inl hv
    · rcases List.mem_cons.mp hv with rfl | hv
      · exact Or.inl hkey
      · exact Or.inr hv
  refine ⟨h.nodup, h.reachable, ?_, ?_, ?_⟩
  · exact fun k hk => h.waits k (List.mem_cons_of_mem key hk)
  · exact fun r hr hnode => hshift r (h.roots_mem r hr hnode)
  · exact fun u hu v huv => hshift v (h.closed u hu v huv)

/-- A node is expanded: what it is joined to waits, unless it has been expanded. -/
theorem Expanding.expandKey {key : g.Key} {targets : List g.Key}
    (h : g.Expanding roots reached (key :: waiting)) (hnew : key.val ∉ reached)
    (htargets : ∀ k : g.Key, k ∈ targets ↔
      g.Joined key.val k.val ∧ k.val ∉ key.val :: reached) :
    g.Expanding roots (key.val :: reached) (targets ++ waiting) := by
  have hkey : g.Reachable roots key.val := h.waits key List.mem_cons_self
  -- what waited waits on, but for the node in hand, which is reached now
  have hshift : ∀ v, v ∈ reached ∨ v ∈ (key :: waiting).map Subtype.val →
      v ∈ key.val :: reached ∨ v ∈ (targets ++ waiting).map Subtype.val := by
    intro v hv
    rw [List.map_append, List.mem_append]
    rcases hv with hv | hv
    · exact Or.inl (List.mem_cons_of_mem _ hv)
    · rcases List.mem_cons.mp hv with rfl | hv
      · exact Or.inl List.mem_cons_self
      · exact Or.inr (Or.inr hv)
  refine ⟨List.nodup_cons.mpr ⟨hnew, h.nodup⟩, ?_, ?_, ?_, ?_⟩
  · exact List.forall_mem_cons.mpr ⟨hkey, h.reachable⟩
  · intro k hk
    rcases List.mem_append.mp hk with hk | hk
    · exact hkey.step ((htargets k).mp hk).1
    · exact h.waits k (List.mem_cons_of_mem key hk)
  · exact fun r hr hnode => hshift r (h.roots_mem r hr hnode)
  · intro u hu v huv
    rcases List.mem_cons.mp hu with rfl | hu
    · by_cases hv : v ∈ key.val :: reached
      · exact Or.inl hv
      · have hmem := (htargets ⟨v, huv.hasNode⟩).mpr ⟨huv, hv⟩
        exact Or.inr (List.mem_map.mpr ⟨_, List.mem_append_left _ hmem, rfl⟩)
    · exact hshift v (h.closed u hu v huv)

/-- The expansion goes on until no node waits. -/
theorem Expanding.expand (h : g.Expanding roots reached waiting) :
    g.Expanding roots (g.expand g.edgesAt reached waiting) [] := by
  induction reached, waiting using Graph.expand.induct g g.edgesAt with
  | case1 reached =>
      rw [Graph.expand]
      exact h
  | case2 reached key waiting hmem ih =>
      rw [Graph.expand, if_pos hmem]
      exact ih (h.drop hmem)
  | case3 reached key waiting hnew targets reached' ih =>
      rw [Graph.expand, if_neg hnew]
      apply ih
      apply h.expandKey hnew
      intro k
      rw [List.mem_reverse, List.mem_filter, joined_iff key.property]
      simp only [targets, reached', List.mem_map, Bool.not_eq_true', List.contains_eq_mem,
        decide_eq_false_iff_not]
      refine and_congr_left fun _ => exists_congr fun e => and_congr_right fun _ => ?_
      exact Subtype.ext_iff

/-- When the expansion is over, nothing is left to expand. -/
theorem expanding_reachableFrom (g : Graph) (roots : List String) :
    g.Expanding roots (g.reachableFrom roots) [] := by
  apply Expanding.expand
  refine ⟨List.nodup_nil, by simp, ?_, ?_, by simp⟩
  · intro k hk
    have hk' : k.val ∈ roots := mem_presentKeys.mp (List.mem_reverse.mp hk)
    exact ⟨[k.val], .single hk' k.property, rfl⟩
  · intro r hr hnode
    right
    rw [List.map_reverse, List.mem_reverse]
    exact mem_map_presentKeys.mpr ⟨hr, hnode⟩

/-- The nodes found are exactly those that a path from the roots leads to. -/
theorem mem_reachableFrom_iff {v : String} :
    v ∈ g.reachableFrom roots ↔ g.Reachable roots v := by
  have hdone := g.expanding_reachableFrom roots
  refine ⟨hdone.reachable v, ?_⟩
  intro h
  apply h.of_closed
  · intro r hr hnode
    exact (hdone.roots_mem r hr hnode).resolve_right (by simp)
  · intro u w hu huw
    exact (hdone.closed u hu w huw).resolve_right (by simp)

/-- Nothing is reached twice. -/
theorem nodup_reachableFrom (g : Graph) (roots : List String) : (g.reachableFrom roots).Nodup :=
  (g.expanding_reachableFrom roots).nodup

end Graph
end PlotGraph
