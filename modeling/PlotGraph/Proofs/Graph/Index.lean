import PlotGraph.Proofs.Graph.Path
import Mathlib.Data.List.Nodup

/-!
# What the indexes hold

Each index of the connections is built by one pass over them. Under a key it holds what the
connections themselves say: how many of them touch the key (`incident_getD`), how many have the
same ends and ports (`edgeCounts_getD`), or which of them leave the key, where there are any
(`mem_entries_outgoing`). The keys that connections leave stand where they are first seen
(`keys_outgoing`). The lists of one index and the counts of another are about the same
connections (`outgoing_and_incident`).
-/

namespace PlotGraph

/-- To count a key adds one to its count, and to no other. -/
theorem Mapping.getD_increment {κ : Type} [DecidableEq κ] (m : Mapping κ Nat) (key other : κ) :
    ((m.increment key).get? other).getD 0 =
      (m.get? other).getD 0 + if key = other then 1 else 0 := by
  rw [increment, get?_put]
  split
  · next h =>
      subst h
      rfl
  · rfl

namespace Graph

/-! ### Counts -/

/-- An index to whose count under a key each connection adds one or nothing ends with the
number of those that add one. -/
theorem foldl_getD {κ : Type} [DecidableEq κ] {key : κ} {p : Connection → Bool}
    {count : Mapping κ Nat → Connection → Mapping κ Nat}
    (hcount : ∀ m c, ((count m c).get? key).getD 0 =
      (m.get? key).getD 0 + if p c then 1 else 0)
    (cs : List Connection) (m : Mapping κ Nat) :
    ((cs.foldl count m).get? key).getD 0 = (m.get? key).getD 0 + cs.countP p := by
  induction cs generalizing m with
  | nil => rfl
  | cons c rest ih =>
      rw [List.foldl_cons, ih, hcount, List.countP_cons]
      omega

/-- The number of connections with the same ends and ports. -/
theorem edgeCounts_getD (g : Graph) (key : EdgeKey) :
    (g.edgeCounts.get? key).getD 0 = g.wires.countP fun c => c.edgeKey = key := by
  rw [edgeCounts, foldl_getD (p := fun c => c.edgeKey = key)]
  · exact Nat.zero_add _
  · intro m c
    rw [Mapping.getD_increment]
    simp only [decide_eq_true_eq]

/-- A connection counts once for each key that it touches. -/
theorem countEnds_getD (m : Mapping String Nat) (c : Connection) (key : String) :
    ((countEnds m c).get? key).getD 0 =
      (m.get? key).getD 0 + if c.source = key ∨ c.target = key then 1 else 0 := by
  rw [countEnds]
  split
  · next h =>
      rw [Mapping.getD_increment]
      simp only [h, or_self]
  · next h =>
      -- the two ends differ, so that at most one of the two counts grows
      rw [Mapping.getD_increment, Mapping.getD_increment]
      grind

/-- The number of connections that touch a key. -/
theorem incident_getD (g : Graph) (key : String) : (g.incident.get? key).getD 0 =
    g.wires.countP fun c => c.source = key ∨ c.target = key := by
  rw [incident, foldl_getD (p := fun c => c.source = key ∨ c.target = key)]
  · exact Nat.zero_add _
  · intro m c
    rw [countEnds_getD]
    simp only [decide_eq_true_eq]

/-! ### Outgoing connections -/

/-- What an index holds for a source is never empty. -/
theorem foldl_append_ne_nil (cs : List Connection) {index : Mapping String (List Connection)}
    (hindex : ∀ key found, index.get? key = some found → found ≠ []) :
    ∀ key found, (cs.foldl (fun m c => m.append c.source c) index).get? key = some found →
      found ≠ [] := by
  induction cs generalizing index with
  | nil => exact hindex
  | cons c rest ih =>
      apply ih
      intro key found hfound
      rw [Mapping.get?_append] at hfound
      split at hfound
      · cases hfound
        exact List.append_ne_nil_of_right_ne_nil _ (List.cons_ne_nil c [])
      · exact hindex key found hfound

/-- The index has an entry for every key that connections leave, with these in order. -/
theorem mem_entries_outgoing {g : Graph} {key : String} {cs : List Connection} :
    (key, cs) ∈ g.outgoing.entries ↔
      cs ≠ [] ∧ cs = g.wires.filter fun c => c.source = key := by
  have hgetD := g.outgoing_getD key
  -- a missing entry and an empty one would read the same, but no entry is empty
  have hne : ∀ found, g.outgoing.get? key = some found → found ≠ [] :=
    foldl_append_ne_nil g.wires (fun _ _ h => by cases h) key
  rw [← Mapping.get?_eq_some_iff, ← hgetD]
  cases hfound : g.outgoing.get? key with
  | none => simp
  | some found =>
      rw [Option.some.injEq, Option.getD_some]
      exact ⟨fun h => ⟨h ▸ hne found hfound, h.symm⟩, fun h => h.2.symm⟩

/-- The sources of connections, each with the number of connections that leave it. -/
def sourceCounts (g : Graph) : List (String × Nat) :=
  g.outgoing.entries.map fun e => (e.1, e.2.length)

theorem nodup_sourceCounts (g : Graph) : g.sourceCounts.Nodup := by
  apply List.Nodup.of_map Prod.fst
  rw [sourceCounts, List.map_map]
  exact g.outgoing.nodup

/-- Every source is counted, with the number of its connections. -/
theorem mem_sourceCounts {g : Graph} {key : String} {count : Nat} :
    (key, count) ∈ g.sourceCounts ↔
      count ≠ 0 ∧ count = g.wires.countP fun c => c.source = key := by
  rw [sourceCounts, List.mem_map, List.countP_eq_length_filter]
  constructor
  · rintro ⟨⟨source, cs⟩, hmem, heq⟩
    cases heq
    obtain ⟨hne, rfl⟩ := mem_entries_outgoing.mp hmem
    exact ⟨fun h => hne (List.length_eq_zero_iff.mp h), rfl⟩
  · rintro ⟨hne, rfl⟩
    refine ⟨(key, _), mem_entries_outgoing.mpr ⟨?_, rfl⟩, rfl⟩
    exact fun h => hne (List.length_eq_zero_iff.mpr h)

/-- The sources of connections, each where it is first seen. -/
def sources (g : Graph) : List String := (g.wires.map (·.source)).eraseDups

/-- New sources go behind the old ones, in the order in which they are first seen. -/
theorem keys_foldl_append (cs : List Connection) (index : Mapping String (List Connection)) :
    (cs.foldl (fun m c => m.append c.source c) index).keys =
      index.keys ++ ((cs.map (·.source)).filter fun key => key ∉ index.keys).eraseDups := by
  induction cs generalizing index with
  | nil => simp
  | cons c rest ih =>
      have hkeys : (index.append c.source c).keys =
          if c.source ∈ index.keys then index.keys else index.keys ++ [c.source] :=
        index.keys_put c.source _
      rw [List.foldl_cons, ih, hkeys, List.map_cons, List.filter_cons]
      by_cases hmem : c.source ∈ index.keys
      · simp only [hmem, if_true, not_true_eq_false, decide_false, Bool.false_eq_true, if_false]
      · simp only [hmem, if_false, not_false_eq_true, decide_true, if_true, List.eraseDups_cons,
          List.append_assoc, List.singleton_append, List.filter_filter]
        -- later sources are new if they differ from this one and from all before it
        congr 3
        apply List.filter_congr
        intro key _
        simp [and_comm, Bool.beq_eq_decide_eq]

/-- The keys of the index are the sources, in the order in which they are first seen. -/
theorem keys_outgoing (g : Graph) : g.outgoing.keys = g.sources := by
  rw [outgoing, keys_foldl_append, sources]
  simp [Mapping.keys]

/-- The sources are counted in the order in which they are first seen. -/
theorem sourceCounts_eq (g : Graph) : g.sourceCounts =
    g.sources.map fun key => (key, g.wires.countP fun c => c.source = key) := by
  rw [← keys_outgoing, Mapping.keys, List.map_map, sourceCounts]
  apply List.map_congr_left
  rintro ⟨key, cs⟩ hmem
  obtain ⟨-, rfl⟩ := mem_entries_outgoing.mp hmem
  exact Prod.ext rfl List.countP_eq_length_filter.symm

/-! ### All connections -/

end Graph

/-- An item that is added to the list under a key is added to all lists together. -/
theorem Pairs.flatten_put_perm {κ α : Type} [DecidableEq κ] (key : κ) (item : α)
    (ps : List (κ × List α)) :
    ((put key ((lookup key ps).getD [] ++ [item]) ps).map Prod.snd).flatten.Perm
      ((ps.map Prod.snd).flatten ++ [item]) := by
  induction ps with
  | nil => exact List.Perm.refl _
  | cons p rest ih =>
      obtain ⟨k, items⟩ := p
      rw [put, lookup]
      split
      · next hk =>
          simp only [Option.getD_some, List.map_cons, List.flatten_cons, List.append_assoc]
          exact List.perm_append_comm.append_left items
      · simp only [List.map_cons, List.flatten_cons, List.append_assoc]
        exact ih.append_left items

theorem Mapping.flatten_values_append_perm {κ α : Type} [DecidableEq κ]
    (m : Mapping κ (List α)) (key : κ) (item : α) :
    (m.append key item).values.flatten.Perm (m.values.flatten ++ [item]) :=
  Pairs.flatten_put_perm key item m.entries

namespace Graph

/-- All that an index holds is what was added to it. -/
theorem flatten_values_foldl_append_perm (cs : List Connection)
    (index : Mapping String (List Connection)) :
    (cs.foldl (fun m c => m.append c.source c) index).values.flatten.Perm
      (index.values.flatten ++ cs) := by
  induction cs generalizing index with
  | nil =>
      rw [List.append_nil]
      exact List.Perm.refl _
  | cons c rest ih =>
      have hc := (index.flatten_values_append_perm c.source c).append_right rest
      rw [List.append_assoc] at hc
      exact (ih _).trans hc

/-- A connection touches a key if it leaves it, or leads into it from elsewhere. -/
theorem countP_touches (cs : List Connection) (key : String) :
    (cs.countP fun c => c.source = key ∨ c.target = key) =
      (cs.countP fun c => c.source = key) +
        cs.countP fun c => c.target = key ∧ c.source ≠ key := by
  induction cs with
  | nil => rfl
  | cons c rest ih =>
      rw [List.countP_cons, List.countP_cons, List.countP_cons, ih]
      by_cases hsource : c.source = key
      · simp only [hsource, true_or, decide_true, if_true, ne_eq, not_true_eq_false, and_false,
          decide_false, Bool.false_eq_true, if_false]
        omega
      · simp only [hsource, false_or, decide_false, Bool.false_eq_true, if_false, ne_eq,
          not_false_eq_true, and_true]
        omega

/-- **The indexes hold what the connections say.** The index of outgoing connections has the
sources of connections for its keys, each where it is first seen; the list under a key is not
empty and has the connections that leave it, in order; and all lists together hold every
connection as often as the graph does. The count under a key is the number of connections that
have it at either end, those with both ends there once; so it is the number of those that leave
it, and of those that lead into it from another one. -/
theorem outgoing_and_incident (g : Graph) :
    g.outgoing.keys = (g.wires.map (·.source)).eraseDups ∧
    (∀ key cs, (key, cs) ∈ g.outgoing.entries ↔
      cs ≠ [] ∧ cs = g.wires.filter fun c => c.source = key) ∧
    g.outgoing.values.flatten.Perm g.wires ∧
    (∀ key, g.incidentAt key = g.wires.countP fun c => c.source = key ∨ c.target = key) ∧
    ∀ key, g.incidentAt key = (g.outgoingAt key).length +
      g.wires.countP fun c => c.target = key ∧ c.source ≠ key := by
  refine ⟨g.keys_outgoing, fun _ _ => mem_entries_outgoing, ?_, g.incident_getD, ?_⟩
  · exact flatten_values_foldl_append_perm g.wires {}
  · intro key
    rw [incidentAt, incident_getD, countP_touches, outgoingAt, outgoing_getD,
      List.countP_eq_length_filter]

end Graph
end PlotGraph
