import PlotGraph.Proofs.Check.Connection
import PlotGraph.Proofs.Graph.Index
import PlotGraph.Proofs.Validator.Codes
import Mathlib.Algebra.BigOperators.Group.List.Lemmas
import Mathlib.Algebra.GroupWithZero.Nat
import Mathlib.Data.List.Dedup

/-!
# Connections that repeat one another

The check of a connection compares it with all others by one look at an index. What it finds is
said here without the index: a connection is reported as a duplicate if another one, under
another key, has the same ends and ports, so that a group of connections that repeat one another
is reported once for each of them and a single report never comes alone
(`Graph.duplicates_and_faults`).

The other faults of a connection do not depend on that, nor on one another.
-/

namespace PlotGraph

/-- A member of a list without repetitions is not the only one with a property exactly if more
than one has it. -/
theorem one_lt_countP_iff {α : Type} [DecidableEq α] {xs : List α} (hnodup : xs.Nodup)
    {p : α → Bool} {x : α} (hx : x ∈ xs) (hp : p x = true) :
    1 < xs.countP p ↔ ∃ y ∈ xs, y ≠ x ∧ p y = true := by
  rw [(List.perm_cons_erase hx).countP_eq, List.countP_cons_of_pos hp, Nat.lt_add_left_iff_pos,
    List.countP_pos_iff]
  simp only [hnodup.mem_erase_iff, and_assoc, and_left_comm]

/-- Numbers of which each is at least two do not add up to one. -/
theorem sum_ne_one {ns : List Nat} (h : ∀ n ∈ ns, 2 ≤ n) : ns.sum ≠ 1 := by
  cases ns with
  | nil => decide
  | cons n rest =>
      have hn := h n List.mem_cons_self
      rw [List.sum_cons]
      omega

/-! ### Copies -/

/-- Two connections have the same ends and the same ports; a port that is absent is only the
same as another one that is. -/
structure Connection.Copies (c d : Connection) : Prop where
  source : c.source = d.source
  target : c.target = d.target
  sourcePort : c.sourcePort = d.sourcePort
  targetPort : c.targetPort = d.targetPort

/-- A connection copies another exactly if both have the same edge key. -/
theorem Connection.copies_iff {c d : Connection} : c.Copies d ↔ c.edgeKey = d.edgeKey := by
  rw [edgeKey, edgeKey, EdgeKey.mk.injEq]
  exact ⟨fun h => ⟨h.source, h.target, h.sourcePort, h.targetPort⟩,
    fun h => ⟨h.1, h.2.1, h.2.2.1, h.2.2.2⟩⟩

instance (c d : Connection) : Decidable (c.Copies d) :=
  decidable_of_iff _ Connection.copies_iff.symm

namespace Graph

/-- Under another key stands a copy of the connection. -/
def IsCopied (g : Graph) (e : String × Connection) : Prop :=
  ∃ other ∈ g.connections.entries, other.1 ≠ e.1 ∧ other.2.Copies e.2

instance (g : Graph) (e : String × Connection) : Decidable (g.IsCopied e) :=
  inferInstanceAs (Decidable (∃ other ∈ g.connections.entries, _ ∧ _))

/-- The connections, those that are copies of one another in one group. -/
def copyGroups (g : Graph) : List (List Connection) :=
  (g.wires.map (·.edgeKey)).dedup.map fun key => g.wires.filter fun c => c.edgeKey = key

/-- Entries with the same key are the same. -/
theorem eq_of_mem_entries {g : Graph} {e other : String × Connection}
    (he : e ∈ g.connections.entries) (hother : other ∈ g.connections.entries)
    (hkey : other.1 = e.1) : other = e :=
  List.inj_on_of_nodup_map g.connections.nodup hother he hkey

/-- A connection is copied exactly if its edge key is counted more than once. -/
theorem isCopied_iff {g : Graph} {e : String × Connection} (he : e ∈ g.connections.entries) :
    g.IsCopied e ↔ 1 < g.wires.countP fun c => c.edgeKey = e.2.edgeKey := by
  have hnodup : g.connections.entries.Nodup := .of_map Prod.fst g.connections.nodup
  rw [wires, Mapping.values, List.countP_map, one_lt_countP_iff hnodup he (by simp)]
  simp only [Function.comp_apply, decide_eq_true_eq, ← Connection.copies_iff]
  refine exists_congr fun other => and_congr_right fun hother => and_congr_left fun _ => ?_
  exact not_congr ⟨eq_of_mem_entries he hother, fun h => h ▸ rfl⟩

theorem count_edgeKeys (g : Graph) (key : EdgeKey) :
    (g.wires.map (·.edgeKey)).count key = g.wires.countP fun c => c.edgeKey = key := by
  rw [List.count, List.countP_map]
  exact List.countP_congr fun c _ => by simp

/-- The groups of copies are as large as their edge keys are counted. -/
theorem map_length_copyGroups (g : Graph) : g.copyGroups.map List.length =
    (g.wires.map (·.edgeKey)).dedup.map fun key => (g.wires.map (·.edgeKey)).count key := by
  rw [copyGroups, List.map_map]
  refine List.map_congr_left fun key _ => ?_
  rw [count_edgeKeys, List.countP_eq_length_filter]
  rfl

/-- The groups with more than one member hold the connections that have a copy. -/
theorem length_filter_isCopied (g : Graph) :
    (g.connections.entries.filter fun e => g.IsCopied e).length =
      ((g.copyGroups.map List.length).filter fun size => 2 ≤ size).sum := by
  let keys := g.wires.map (·.edgeKey)
  calc (g.connections.entries.filter fun e => g.IsCopied e).length
      = g.connections.entries.countP fun e => g.IsCopied e :=
        List.countP_eq_length_filter.symm
    _ = g.connections.entries.countP fun e => 2 ≤ keys.count e.2.edgeKey := by
        refine List.countP_congr fun e he => ?_
        rw [decide_eq_true_iff, decide_eq_true_iff, isCopied_iff he, count_edgeKeys]
        rfl
    _ = keys.countP fun key => 2 ≤ keys.count key := by
        rw [List.countP_map, wires, Mapping.values, List.countP_map]
        rfl
    _ = ((keys.dedup.filter fun key => 2 ≤ keys.count key).map fun key => keys.count key).sum :=
        (List.sum_map_count_dedup_filter_eq_countP _ keys).symm
    _ = ((g.copyGroups.map List.length).filter fun size => 2 ≤ size).sum := by
        rw [map_length_copyGroups, List.filter_map]
        rfl

end Graph

/-! ### What is reported -/

namespace Connection

/-- A connection is warned of as a duplicate exactly if its edge key is counted more than once. -/
theorem filter_warnings_check_duplicate (c : Connection) (g : Graph)
    (counts : Mapping EdgeKey Nat) :
    ((c.check g counts).warnings.filter fun w => w.code = "DUPLICATE_CONNECTION").map
      (·.connectionId) =
      if 1 < (counts.get? c.edgeKey).getD 0 then [anchor c.id] else [] := by
  have hwire : ((c.wireFinding? g wireCode).toList.filter
      fun w => w.code = "DUPLICATE_CONNECTION") = [] := by
    rw [← warnings_checkWire]
    apply Report.filter_warnings_eq_nil_of_not_mem
    intro h
    have hcode := c.codes_checkWire_subset g wireCode h
    simp [wireCode] at hcode
  rw [warnings_check, List.filter_append, hwire, List.append_nil, checkDuplicate,
    Report.warnings_when_ofWarning]
  simp only [decide_eq_true_eq]
  split
  · rfl
  · rfl

end Connection

namespace Graph

/-- The warnings about duplicates are those for copied connections, in order. -/
theorem duplicate_warnings (g : Graph) :
    (g.checkConnections.warnings.filter fun w => w.code = "DUPLICATE_CONNECTION").map
      (·.connectionId) =
      (g.connections.entries.filter fun e => g.IsCopied e).map fun e => anchor e.2.id := by
  rw [checkConnections, Report.warnings_concat, wires, Mapping.values, List.map_map]
  refine Report.map_filter_flatMap_of_subjects fun e he => ?_
  rw [Function.comp_apply, Connection.filter_warnings_check_duplicate, edgeCounts_getD]
  simp only [isCopied_iff he]

/-- A fault that one part of the check finds is reported for the connections that have it. -/
theorem fault_errors (g : Graph) {code : String} {faulty : Connection → Bool}
    {fault : Connection → Defect} {p : Connection → Prop} [DecidablePred p]
    (hpart : ∀ c, ((c.check g g.edgeCounts).errors.filter fun d => d.code = code) =
      (Report.when (faulty c) (.ofDefect (fault c))).errors)
    (hp : ∀ c, faulty c = true ↔ p c) :
    (g.checkConnections.errors.filter fun d => d.code = code).map
      (fun d => (d.message, d.connectionId)) =
      (g.wires.filter fun c => p c).map fun c => ((fault c).message, (fault c).connectionId) := by
  rw [checkConnections, Report.errors_concat]
  refine Report.map_filter_flatMap_of_subjects fun c _ => ?_
  rw [hpart, Report.errors_when_ofDefect, apply_ite (List.map _)]
  simp only [hp, List.map_cons, List.map_nil]

/-- The errors about missing ids are those for connections without one, in order. -/
theorem missingId_errors (g : Graph) :
    (g.checkConnections.errors.filter fun d => d.code = "MISSING_CONNECTION_ID").map
      (fun d => (d.message, d.connectionId)) =
      (g.wires.filter fun c => c.id = "").map fun _ => ("Connection is missing an ID", none) :=
  g.fault_errors (fun c => (c.filter_errors_check_eq g _).1) (by simp)

/-- The errors about sources are those for sources that do not exist, in order. -/
theorem invalidSource_errors (g : Graph) :
    (g.checkConnections.errors.filter fun d => d.code = "INVALID_SOURCE_NODE").map
      (fun d => (d.message, d.connectionId)) =
      (g.wires.filter fun c => g.hasNode c.source = false).map fun c =>
        ("Connection source node " ++ c.source ++ " does not exist", anchor c.id) :=
  g.fault_errors (fun c => (c.filter_errors_check_eq g _).2.1) (by simp)

/-- The errors about targets are those for targets that do not exist, in order. -/
theorem invalidTarget_errors (g : Graph) :
    (g.checkConnections.errors.filter fun d => d.code = "INVALID_TARGET_NODE").map
      (fun d => (d.message, d.connectionId)) =
      (g.wires.filter fun c => g.hasNode c.target = false).map fun c =>
        ("Connection target node " ++ c.target ++ " does not exist", anchor c.id) :=
  g.fault_errors (fun c => (c.filter_errors_check_eq g _).2.2.1) (by simp)

/-- **Exactly the copies are reported as duplicates.** There is one warning for each connection
of which another key holds a copy, in order and anchored at its id. So there are as many as the
groups of two or more copies have members, and never just one. Connections without an id,
without a source and without a target are reported one by one, each fault for exactly the
connections that have it, whatever else is wrong with them. -/
theorem duplicates_and_faults (g : Graph) :
    (g.checkConnections.warnings.filter fun w => w.code = "DUPLICATE_CONNECTION").map
      (·.connectionId) =
      ((g.connections.entries.filter fun e => g.IsCopied e).map fun e => anchor e.2.id) ∧
    (g.checkConnections.warnings.filter fun w => w.code = "DUPLICATE_CONNECTION").length =
      ((g.copyGroups.map List.length).filter fun size => 2 ≤ size).sum ∧
    (g.checkConnections.warnings.filter fun w => w.code = "DUPLICATE_CONNECTION").length ≠ 1 ∧
    (g.checkConnections.errors.filter fun d => d.code = "MISSING_CONNECTION_ID").map
      (fun d => (d.message, d.connectionId)) =
      ((g.wires.filter fun c => c.id = "").map fun _ => ("Connection is missing an ID", none)) ∧
    (g.checkConnections.errors.filter fun d => d.code = "INVALID_SOURCE_NODE").map
      (fun d => (d.message, d.connectionId)) =
      ((g.wires.filter fun c => g.hasNode c.source = false).map fun c =>
        ("Connection source node " ++ c.source ++ " does not exist", anchor c.id)) ∧
    (g.checkConnections.errors.filter fun d => d.code = "INVALID_TARGET_NODE").map
      (fun d => (d.message, d.connectionId)) =
      ((g.wires.filter fun c => g.hasNode c.target = false).map fun c =>
        ("Connection target node " ++ c.target ++ " does not exist", anchor c.id)) := by
  have hlength := congrArg List.length g.duplicate_warnings
  rw [List.length_map, List.length_map, length_filter_isCopied] at hlength
  refine ⟨g.duplicate_warnings, hlength, ?_, g.missingId_errors, g.invalidSource_errors,
    g.invalidTarget_errors⟩
  rw [hlength]
  refine sum_ne_one fun size hsize => ?_
  exact of_decide_eq_true (List.mem_filter.mp hsize).2

end Graph
end PlotGraph
