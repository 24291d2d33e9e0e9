import PlotGraph.Check.Structure
import PlotGraph.Proofs.Graph.Index
import PlotGraph.Proofs.Graph.Tour
import Mathlib.Data.List.Flatten
import PlotGraph.Proofs.Report

/-!
# Limits on size, width and depth

Each limit is compared with one number of the graph, or with one for each source of connections.
What is reported are the numbers that are greater than their limit: a number that equals its
limit is not. So greater limits never report more (`Graph.checkPerformance_strict`).
-/

namespace PlotGraph

namespace Limit

/-- The code under which a number above the limit is reported. -/
def code : Limit → String
  | .nodeCount => "TOO_MANY_NODES"
  | .connectionCount => "TOO_MANY_CONNECTIONS"
  | .depth => "MAX_DEPTH_EXCEEDED"
  | .branches => "TOO_MANY_BRANCHES"

/-- The limits in the order in which they are checked. -/
def checked : List Limit := [.nodeCount, .connectionCount, .branches, .depth]

/-- The warnings about different limits have different codes. -/
theorem code_injective {l m : Limit} (h : l.code = m.code) : l = m := by
  revert h
  cases l <;> cases m <;> decide

end Limit

namespace Graph

/-! ### What is compared with a limit -/

/-- The numbers that a limit is compared with, each with the node that a report would name. The
number of branches is that of the connections which leave a source, whether or not there is a
node under its key or under that of their targets. -/
def measured (g : Graph) : Limit → List (Option String × Nat)
  | .nodeCount => [(none, g.nodes.size)]
  | .connectionCount => [(none, g.connections.size)]
  | .depth => [(none, g.longestPathDepth g.startKeys)]
  | .branches => g.sources.map fun key => (some key, g.wires.countP fun c => c.source = key)

/-- The nodes that are named for the numbers above a limit. -/
def exceeding (g : Graph) (o : Options) (l : Limit) : List (Option String) :=
  ((g.measured l).filter fun m => o.limit l < m.2).map Prod.fst

variable (g : Graph) {o o' : Options} {l : Limit}

/-- Nothing exceeds a limit that all that is measured keeps to. -/
theorem exceeding_eq_nil_iff : g.exceeding o l = [] ↔ ∀ m ∈ g.measured l, m.2 ≤ o.limit l := by
  rw [exceeding, List.map_eq_nil_iff, List.filter_eq_nil_iff]
  simp only [decide_eq_true_eq, Int.not_lt]

/-- What exceeds a higher limit exceeds a lower one. -/
theorem exceeding_sublist (h : o.limit l ≤ o'.limit l) :
    (g.exceeding o' l).Sublist (g.exceeding o l) := by
  apply List.Sublist.map
  apply List.monotone_filter_right
  intro m hm
  exact decide_eq_true (Int.lt_of_le_of_lt h (of_decide_eq_true hm))

/-- The sources that exceed the limit are those with more connections. -/
theorem exceeding_branches (o : Options) : g.exceeding o .branches =
    (g.sources.filter fun key => o.maxBranches < g.wires.countP fun c => c.source = key).map
      some := by
  rw [exceeding, measured, List.filter_map, List.map_map]
  rfl

/-! ### The checks -/

/-- The check of one limit. -/
def checkLimit (g : Graph) (o : Options) : Limit → Report
  | .nodeCount => g.checkNodeCount o
  | .connectionCount => g.checkConnectionCount o
  | .depth => g.checkDepth o
  | .branches => g.checkBranches o

theorem checkPerformance_eq (o : Options) :
    g.checkPerformance o = .concat (Limit.checked.map (g.checkLimit o)) := rfl

/-- There is one warning for every source with too many branches. -/
theorem warnings_checkBranches (o : Options) : (g.checkBranches o).warnings =
    (g.sourceCounts.filter fun e => o.maxBranches < e.2).map fun e =>
      g.branchesWarning e.1 e.2 := by
  rw [checkBranches, sourceCounts, List.filter_map, List.map_map]
  rfl

/-- The check of a limit finds nothing but warnings. -/
theorem checkLimit_warns (o : Options) (l : Limit) :
    (g.checkLimit o l).errors = [] ∧ (g.checkLimit o l).notes = [] := by
  have hwhen : ∀ (condition : Bool) (w : Warning),
      (Report.when condition (.ofWarning w)).errors = [] ∧
        (Report.when condition (.ofWarning w)).notes = [] := by
    intro condition w
    cases condition <;> exact ⟨rfl, rfl⟩
  cases l with
  | branches => exact ⟨rfl, rfl⟩
  | _ => exact hwhen _ _

/-- All of them have the code of the limit. -/
theorem code_of_mem_checkLimit {w : Warning} (hw : w ∈ (g.checkLimit o l).warnings) :
    w.code = l.code := by
  cases l with
  | branches =>
      obtain ⟨e, -, rfl⟩ := List.mem_map.mp hw
      rfl
  | _ =>
      obtain ⟨-, rfl⟩ := Report.mem_warnings_when_ofWarning.mp hw
      rfl

/-- The check of one number reports that number or nothing. -/
theorem sites_when_ofWarning (limit : Int) (n : Nat) {w : Warning} (hw : w.nodeId = none) :
    ((Report.when (limit < n) (.ofWarning w)).warnings.map fun w => (w.code, w.nodeId)) =
      (([((none : Option String), n)].filter fun m => limit < m.2).map Prod.fst).map
        fun a => (w.code, a) := by
  by_cases h : limit < n
  · simp [Report.when, Report.ofWarning, h, hw]
  · simp [Report.when, h]

/-- There is one warning for every number above the limit. -/
theorem sites_checkLimit (o : Options) (l : Limit) :
    ((g.checkLimit o l).warnings.map fun w => (w.code, w.nodeId)) =
      (g.exceeding o l).map fun a => (l.code, a) := by
  cases l with
  | nodeCount => exact sites_when_ofWarning _ _ rfl
  | connectionCount => exact sites_when_ofWarning _ _ rfl
  | depth => exact sites_when_ofWarning _ _ rfl
  | branches =>
      show (g.checkBranches o).warnings.map _ = _
      rw [warnings_checkBranches, sourceCounts_eq, List.filter_map, List.map_map, List.map_map,
        exceeding_branches, List.map_map]
      rfl

/-! ### All checks together -/

/-- The check of all limits finds nothing but warnings. -/
theorem checkPerformance_warns (o : Options) :
    (g.checkPerformance o).errors = [] ∧ (g.checkPerformance o).notes = [] := by
  rw [checkPerformance_eq, Report.errors_concat, Report.notes_concat, List.flatMap_map,
    List.flatMap_map, List.flatMap_eq_nil_iff, List.flatMap_eq_nil_iff]
  exact ⟨fun l _ => (g.checkLimit_warns o l).1, fun l _ => (g.checkLimit_warns o l).2⟩

theorem sites_eq_warnings (o : Options) : (g.checkPerformance o).sites =
    (g.checkPerformance o).warnings.map fun w => (w.code, w.nodeId) :=
  Report.sites_of_warnings (g.checkPerformance_warns o).1 (g.checkPerformance_warns o).2

/-- What is reported stands limit by limit. -/
theorem sites_checkPerformance (o : Options) : (g.checkPerformance o).sites =
    Limit.checked.flatMap fun l => (g.exceeding o l).map fun a => (l.code, a) := by
  rw [sites_eq_warnings, checkPerformance_eq, Report.warnings_concat, List.flatMap_map,
    List.map_flatMap]
  apply List.flatMap_congr
  intro l _
  exact g.sites_checkLimit o l

/-- The warnings under the code of a limit are those of its own check: the other limits are
reported under codes of their own. -/
theorem filter_warnings_checkPerformance (o : Options) (l : Limit) :
    ((g.checkPerformance o).warnings.filter fun w => w.code = l.code) =
      (g.checkLimit o l).warnings := by
  have hfilter : ∀ m, ((g.checkLimit o m).warnings.filter fun w => w.code = l.code) =
      if m = l then (g.checkLimit o l).warnings else [] := by
    intro m
    split
    · next h =>
        subst h
        apply List.filter_eq_self.mpr
        intro w hw
        exact decide_eq_true (g.code_of_mem_checkLimit hw)
    · next h =>
        apply Report.filter_warnings_eq_nil
        intro w hw hcode
        exact h (Limit.code_injective ((g.code_of_mem_checkLimit hw).symm.trans hcode))
  rw [checkPerformance_eq, Report.warnings_concat, List.flatMap_map, List.filter_flatMap]
  simp only [hfilter]
  cases l <;> simp [Limit.checked]

/-- The sites under the code of a limit are those that exceed it. -/
theorem filter_sites_checkPerformance (o : Options) (l : Limit) :
    ((g.checkPerformance o).sites.filter fun s => s.1 = l.code) =
      (g.exceeding o l).map fun a => (l.code, a) := by
  rw [← sites_checkLimit, ← filter_warnings_checkPerformance, sites_eq_warnings, List.filter_map]
  rfl

/-- The code of a limit is missing exactly if nothing exceeds it. -/
theorem code_not_mem_codes_iff (o : Options) (l : Limit) :
    l.code ∉ (g.checkPerformance o).codes ↔ g.exceeding o l = [] := by
  rw [← List.map_eq_nil_iff, ← filter_sites_checkPerformance, List.filter_eq_nil_iff,
    ← Report.map_fst_sites, List.mem_map, not_exists]
  simp only [decide_eq_true_eq, not_and]

/-- **Limits are strict, and greater limits report less.** Raising limits takes findings away and
adds none. A code is absent if no number that its limit is compared with is greater, and under the
code for branches each source with too many connections is reported once, in the order in which
sources are first seen. -/
theorem checkPerformance_strict (g : Graph) (o o' : Options)
    (h : ∀ l, o.limit l ≤ o'.limit l) :
    (g.checkPerformance o').sites.Sublist (g.checkPerformance o).sites ∧
    (∀ l : Limit, l.code ∉ (g.checkPerformance o).codes ↔
      ∀ m ∈ g.measured l, m.2 ≤ o.limit l) ∧
    ((g.checkPerformance o).sites.filter fun s => s.1 = "TOO_MANY_BRANCHES") =
      (g.sources.filter fun key => o.maxBranches < g.wires.countP fun c => c.source = key).map
        fun key => ("TOO_MANY_BRANCHES", some key) := by
  refine ⟨?_, fun l => ?_, ?_⟩
  · rw [sites_checkPerformance, sites_checkPerformance]
    apply List.Sublist.flatMap_right
    intro l _
    exact (g.exceeding_sublist (h l)).map _
  · rw [code_not_mem_codes_iff, exceeding_eq_nil_iff]
  · have hbranches := g.filter_sites_checkPerformance o .branches
    rw [exceeding_branches, List.map_map] at hbranches
    exact hbranches

/-- A start node and another node, and two connections from each of two sources, one of which has
no node. -/
def crossed : Graph where
  id := "g"
  nodes := .ofList [("a", { id := "a", tag := "start", config := .empty }),
    ("b", { id := "b", config := .empty })]
  connections := .ofList [("1", { id := "1", source := "a", target := "b" }),
    ("2", { id := "2", source := "ghost", target := "a" }),
    ("3", { id := "3", source := "a", target := "ghost" }),
    ("4", { id := "4", source := "ghost", target := "b" })]

/-- Limits that the numbers of this graph equal. -/
def justEnough : Options :=
  { maxNodeCount := 2, maxConnectionCount := 4, maxDepth := 2, maxBranches := 2 }

/-- Limits that they exceed by one. -/
def tooLow : Options :=
  { maxNodeCount := 1, maxConnectionCount := 3, maxDepth := 1, maxBranches := 1 }

/-- The longest path of that graph joins its two nodes. -/
theorem crossed_depth : crossed.longestPathDepth crossed.startKeys = 2 := by
  have hsearch : crossed.search (crossed.presentKeys crossed.startKeys) =
      (Loop.after Tour.next (crossed.tour crossed.startKeys) 4).2.search :=
    search_of_after rfl
  simp only [longestPathDepth, depths, hsearch]
  rfl

/-- Nothing is reported where the numbers equal the limits, and everything below. -/
theorem checkPerformance_crossed :
    (∀ l, tooLow.limit l ≤ justEnough.limit l) ∧
    (crossed.checkPerformance justEnough).sites.Sublist (crossed.checkPerformance tooLow).sites ∧
    (crossed.checkPerformance justEnough).sites = [] ∧
    (crossed.checkPerformance tooLow).sites = [("TOO_MANY_NODES", none),
      ("TOO_MANY_CONNECTIONS", none), ("TOO_MANY_BRANCHES", some "a"),
      ("TOO_MANY_BRANCHES", some "ghost"), ("MAX_DEPTH_EXCEEDED", none)] := by
  have hlimits : ∀ l, tooLow.limit l ≤ justEnough.limit l := by
    intro l
    cases l <;> decide
  refine ⟨hlimits, (checkPerformance_strict crossed tooLow justEnough hlimits).1, ?_, ?_⟩
  · rw [sites_checkPerformance]
    simp only [exceeding, measured, crossed_depth]
    decide
  · rw [sites_checkPerformance]
    simp only [exceeding, measured, crossed_depth]
    decide

end Graph
end PlotGraph
