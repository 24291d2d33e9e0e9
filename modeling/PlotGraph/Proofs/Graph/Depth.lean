import PlotGraph.Proofs.Check.Limits
import PlotGraph.Proofs.Graph.Reach
import PlotGraph.Proofs.Graph.Sweep
import PlotGraph.Proofs.Report
import Mathlib.Data.Finset.Card
import Mathlib.Data.Nat.Find
import Mathlib.Order.Bounds.Basic

/-!
# The longest path

The depth of a graph is the greatest depth of a sweep, and so the length of a longest path
along forward edges. It is bounded from both sides whatever edges go back
(`longestPathDepth_bounds`); on a graph without closed walks every edge is forward, and it
is the length of a longest path of all (`longestPathDepth_of_findCycles_eq_nil`).
-/

namespace PlotGraph

/-! ### The depths of a graph -/

namespace Graph

variable {g : Graph} {roots : List String}

/-- The keys that are taken first have the depth one. -/
theorem get?_foldl_put_one (keys : List g.Key) (depths : Mapping String Nat) (v : String) :
    (keys.foldl (fun m r => m.put r.val 1) depths).get? v =
      if v ∈ keys.map Subtype.val then some 1 else depths.get? v := by
  induction keys generalizing depths with
  | nil => rfl
  | cons k rest ih =>
      rw [List.foldl_cons, ih, Mapping.get?_put, List.map_cons]
      by_cases hrest : v ∈ rest.map Subtype.val
      · rw [if_pos hrest, if_pos (List.mem_cons_of_mem _ hrest)]
      · by_cases hk : k.val = v
        · rw [if_neg hrest, if_pos hk, if_pos (hk ▸ List.mem_cons_self)]
        · rw [if_neg hrest, if_neg hk, if_neg]
          rw [List.mem_cons, not_or]
          exact ⟨fun h => hk h.symm, hrest⟩

/-- The depths of a graph have been swept over the whole order. -/
theorem depths_swept (keys : List g.Key) :
    (g.search keys).Swept (keys.map Subtype.val) (g.search keys).finished (g.depths keys) := by
  have hone : ∀ v, (Mapping.ofList (keys.map fun r => (r.val, 1))).get? v =
      if v ∈ keys.map Subtype.val then some 1 else none := by
    intro v
    rw [Mapping.ofList, List.foldl_map, get?_foldl_put_one]
    rfl
  apply Search.Swept.foldl_relax (g.search_completed keys) (List.nil_append _).symm
  refine ⟨?_, ?_, ?_⟩
  · intro r hr
    rw [Search.depthAt, hone, if_pos hr]
    exact le_refl 1
  · intro u hu
    cases hu
  · intro v d hd
    rw [hone] at hd
    split at hd
    · next hv =>
        cases hd
        exact ⟨[v], .single hv, rfl⟩
    · cases hd

/-- The greatest of some numbers is no less than each, and is one of them unless it is
zero. -/
theorem foldl_max_spec (l : List Nat) :
    (∀ d ∈ l, d ≤ l.foldl max 0) ∧ (l.foldl max 0 = 0 ∨ l.foldl max 0 ∈ l) := by
  rw [List.foldl_max]
  cases hmax : l.max? with
  | none =>
      rw [List.max?_eq_none_iff.mp hmax]
      exact ⟨by simp, Or.inl rfl⟩
  | some m =>
      obtain ⟨hmem, hle⟩ := List.max?_eq_some_iff.mp hmax
      rw [Option.getD_some, max_eq_right (Nat.zero_le m)]
      exact ⟨hle, Or.inr hmem⟩

/-- No key is deeper than the longest path. -/
theorem depthAt_le_longestPathDepth (roots : List String) (v : String) :
    Search.depthAt (g.depths (g.presentKeys roots)) v ≤ g.longestPathDepth roots := by
  rw [Search.depthAt]
  cases hv : (g.depths (g.presentKeys roots)).get? v with
  | none => exact Nat.zero_le _
  | some d =>
      apply (foldl_max_spec _).1
      exact List.mem_map.mpr ⟨(v, d), (Mapping.get?_eq_some_iff _ v d).mp hv, rfl⟩

/-- A path of forward steps is a path of the graph. -/
theorem pathFrom_of_forwardPath {path : List String} {v : String}
    (h : (g.search (g.presentKeys roots)).ForwardPath
      ((g.presentKeys roots).map Subtype.val) path v) : g.PathFrom roots path := by
  obtain ⟨r, hr, hroot⟩ := h.starts
  exact ⟨⟨r, hr, mem_map_presentKeys.mp hroot⟩, h.linked.imp fun _ _ huv => huv.1⟩

/-- Unless it is zero, the depth is the length of a simple path. -/
theorem exists_path_of_longestPathDepth_ne_zero (h : g.longestPathDepth roots ≠ 0) :
    ∃ path, g.PathFrom roots path ∧ path.Nodup ∧ path.length = g.longestPathDepth roots := by
  have hmem := (foldl_max_spec (g.depths (g.presentKeys roots)).values).2.resolve_left h
  obtain ⟨⟨v, d⟩, hentry, hd⟩ := List.mem_map.mp hmem
  obtain ⟨path, hpath, hlength⟩ := (depths_swept (g.presentKeys roots)).attained v d
    ((Mapping.get?_eq_some_iff _ v d).mpr hentry)
  refine ⟨path, pathFrom_of_forwardPath hpath, ?_, hlength.trans hd⟩
  exact (g.search_completed _).nodup_of_forwardPath hpath

/-- With a root that exists the depth is not zero. -/
theorem longestPathDepth_ne_zero {r : String} (hr : r ∈ roots) (hnode : g.hasNode r = true) :
    g.longestPathDepth roots ≠ 0 := by
  have hone := (depths_swept (g.presentKeys roots)).roots_le r
    (mem_map_presentKeys.mpr ⟨hr, hnode⟩)
  exact Nat.one_le_iff_ne_zero.mp (hone.trans (depthAt_le_longestPathDepth roots r))

/-- Without one it is. -/
theorem longestPathDepth_eq_zero (h : ∀ r ∈ roots, ¬ g.hasNode r = true) :
    g.longestPathDepth roots = 0 := by
  by_contra hne
  obtain ⟨path, hpath, -, -⟩ := exists_path_of_longestPathDepth_ne_zero hne
  obtain ⟨r, -, hr, hnode⟩ := hpath.starts
  exact h r hr hnode

/-- The search finishes whatever is reachable. -/
theorem mem_finished_of_reachable {v : String} (h : g.Reachable roots v) :
    v ∈ (g.search (g.presentKeys roots)).finished := by
  have hdone := g.search_completed (g.presentKeys roots)
  apply h.of_closed
  · intro r hr hnode
    exact hdone.roots_mem r (mem_map_presentKeys.mpr ⟨hr, hnode⟩)
  · intro u w hu huw
    exact hdone.finished_of_joined hu huw

/-- A path no longer than the depth leads to every node that the roots reach. -/
theorem exists_path_le_longestPathDepth {v : String} (h : g.Reachable roots v) :
    ∃ path, g.PathFrom roots path ∧ path.getLast? = some v ∧
      path.length ≤ g.longestPathDepth roots := by
  have hdone := g.search_completed (g.presentKeys roots)
  obtain ⟨path, hpath⟩ := hdone.exists_forwardPath (mem_finished_of_reachable h)
  have hle := (depths_swept (g.presentKeys roots)).length_le hdone hpath
  exact ⟨path, pathFrom_of_forwardPath hpath, hpath.ends,
    hle.trans (depthAt_le_longestPathDepth roots v)⟩

/-! ### Cyclic or not -/

/-- The distance of a node from some roots: the number of connections on a shortest path. -/
def IsDistance (g : Graph) (roots : List String) (v : String) (k : Nat) : Prop :=
  IsLeast {n | ∃ path, g.PathFrom roots path ∧ path.getLast? = some v ∧ path.length = n + 1} k

/-- A path is no shorter than the distance of its end. -/
theorem exists_distance {path : List String} {v : String} (hpath : g.PathFrom roots path)
    (hlast : path.getLast? = some v) : ∃ k, g.IsDistance roots v k ∧ 1 + k ≤ path.length := by
  have hne : path ≠ [] := by
    rintro rfl
    cases hlast
  have hlength : path.length = path.length - 1 + 1 :=
    (Nat.succ_pred_eq_of_pos (List.length_pos_iff.mpr hne)).symm
  have hex : ∃ n, ∃ path, g.PathFrom roots path ∧ path.getLast? = some v ∧
      path.length = n + 1 := ⟨_, path, hpath, hlast, hlength⟩
  -- the least such number exists, whether or not it can be computed
  classical
  refine ⟨Nat.find hex, ⟨Nat.find_spec hex, fun n hn => Nat.find_min' hex hn⟩, ?_⟩
  have hle := Nat.find_min' hex ⟨path, hpath, hlast, hlength⟩
  omega

/-- A path that comes to no key twice is no longer than there are reachable keys. -/
theorem length_le_card_reachableFrom {path : List String} (hpath : g.PathFrom roots path)
    (hnodup : path.Nodup) : path.length ≤ (g.reachableFrom roots).toFinset.card := by
  rw [← List.toFinset_card_of_nodup hnodup]
  apply Finset.card_le_card
  intro v hv
  rw [List.mem_toFinset] at hv ⊢
  rw [mem_reachableFrom_iff]
  refine hpath.forall_mem ?_ (fun u w hu huw => hu.step huw) v hv
  intro r hr hnode
  exact ⟨[r], .single hr hnode, rfl⟩

/-- **The depth of any graph, cyclic or not**, from roots of which one exists: it is the
number of nodes of a simple path, it exceeds the distance of every node that the roots
reach, and it is at most the number of these nodes. -/
theorem longestPathDepth_bounds (g : Graph) (roots : List String)
    (h : ∃ r ∈ roots, g.hasNode r = true) :
    (∃ path, g.PathFrom roots path ∧ path.Nodup ∧ path.length = g.longestPathDepth roots) ∧
    (∀ v ∈ g.reachableFrom roots, ∃ k, g.IsDistance roots v k ∧
      1 + k ≤ g.longestPathDepth roots) ∧
    g.longestPathDepth roots ≤ (g.reachableFrom roots).toFinset.card := by
  obtain ⟨r, hr, hnode⟩ := h
  obtain ⟨path, hpath, hnodup, hlength⟩ :=
    exists_path_of_longestPathDepth_ne_zero (longestPathDepth_ne_zero hr hnode)
  refine ⟨⟨path, hpath, hnodup, hlength⟩, ?_, ?_⟩
  · intro v hv
    obtain ⟨way, hway, hlast, hle⟩ :=
      exists_path_le_longestPathDepth (mem_reachableFrom_iff.mp hv)
    obtain ⟨k, hk, hlt⟩ := exists_distance hway hlast
    exact ⟨k, hk, hlt.trans hle⟩
  · rw [← hlength]
    exact length_le_card_reachableFrom hpath hnodup

/-- The bounds on a cyclic graph, from a root that exists and one that does not. -/
theorem loopBehindStart_depth :
    (∃ r ∈ ["ghost", "start"], loopBehindStart.hasNode r = true) ∧
    (∃ path, loopBehindStart.PathFrom ["ghost", "start"] path ∧ path.Nodup ∧
      path.length = loopBehindStart.longestPathDepth ["ghost", "start"]) ∧
    (∀ v ∈ loopBehindStart.reachableFrom ["ghost", "start"], ∃ k,
      loopBehindStart.IsDistance ["ghost", "start"] v k ∧
      1 + k ≤ loopBehindStart.longestPathDepth ["ghost", "start"]) ∧
    loopBehindStart.longestPathDepth ["ghost", "start"] ≤
      (loopBehindStart.reachableFrom ["ghost", "start"]).toFinset.card := by
  have hroot : ∃ r ∈ ["ghost", "start"], loopBehindStart.hasNode r = true :=
    ⟨"start", by decide, by decide⟩
  exact ⟨hroot, longestPathDepth_bounds loopBehindStart ["ghost", "start"] hroot⟩

/-! ### Without closed walks -/

/-- On a graph without closed walks every path is a forward path. -/
theorem Acyclic.forwardPath (hg : g.Acyclic) {path : List String}
    (hpath : g.PathFrom roots path) : ∃ v, (g.search (g.presentKeys roots)).ForwardPath
      ((g.presentKeys roots).map Subtype.val) path v := by
  have hcycles := hg.cycles_eq_nil (g.search_completed (g.presentKeys roots))
  obtain ⟨r, hr, hroot, hnode⟩ := hpath.starts
  have hne : path ≠ [] := by
    rintro rfl
    cases hr
  refine ⟨path.getLast hne, ⟨r, hr, mem_map_presentKeys.mpr ⟨hroot, hnode⟩⟩, ?_,
    List.getLast?_eq_some_getLast hne⟩
  refine hpath.linked.imp fun u v huv => ⟨huv, ?_⟩
  rw [Search.backEdges, hcycles]
  exact List.not_mem_nil

/-- Without cycles no path comes to a key twice. -/
theorem Acyclic.nodup_of_pathFrom (hg : g.Acyclic) {path : List String}
    (hpath : g.PathFrom roots path) : path.Nodup := by
  obtain ⟨v, hforward⟩ := hg.forwardPath hpath
  exact (g.search_completed _).nodup_of_forwardPath hforward

/-- Without cycles no path is longer than the depth. -/
theorem Acyclic.length_le (hg : g.Acyclic) {path : List String}
    (hpath : g.PathFrom roots path) : path.length ≤ g.longestPathDepth roots := by
  obtain ⟨v, hforward⟩ := hg.forwardPath hpath
  have hle := (depths_swept (g.presentKeys roots)).length_le (g.search_completed _) hforward
  exact hle.trans (depthAt_le_longestPathDepth roots v)

/-- On a graph without closed walks the depth from roots of which one exists is the greatest
number of nodes on a path. -/
theorem Acyclic.isGreatest_longestPathDepth (hg : g.Acyclic)
    (h : ∃ r ∈ roots, g.hasNode r = true) :
    IsGreatest {n | ∃ path, g.PathFrom roots path ∧ path.length = n}
      (g.longestPathDepth roots) := by
  obtain ⟨r, hr, hnode⟩ := h
  constructor
  · obtain ⟨path, hpath, -, hlength⟩ :=
      exists_path_of_longestPathDepth_ne_zero (longestPathDepth_ne_zero hr hnode)
    exact ⟨path, hpath, hlength⟩
  · rintro n ⟨path, hpath, rfl⟩
    exact hg.length_le hpath

/-! ### The limit on the depth -/

theorem hasNode_of_mem_startKeys {key : String} (h : key ∈ g.startKeys) :
    g.hasNode key = true := by
  obtain ⟨e, he, rfl⟩ := List.mem_map.mp h
  rw [hasNode, Mapping.contains_iff, Mapping.keys]
  exact List.mem_map_of_mem (List.mem_filter.mp he).1

/-- Whether the check of the limits reports the depth is decided by the depth alone. -/
theorem exists_depth_warning_iff (g : Graph) (o : Options) :
    (∃ w ∈ (g.checkPerformance o).warnings, w.code = "MAX_DEPTH_EXCEEDED") ↔
      o.maxDepth < g.longestPathDepth g.startKeys := by
  have hown : (g.checkDepth o).warnings =
      (g.checkPerformance o).warnings.filter fun w => w.code = "MAX_DEPTH_EXCEEDED" :=
    (g.filter_warnings_checkPerformance o .depth).symm
  constructor
  · rintro ⟨w, hw, hcode⟩
    have hmem : w ∈ (g.checkDepth o).warnings := by
      rw [hown]
      exact List.mem_filter.mpr ⟨hw, decide_eq_true hcode⟩
    exact of_decide_eq_true (Report.mem_warnings_when_ofWarning.mp hmem).1
  · intro hlt
    have hmem : depthWarning (g.longestPathDepth g.startKeys) o.maxDepth ∈
        (g.checkDepth o).warnings :=
      Report.mem_warnings_when_ofWarning.mpr ⟨decide_eq_true hlt, rfl⟩
    rw [hown] at hmem
    exact ⟨_, (List.mem_filter.mp hmem).1, rfl⟩

/-- A depth exceeds a limit if a path does, or if there is no path and the limit is
negative. -/
theorem Acyclic.lt_longestPathDepth_iff (hg : g.Acyclic) (limit : Int) :
    limit < g.longestPathDepth g.startKeys ↔
      (∃ path, g.PathFrom g.startKeys path ∧ limit < path.length) ∨
        (g.startKeys = [] ∧ limit < 0) := by
  constructor
  · intro hlt
    by_cases hzero : g.longestPathDepth g.startKeys = 0
    · right
      rw [hzero] at hlt
      refine ⟨List.eq_nil_iff_forall_not_mem.mpr fun r hr => ?_, hlt⟩
      exact longestPathDepth_ne_zero hr (hasNode_of_mem_startKeys hr) hzero
    · left
      obtain ⟨path, hpath, -, hlength⟩ := exists_path_of_longestPathDepth_ne_zero hzero
      rw [← hlength] at hlt
      exact ⟨path, hpath, hlt⟩
  · rintro (⟨path, hpath, hlt⟩ | ⟨-, hlt⟩)
    · exact hlt.trans_le (Int.ofNat_le.mpr (hg.length_le hpath))
    · exact hlt.trans_le (Int.natCast_nonneg _)

/-- **The depth of a graph in which no cycle is found** is the greatest number of nodes on a
path from the roots that exist, and zero if none does; all these paths are simple. So the
limit on the depth is reported exactly if a path from a start node visits more nodes, or if
there is no start node and the limit is negative. -/
theorem longestPathDepth_of_findCycles_eq_nil (g : Graph) (roots : List String)
    (h : g.findCycles = []) :
    ((∃ r ∈ roots, g.hasNode r = true) →
      IsGreatest {n | ∃ path, g.PathFrom roots path ∧ path.length = n}
        (g.longestPathDepth roots)) ∧
    ((∀ r ∈ roots, ¬ g.hasNode r = true) → g.longestPathDepth roots = 0) ∧
    (∀ path, g.PathFrom roots path → path.Nodup) ∧
    ∀ o : Options, (∃ w ∈ (g.checkPerformance o).warnings, w.code = "MAX_DEPTH_EXCEEDED") ↔
      (∃ path, g.PathFrom g.startKeys path ∧ o.maxDepth < path.length) ∨
        (g.startKeys = [] ∧ o.maxDepth < 0) := by
  have hg := (findCycles_eq_nil_iff g).mp h
  refine ⟨hg.isGreatest_longestPathDepth, longestPathDepth_eq_zero,
    fun path hpath => hg.nodup_of_pathFrom hpath, ?_⟩
  intro o
  rw [exists_depth_warning_iff, hg.lt_longestPathDepth_iff]

/-- Two ways from the first node to the last one, the connection of the shorter one first. -/
def detour : Graph where
  id := "g"
  nodes := .ofList (["start", "middle", "last"].map fun key =>
    (key, { id := key, config := .empty }))
  connections := .ofList [("1", { id := "1", source := "start", target := "last" }),
    ("2", { id := "2", source := "start", target := "middle" }),
    ("3", { id := "3", source := "middle", target := "last" })]

/-- The longer way counts, also from roots that repeat or do not exist. -/
theorem detour_depth :
    detour.findCycles = [] ∧
    IsGreatest {n | ∃ path, detour.PathFrom ["start", "ghost", "start"] path ∧
      path.length = n} (detour.longestPathDepth ["start", "ghost", "start"]) ∧
    3 ≤ detour.longestPathDepth ["start", "ghost", "start"] := by
  have hnil : detour.findCycles = [] := by
    rw [findCycles_eq_nil_iff]
    exact acyclic_of_grows (["start", "middle", "last"].idxOf ·) (by decide)
  have hgreatest := (longestPathDepth_of_findCycles_eq_nil detour
    ["start", "ghost", "start"] hnil).1 ⟨"start", by decide, by decide⟩
  have hstart : detour.Joined "start" "middle" :=
    ⟨{ id := "2", source := "start", target := "middle" },
      ⟨by decide, by decide, by decide, by decide⟩, rfl, rfl⟩
  have hmiddle : detour.Joined "middle" "last" :=
    ⟨{ id := "3", source := "middle", target := "last" },
      ⟨by decide, by decide, by decide, by decide⟩, rfl, rfl⟩
  have hpath : detour.PathFrom ["start", "ghost", "start"] ["start", "middle", "last"] := by
    refine ⟨⟨"start", rfl, by decide, by decide⟩, ?_⟩
    exact List.isChain_cons_cons.mpr ⟨hstart, List.isChain_pair.mpr hmiddle⟩
  exact ⟨hnil, hgreatest, hgreatest.2 ⟨_, hpath, rfl⟩⟩

/-- A negative limit is exceeded even where no path starts: the depth of a graph without
nodes is zero. So a path that visits more nodes than the limit need not exist. -/
theorem not_exists_path_of_depth_warning :
    ({ id := "g" } : Graph).findCycles = [] ∧
    ¬ ((∃ w ∈ (({ id := "g" } : Graph).checkPerformance { maxDepth := -1 }).warnings,
          w.code = "MAX_DEPTH_EXCEEDED") ↔
        ∃ path, ({ id := "g" } : Graph).PathFrom ({ id := "g" } : Graph).startKeys path ∧
          (-1 : Int) < path.length) := by
  have hnil : ({ id := "g" } : Graph).findCycles = [] := by
    rw [findCycles_eq_nil_iff]
    exact acyclic_of_grows (fun _ => 0) (by decide)
  refine ⟨hnil, fun hiff => ?_⟩
  have hdepth : (-1 : Int) <
      ({ id := "g" } : Graph).longestPathDepth ({ id := "g" } : Graph).startKeys := by
    rw [longestPathDepth_eq_zero (fun r hr => by cases hr)]
    decide
  have hwarning := (exists_depth_warning_iff { id := "g" } { maxDepth := -1 }).mpr hdepth
  obtain ⟨path, hpath, -⟩ := hiff.mp hwarning
  obtain ⟨r, -, hr, -⟩ := hpath.starts
  cases hr

end Graph
end PlotGraph
