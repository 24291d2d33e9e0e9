import PlotGraph.Proofs.Graph.Cycles
import Mathlib.Data.List.Perm.Basic
import Mathlib.Data.List.Rotate

/-!
# Cycles are told apart

The search drops a cycle only if its very path has been recorded. That no cycle is recorded
twice in another guise is due to the order of the search. The nodes of a cycle stand in that
order one after the other (`Tidy.ordered`), so that two cycles through the same nodes have
the same path. And while a node is on the path, what lies below it does not change: a second
connection with the same ends closes the same path (`Tidy.current`).

Hence all cycles found differ, their closing connections differ in their ends, and each of
these is the first of its kind in the graph (`findCycles_distinct`).
-/

namespace PlotGraph

/-! ### The first connection of a kind -/

namespace Graph

variable {g : Graph}

/-- The edges of connections are those that can be walked, in order. -/
theorem map_val_edges (g : Graph) (cs : List Connection) :
    (g.edges cs).map Subtype.val = cs.filter fun c => g.Walkable c := by
  induction cs with
  | nil => rfl
  | cons c rest ih =>
      rw [edges] at ih ⊢
      by_cases h : g.Walkable c
      · rw [List.filterMap_cons_some (by rw [dif_pos h]), List.map_cons, ih,
          List.filter_cons_of_pos (by simpa using h)]
      · rw [List.filterMap_cons_none (by rw [dif_neg h]), ih,
          List.filter_cons_of_neg (by simpa using h)]

/-- Whether a connection can be walked depends on its ends. -/
theorem Walkable.of_ends {c d : Connection} (h : g.Walkable c) (hsource : d.source = c.source)
    (htarget : d.target = c.target) : g.Walkable d := by
  refine ⟨htarget ▸ h.1, ?_⟩
  have hloop := h.2
  rw [Connection.isSelfLoop, ← hsource, ← htarget] at hloop
  exact hloop

/-- An edge is the first connection of the graph with its ends if no edge before it leads
where it leads. -/
theorem find?_of_edgesAt {v : String} {e : g.Edge} {before after : List g.Edge}
    (hedges : g.edgesAt v = before ++ e :: after)
    (hfirst : ∀ d ∈ before, d.target.val ≠ e.target.val) :
    g.wires.find? (fun d => d.source = e.val.source ∧ d.target = e.val.target) = some e.val := by
  have hmem : e ∈ g.edgesAt v := hedges ▸ List.mem_append_right _ List.mem_cons_self
  have hsource : e.val.source = v := (mem_edgesAt.mp hmem).2
  -- the edges that leave the source are the walkable connections among those that leave it
  have hall : g.wires.filter (fun c => g.Walkable c ∧ c.source = v) =
      (before ++ e :: after).map Subtype.val := by
    rw [← hedges, edgesAt, edgesFrom, map_val_edges, outgoing_getD, List.filter_filter]
    refine List.filter_congr fun c _ => ?_
    rw [Bool.decide_and]
  have hfind : (g.wires.filter (fun c => g.Walkable c ∧ c.source = v)).find?
      (fun d => d.source = e.val.source ∧ d.target = e.val.target) = some e.val := by
    rw [hall, List.map_append, List.find?_append, List.find?_eq_none.mpr, List.map_cons,
      List.find?_cons_of_pos]
    · rfl
    · simp
    · intro c hc
      obtain ⟨d, hd, rfl⟩ := List.mem_map.mp hc
      have hne : d.val.target ≠ e.val.target := hfirst d hd
      simp [hne]
  rw [List.find?_filter] at hfind
  rw [← hfind]
  congr 1
  funext c
  rw [decide_eq_decide]
  constructor
  · rintro ⟨hc, hc'⟩
    simp [e.property.of_ends hc hc', hc, hc', hsource]
  · simp

end Graph

/-! ### The invariant -/

namespace Search

variable {g : Graph} {roots : List String} {s : Search g} {v : String} {path : List String}
  {e : g.Edge} {es : List g.Edge} {frames : List (List g.Edge)}

/-- Every edge that has been followed from a node of the path, and leads back to a node that
was on the path by then, closes a recorded cycle. -/
def Followed (back : List (String × String)) : List String → List (List g.Edge) → Prop
  | v :: path, es :: frames =>
      (∀ before, g.edgesAt v = before ++ es → ∀ e ∈ before, e.target.val ∈ v :: path →
        (v, e.target.val) ∈ back) ∧ Followed back path frames
  | _, _ => True

/-- What has been followed stays so as back edges are added. -/
theorem Followed.mono {back back' : List (String × String)} (hback : back ⊆ back')
    (h : Followed back path frames) :
    Followed back' path frames := by
  induction path generalizing frames with
  | nil => trivial
  | cons v path ih =>
      cases frames with
      | nil => trivial
      | cons es frames =>
          exact ⟨fun before hb e he ht => hback (h.1 before hb e he ht), ih h.2⟩

/-- The node in hand takes its next edge, which closes a recorded cycle if it leads back. -/
theorem Followed.take {back : List (String × String)}
    (h : Followed back (v :: path) ((e :: es) :: frames)) (hsuffix : e :: es <:+ g.edgesAt v)
    (he : e.target.val ∈ v :: path → (v, e.target.val) ∈ back) :
    Followed back (v :: path) (es :: frames) := by
  refine ⟨?_, h.2⟩
  intro before hbefore d hd hmem
  obtain ⟨earlier, hearlier⟩ := hsuffix
  have hsplit : before = earlier ++ [e] := by
    rw [← hearlier, List.append_cons] at hbefore
    exact (List.append_cancel_right hbefore).symm
  rw [hsplit] at hd
  rcases List.mem_append.mp hd with hd | hd
  · exact h.1 earlier hearlier.symm d hd hmem
  · rw [List.mem_singleton.mp hd] at hmem ⊢
    exact he hmem

/-- What a search keeps of the cycles it has recorded. -/
structure Tidy (s : Search g) : Prop where
  /-- No path is recorded twice. -/
  paths : (s.cycles.map (·.path)).Nodup
  /-- No two closing connections have the same ends. -/
  pairs : s.backEdges.Nodup
  /-- The nodes of a cycle stand in the order of the search one after the other. -/
  ordered : ∀ c ∈ s.cycles, c.path.dropLast.Sublist s.order
  /-- As long as the source of a closing connection is on the path, its cycle is the one that
  is closed from there. -/
  current : ∀ c ∈ s.cycles, ∀ below, c.closing.source :: below <:+ s.path →
    c.path = closedPath (c.closing.source :: below) c.closing.target
  /-- A closing connection is the first one with its ends. -/
  earliest : ∀ c ∈ s.cycles, g.wires.find?
    (fun d => d.source = c.closing.source ∧ d.target = c.closing.target) = some c.closing
  followed : Followed s.backEdges s.path s.frames

/-- A search that has not begun is tidy. -/
theorem Tidy.initial : Tidy ({} : Search g) where
  paths := List.nodup_nil
  pairs := List.nodup_nil
  ordered := by simp
  current := by simp
  earliest := by simp
  followed := trivial

/-- To leave a key keeps the search tidy. -/
theorem Tidy.leave (h : Tidy s) (hinv : Inv roots none s)
    (hframes : s.frames = [] :: frames) : Tidy s.leave := by
  obtain ⟨v, path, hpath, -, -⟩ := hinv.exists_path hframes
  have hfollowed := h.followed
  rw [hpath, hframes] at hfollowed
  have horder := order_leave hpath
  rw [leave_eq hpath] at horder ⊢
  refine ⟨h.paths, h.pairs, ?_, ?_, h.earliest, ?_⟩
  · rw [horder]
    exact h.ordered
  · intro c hc below hbelow
    apply h.current c hc below
    rw [hpath]
    exact hbelow.trans (List.suffix_cons v path)
  · rw [hframes]
    exact hfollowed.2

/-- The edge that the node in hand takes leads nowhere new, or back along a recorded cycle. -/
theorem Tidy.take (h : Tidy s) (hpath : s.path = v :: path)
    (hframes : s.frames = (e :: es) :: frames) (hsuffix : e :: es <:+ g.edgesAt v)
    (he : e.target.val ∈ s.path → (v, e.target.val) ∈ s.backEdges) :
    Tidy { s with frames := es :: frames } := by
  refine ⟨h.paths, h.pairs, h.ordered, h.current, h.earliest, ?_⟩
  have hfollowed := h.followed
  rw [hpath, hframes] at hfollowed
  rw [hpath] at he ⊢
  exact hfollowed.take hsuffix he

/-- A cycle that was recorded closes from a key in the order. -/
theorem Tidy.closing_source_mem (h : Tidy s) {c : Cycle} (hc : c ∈ s.cycles)
    (hgenuine : c.Genuine g) : c.closing.source ∈ s.order :=
  (h.ordered c hc).subset (List.mem_of_getLast? hgenuine.last)

/-- To enter a key keeps the search tidy. -/
theorem Tidy.enter {taken : Option String} {key : String} (h : Tidy s)
    (hinv : Inv roots taken s) (hnew : key ∉ s.visited) : Tidy (s.enter key (g.edgesAt key)) := by
  refine ⟨h.paths, h.pairs, ?_, ?_, h.earliest, ?_, h.followed⟩
  · exact fun c hc => (h.ordered c hc).trans (order_sublist_enter s key _)
  · -- no cycle is closed from the new node yet
    intro c hc below hbelow
    rcases List.suffix_cons_iff.mp hbelow with heq | hbelow
    · have hmem := h.closing_source_mem hc (hinv.genuine c hc)
      rw [(List.cons.inj heq).1, ← hinv.visited] at hmem
      exact absurd hmem hnew
    · exact h.current c hc below hbelow
  · -- and none of its edges has been followed
    intro before hbefore e he
    rw [List.self_eq_append_left] at hbefore
    rw [hbefore] at he
    cases he

/-- A cycle is recorded that differs from all others in its path and in its ends. -/
theorem Tidy.add {c : Cycle} (h : Tidy s) (hpath : ∀ d ∈ s.cycles, d.path ≠ c.path)
    (hpair : (c.closing.source, c.closing.target) ∉ s.backEdges)
    (hordered : c.path.dropLast.Sublist s.order)
    (hcurrent : ∀ below, c.closing.source :: below <:+ s.path →
      c.path = closedPath (c.closing.source :: below) c.closing.target)
    (hearliest : g.wires.find?
      (fun d => d.source = c.closing.source ∧ d.target = c.closing.target) = some c.closing) :
    Tidy { s with cycles := s.cycles ++ [c] } := by
  refine ⟨?_, ?_, ?_, ?_, ?_, ?_⟩
  · rw [List.map_append, List.map_singleton, (List.perm_append_singleton _ _).nodup_iff,
      List.nodup_cons]
    refine ⟨?_, h.paths⟩
    intro hmem
    obtain ⟨d, hd, heq⟩ := List.mem_map.mp hmem
    exact hpath d hd heq
  · rw [backEdges, List.map_append, List.map_singleton,
      (List.perm_append_singleton _ _).nodup_iff, List.nodup_cons]
    exact ⟨hpair, h.pairs⟩
  · exact List.forall_mem_append.mpr ⟨h.ordered, List.forall_mem_singleton.mpr hordered⟩
  · exact List.forall_mem_append.mpr ⟨h.current, List.forall_mem_singleton.mpr hcurrent⟩
  · exact List.forall_mem_append.mpr ⟨h.earliest, List.forall_mem_singleton.mpr hearliest⟩
  · apply h.followed.mono
    rw [backEdges, backEdges, List.map_append]
    exact List.subset_append_left _ _

theorem eq_of_cons_suffix {below : List String} (hnodup : (v :: path).Nodup)
    (h : v :: below <:+ v :: path) : below = path := by
  rcases List.suffix_cons_iff.mp h with heq | hsuffix
  · exact (List.cons.inj heq).2
  · exact absurd (hsuffix.subset List.mem_cons_self) (List.nodup_cons.mp hnodup).1

/-- A closed path follows the order. -/
theorem dropLast_closedPath_sublist {target : String} (htarget : target ∈ s.path) :
    (closedPath s.path target).dropLast.Sublist s.order := by
  obtain ⟨above, below, heq, hclosed⟩ := closedPath_eq htarget
  rw [hclosed, List.dropLast_concat, order, heq, List.reverse_append, List.reverse_cons,
    List.append_assoc, List.append_assoc]
  refine List.Sublist.trans ?_ (List.sublist_append_right _ _)
  exact (List.sublist_append_left above.reverse s.finished).cons_cons target

/-- An edge of the node in hand that leads back, and whose pair is not recorded yet, is the
first connection with its ends. -/
theorem Tidy.find?_of_new (h : Tidy s) (hpath : s.path = v :: path)
    (hframes : s.frames = (e :: es) :: frames) (hsuffix : e :: es <:+ g.edgesAt v)
    (htarget : e.val.target ∈ s.path) (hpair : (v, e.val.target) ∉ s.backEdges) :
    g.wires.find? (fun d => d.source = e.val.source ∧ d.target = e.val.target) =
      some e.val := by
  obtain ⟨before, hbefore⟩ := hsuffix
  apply Graph.find?_of_edgesAt hbefore.symm
  intro d hd heq
  have hfollowed := h.followed
  rw [hpath, hframes] at hfollowed
  rw [hpath] at htarget
  -- an earlier edge to the same node would have closed a cycle
  apply hpair
  have hback := hfollowed.1 before hbefore.symm d hd
  rw [heq] at hback
  exact hback htarget

/-- The cycle that an edge of the node in hand closes is recorded, if its path is new. -/
theorem Tidy.record (h : Tidy s) (hinv : Inv roots none s)
    (hpath : s.path = v :: path) (hframes : s.frames = (e :: es) :: frames)
    (hsuffix : e :: es <:+ g.edgesAt v) (htarget : e.val.target ∈ s.path) :
    Tidy (recordCycle { s with frames := es :: frames } e.val) := by
  have htaken := hinv.take hframes
  have hedge : e ∈ g.edgesAt v := hsuffix.subset List.mem_cons_self
  have hsource : e.val.source = v := (Graph.mem_edgesAt.mp hedge).2
  have hnode : g.hasNode v = true := by
    apply hinv.present
    apply mem_order_of_path
    rw [hpath]
    exact List.mem_cons_self
  have hjoins : g.Joins e.val := Graph.joins_of_mem_edgesAt hnode hedge
  rw [recordCycle_eq]
  rcases cycles_recordCycle { s with frames := es :: frames } e.val with
    ⟨hsame, d, hd, hdpath⟩ | ⟨hadded, hnew⟩
  · rw [hsame]
    exact h.take hpath hframes hsuffix fun _ =>
      htaken.pair_mem_backEdges hpath hjoins hsource htarget hd hdpath
  · -- a recorded cycle with the same ends would have the same path
    have hpair : (v, e.val.target) ∉ s.backEdges := by
      intro hmem
      obtain ⟨d, hd, hs, ht⟩ := mem_backEdges.mp hmem
      apply hnew d hd
      show d.path = closedPath s.path e.val.target
      rw [h.current d hd path (by rw [hs, hpath]), hs, ht, hpath]
    have hwith : Tidy
        { s with cycles := s.cycles ++ [⟨closedPath s.path e.val.target, e.val⟩] } := by
      refine h.add hnew (hsource ▸ hpair) (dropLast_closedPath_sublist htarget) ?_
        (h.find?_of_new hpath hframes hsuffix htarget hpair)
      intro below hbelow
      have hnodup : (v :: path).Nodup := by
        rw [← hpath, ← List.nodup_reverse]
        exact (List.nodup_append.mp hinv.nodup).1
      rw [hpath] at hbelow ⊢
      rw [hsource] at hbelow ⊢
      rw [eq_of_cons_suffix hnodup hbelow]
    rw [hadded]
    refine hwith.take hpath hframes hsuffix fun _ => mem_backEdges.mpr ?_
    exact ⟨_, List.mem_append_right _ List.mem_cons_self, hsource, rfl⟩

/-- The node in hand takes its next edge and follows it. -/
theorem Tidy.follow (h : Tidy s) (hinv : Inv roots none s)
    (hpath : s.path = v :: path) (hframes : s.frames = (e :: es) :: frames)
    (hsuffix : e :: es <:+ g.edgesAt v) :
    Tidy (Search.follow { s with frames := es :: frames } g.edgesAt e) := by
  rw [Search.follow]
  split
  · next hmem =>
      rw [hinv.onStack] at hmem
      exact h.record hinv hpath hframes hsuffix (List.contains_iff_mem.mp hmem)
  · next hnot =>
      have htake : Tidy { s with frames := es :: frames } := by
        refine h.take hpath hframes hsuffix fun hmem => ?_
        rw [hinv.onStack] at hnot
        exact absurd (List.contains_iff_mem.mpr hmem) hnot
      split
      · exact htake
      · next hnew => exact htake.enter (hinv.take hframes) (by simpa using hnew)

/-- A step keeps the search tidy. -/
theorem Tidy.step (h : Tidy s) (hinv : Inv roots none s) : Tidy (s.step g.edgesAt) := by
  rw [Search.step]
  split
  · exact h
  · next frames hframes => exact h.leave hinv hframes
  · next e es frames hframes =>
      obtain ⟨v, path, hpath, hsuffix, -⟩ := hinv.exists_path hframes
      exact h.follow hinv hpath hframes hsuffix

/-- Every state that a search comes to is tidy. -/
theorem Occurs.tidy (h : Occurs roots s) : Tidy s := by
  induction h with
  | start => exact .initial
  | enter key hs _ _ hnew ih => exact ih.enter hs.inv hnew
  | step hs _ ih => exact ih.step hs.inv

/-- Recorded cycles through the same nodes have the same path. -/
theorem Occurs.path_eq_of_perm (h : Occurs roots s) {c d : Cycle} (hc : c ∈ s.cycles)
    (hd : d ∈ s.cycles) (hperm : c.path.dropLast.Perm d.path.dropLast) : c.path = d.path := by
  have hgenuine := h.inv.genuine
  have hsame : c.path.dropLast = d.path.dropLast :=
    (h.inv.nodup.perm_iff_eq_of_sublist (h.tidy.ordered c hc) (h.tidy.ordered d hd)).mp hperm
  -- the paths end where they begin, so that they agree in their ends too
  have hfirst : some c.closing.target = some d.closing.target := by
    rw [← (hgenuine c hc).first, hsame, (hgenuine d hd).first]
  rw [(hgenuine c hc).path_eq, (hgenuine d hd).path_eq, hsame, Option.some.inj hfirst]

end Search

namespace Graph

/-- **No cycle is found twice.** Whatever parallel connections there are and however cycles
overlap, no two of the cycles found are rotations of each other (a closed path repeats its
first node at its end, which does not count), and no two closing connections have the same
ends. Each closing connection is the first one of the graph that has its ends. -/
theorem findCycles_distinct (g : Graph) :
    g.findCycles.Pairwise (fun c d => ¬ c.path.dropLast.IsRotated d.path.dropLast ∧
      (c.closing.source, c.closing.target) ≠ (d.closing.source, d.closing.target)) ∧
    ∀ c ∈ g.findCycles, g.wires.find?
      (fun d => d.source = c.closing.source ∧ d.target = c.closing.target) = some c.closing := by
  obtain ⟨hoccurs, -, -⟩ := g.search_occurs (g.presentKeys g.nodes.keys)
  have hpaths : g.findCycles.Pairwise fun c d => c.path ≠ d.path :=
    List.pairwise_map.mp hoccurs.tidy.paths
  have hpairs : g.findCycles.Pairwise fun c d =>
      (c.closing.source, c.closing.target) ≠ (d.closing.source, d.closing.target) :=
    List.pairwise_map.mp hoccurs.tidy.pairs
  refine ⟨?_, hoccurs.tidy.earliest⟩
  refine (hpaths.and hpairs).imp_of_mem fun hc hd hne => ⟨fun hrotated => ?_, hne.2⟩
  exact hne.1 (hoccurs.path_eq_of_perm hc hd hrotated.perm)

/-- Three loops that overlap, with parallel connections among those that form them. -/
def overlappingLoops : Graph where
  id := "g"
  nodes := .ofList (["start", "left", "right"].map fun key =>
    (key, { id := key, config := .empty }))
  connections := .ofList [("1", { id := "1", source := "start", target := "left" }),
    ("2", { id := "2", source := "start", target := "left" }),
    ("3", { id := "3", source := "left", target := "start" }),
    ("4", { id := "4", source := "left", target := "right" }),
    ("5", { id := "5", source := "left", target := "start" }),
    ("6", { id := "6", source := "right", target := "start" }),
    ("7", { id := "7", source := "right", target := "left" })]

/-- The loops found differ, and the first of two connections closes the one from "left" to
"start". -/
theorem overlappingLoops_distinct :
    overlappingLoops.findCycles.map (·.path) = [["start", "left", "start"],
      ["start", "left", "right", "start"], ["left", "right", "left"]] ∧
    overlappingLoops.findCycles.Pairwise (fun c d =>
      ¬ c.path.dropLast.IsRotated d.path.dropLast ∧
      (c.closing.source, c.closing.target) ≠ (d.closing.source, d.closing.target)) ∧
    overlappingLoops.wires.find? (fun d => d.source = "left" ∧ d.target = "start") =
      some { id := "3", source := "left", target := "start" } := by
  have hfound : overlappingLoops.findCycles =
      [⟨["start", "left", "start"], { id := "3", source := "left", target := "start" }⟩,
        ⟨["start", "left", "right", "start"],
          { id := "6", source := "right", target := "start" }⟩,
        ⟨["left", "right", "left"], { id := "7", source := "right", target := "left" }⟩] := by
    rw [findCycles, search_of_after (n := 13) rfl]
    rfl
  obtain ⟨hdistinct, hearliest⟩ := findCycles_distinct overlappingLoops
  refine ⟨by rw [hfound]; rfl, hdistinct, ?_⟩
  apply hearliest ⟨["start", "left", "start"], { id := "3", source := "left", target := "start" }⟩
  rw [hfound]
  exact List.mem_cons_self

end Graph
end PlotGraph
