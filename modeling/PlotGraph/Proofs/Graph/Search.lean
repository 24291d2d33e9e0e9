import PlotGraph.Graph.Depth
import PlotGraph.Proofs.Graph.Path
import Mathlib.Data.List.Forall2
import Mathlib.Data.List.Infix
import Mathlib.Data.List.Nodup

/-!
# What a depth-first search keeps

All of a search is read off one list, the *order* of its nodes: those of the path from the
root on, and then those that have been left, the last one first. To leave a node does not
change the order, and to enter a node puts it in between. So what stands before what stays
as it is, and at the end the order is that of the finished nodes.

`Search.Inv` says of a state that every edge of a node in the order leads on in the order,
or back in it along a recorded cycle, or is still to be followed. Every operation of the
search keeps it (`Inv.leave`, `Inv.follow`), hence it holds in every state that occurs in a
search (`Occurs.inv`), and where nothing is left to be followed it becomes
`Search.Completed` (`search_completed`).
-/

namespace PlotGraph

/-! ### Genuine cycles -/

/-- A closed path of distinct nodes, each joined to the next one, and a connection that
leads from the last of them back to the first. -/
structure Cycle.Genuine (g : Graph) (c : Cycle) : Prop where
  path_eq : c.path = c.path.dropLast ++ [c.closing.target]
  first : c.path.dropLast.head? = some c.closing.target
  last : c.path.dropLast.getLast? = some c.closing.source
  nodup : c.path.dropLast.Nodup
  linked : c.path.dropLast.IsChain g.Joined
  closing : g.Joins c.closing

/-- A closed path tells the ends of the connection that closes it. -/
theorem Cycle.Genuine.ends_eq {g : Graph} {c d : Cycle} (hc : c.Genuine g) (hd : d.Genuine g)
    (h : c.path = d.path) :
    c.closing.source = d.closing.source ∧ c.closing.target = d.closing.target := by
  have hsource := hc.last
  have htarget := hc.first
  rw [h, hd.last] at hsource
  rw [h, hd.first] at htarget
  exact ⟨(Option.some.inj hsource).symm, (Option.some.inj htarget).symm⟩

namespace Search

variable {g : Graph} {roots : List String} {s t : Search g}

/-! ### The order of the nodes -/

/-- The nodes of the path from the root on, and then those that have been left, the last
one first. -/
def order (s : Search g) : List String := s.path.reverse ++ s.finished

/-- One node stands before another in the order. -/
def Before (s : Search g) (u v : String) : Prop := [u, v].Sublist s.order

/-- On the path a key stands behind those below it. -/
theorem before_of_path {u v : String} {path : List String} (hpath : s.path = v :: path)
    (hu : u ∈ path) : s.Before u v := by
  have hu' : [u].Sublist path.reverse := List.singleton_sublist.mpr (List.mem_reverse.mpr hu)
  have hv : [v].Sublist (v :: s.finished) := List.singleton_sublist.mpr List.mem_cons_self
  have h := hu'.append hv
  rw [Before, order, hpath, List.reverse_cons, List.append_assoc]
  exact h

/-- What is on the path stands before what has been left. -/
theorem before_of_finished {u v : String} (hu : u ∈ s.path) (hv : v ∈ s.finished) :
    s.Before u v :=
  (List.singleton_sublist.mpr (List.mem_reverse.mpr hu)).append
    (List.singleton_sublist.mpr hv)

/-- A key that is entered stands behind the path and before what has been left. -/
theorem order_enter (s : Search g) (key : String) (es : List g.Edge) :
    (s.enter key es).order = s.path.reverse ++ key :: s.finished := by
  simp [order, enter]

/-- To enter a node keeps what stands before what. -/
theorem order_sublist_enter (s : Search g) (key : String) (es : List g.Edge) :
    s.order.Sublist (s.enter key es).order := by
  rw [order_enter]
  exact (List.Sublist.refl _).append (List.sublist_cons_self key _)

/-- It stands behind everything on the path. -/
theorem before_enter {u key : String} (hu : u ∈ s.path) (es : List g.Edge) :
    (s.enter key es).Before u key :=
  before_of_path rfl hu

/-- To leave a key moves it from the path to what has been left. -/
theorem leave_eq {v : String} {path : List String} (hpath : s.path = v :: path) :
    s.leave = { s with
      onStack := s.onStack.erase v, path := path, frames := s.frames.tail,
      finished := v :: s.finished } := by
  rw [leave, hpath]

/-- To leave a key changes nothing in the order. -/
theorem order_leave {v : String} {path : List String} (hpath : s.path = v :: path) :
    s.leave.order = s.order := by
  rw [leave_eq hpath]
  simp [order, hpath]

/-! ### The invariant -/

/-- An edge is settled if it leads on in the order, or back along a recorded cycle. -/
def Settled (s : Search g) (u v : String) : Prop := (u, v) ∈ s.backEdges ∨ s.Before u v

/-- An edge is pending if it is still to be followed from a node of the path. -/
def Pending (s : Search g) (u : String) (e : g.Edge) : Prop :=
  ∃ es, (u, es) ∈ s.path.zip s.frames ∧ e ∈ es

/-- The invariant of a search from some roots. The node in hand may have taken an edge that
is not settled yet: `taken` is the node that this edge leads to. -/
structure Inv (roots : List String) (taken : Option String) (s : Search g) : Prop where
  onStack : s.onStack = s.path
  nodup : s.order.Nodup
  visited : ∀ v, v ∈ s.visited ↔ v ∈ s.order
  present : ∀ v ∈ s.order, g.hasNode v = true
  linked : s.path.IsChain fun v u => g.Joined u v
  frames : List.Forall₂ (fun v es => es <:+ g.edgesAt v) s.path s.frames
  edges : ∀ u ∈ s.order, ∀ e ∈ g.edgesAt u, s.Settled u e.target.val ∨ s.Pending u e ∨
    (u ∈ s.path.head? ∧ e.target.val ∈ taken)
  genuine : ∀ c ∈ s.cycles, c.Genuine g
  backward : ∀ c ∈ s.cycles, c.closing.target = c.closing.source ∨
    s.Before c.closing.target c.closing.source
  rooted : ∀ v ∈ s.order, v ∈ roots ∨ ∃ u, g.Joined u v ∧ s.Before u v

/-- What is settled stays so while keys are entered and cycles are recorded. -/
theorem Settled.mono {u v : String} (h : s.Settled u v) (horder : s.order.Sublist t.order)
    (hcycles : s.cycles ⊆ t.cycles) : t.Settled u v := by
  rcases h with hback | hbefore
  · exact Or.inl (List.map_subset _ hcycles hback)
  · exact Or.inr (hbefore.trans horder)

/-- The invariant holds of a search that has not begun. -/
theorem Inv.initial : Inv roots none ({} : Search g) where
  onStack := rfl
  nodup := List.nodup_nil
  visited := by simp [order]
  present := by simp [order]
  linked := List.isChain_nil
  frames := List.Forall₂.nil
  edges := by simp [order]
  genuine := by simp
  backward := by simp
  rooted := by simp [order]

theorem mem_order_of_path {v : String} (h : v ∈ s.path) : v ∈ s.order :=
  List.mem_append_left _ (List.mem_reverse.mpr h)

/-- The keys in the order are those on the path and those that have been left. -/
theorem mem_order_iff {v : String} : v ∈ s.order ↔ v ∈ s.path ∨ v ∈ s.finished := by
  rw [order, List.mem_append, List.mem_reverse]

/-- While there is a frame there is a node in hand, and the frame holds what is left of its
edges. -/
theorem Inv.exists_path {taken : Option String} {es : List g.Edge} {frames : List (List g.Edge)}
    (h : Inv roots taken s) (hframes : s.frames = es :: frames) :
    ∃ v path, s.path = v :: path ∧ es <:+ g.edgesAt v ∧
      List.Forall₂ (fun v es => es <:+ g.edgesAt v) path frames := by
  have hforall := h.frames
  rw [hframes] at hforall
  obtain ⟨v, path, hsuffix, hrest, hpath⟩ := List.forall₂_cons_right_iff.mp hforall
  exact ⟨v, path, hpath, hsuffix, hrest⟩

/-! ### Leaving a node -/

/-- To leave a node none of whose edges is left to follow. -/
theorem Inv.leave {frames : List (List g.Edge)} (h : Inv roots none s)
    (hframes : s.frames = [] :: frames) : Inv roots none s.leave := by
  obtain ⟨v, path, hpath, -, hrest⟩ := h.exists_path hframes
  have horder := order_leave hpath
  have hstack : s.leave.onStack = path := by
    rw [leave_eq hpath, h.onStack, hpath]
    exact List.erase_cons_head v path
  have hleave := leave_eq hpath
  refine ⟨?_, ?_, ?_, ?_, ?_, ?_, ?_, ?_, ?_, ?_⟩
  · rw [hstack, hleave]
  · rw [horder]
    exact h.nodup
  · intro u
    rw [horder, leave_visited]
    exact h.visited u
  · rw [horder]
    exact h.present
  · have hlinked := h.linked
    rw [hpath] at hlinked
    rw [hleave]
    exact hlinked.tail
  · rw [hleave, hframes]
    exact hrest
  · intro u hu e he
    rw [horder] at hu
    rcases h.edges u hu e he with hsettled | ⟨es, hzip, hes⟩ | ⟨-, htaken⟩
    · refine Or.inl (hsettled.mono ?_ ?_)
      · rw [horder]
      · rw [hleave]
        exact List.Subset.refl _
    · -- the frame of the node that is left holds no edge, so this is a frame below it
      rw [hpath, hframes, List.zip_cons_cons] at hzip
      rcases List.mem_cons.mp hzip with heq | hzip
      · cases heq
        cases hes
      · refine Or.inr (Or.inl ⟨es, ?_, hes⟩)
        rw [hleave, hframes]
        exact hzip
    · cases htaken
  · rw [hleave]
    exact h.genuine
  · intro c hc
    rw [hleave] at hc
    rw [Before, horder]
    exact h.backward c hc
  · intro u hu
    rw [horder] at hu
    rcases h.rooted u hu with hroot | ⟨w, hw, hbefore⟩
    · exact Or.inl hroot
    · refine Or.inr ⟨w, hw, ?_⟩
      rw [Before, horder]
      exact hbefore

/-! ### Following an edge -/

/-- The node in hand takes its next edge. -/
theorem Inv.take {e : g.Edge} {es : List g.Edge} {frames : List (List g.Edge)}
    (h : Inv roots none s) (hframes : s.frames = (e :: es) :: frames) :
    Inv roots (some e.target.val) { s with frames := es :: frames } := by
  obtain ⟨v, path, hpath, hsuffix, hrest⟩ := h.exists_path hframes
  refine ⟨h.onStack, h.nodup, h.visited, h.present, h.linked, ?_, ?_, h.genuine, h.backward,
    h.rooted⟩
  · rw [hpath]
    exact List.Forall₂.cons ((List.suffix_cons e es).trans hsuffix) hrest
  · intro u hu d hd
    rcases h.edges u hu d hd with hsettled | ⟨ds, hzip, hds⟩ | ⟨-, htaken⟩
    · exact Or.inl hsettled
    · -- the frame on top loses the edge that is taken, those below it stay
      rw [hpath, hframes, List.zip_cons_cons] at hzip
      rcases List.mem_cons.mp hzip with heq | hzip
      · cases heq
        rcases List.mem_cons.mp hds with rfl | hds
        · refine Or.inr (Or.inr ⟨?_, rfl⟩)
          rw [hpath]
          rfl
        · refine Or.inr (Or.inl ⟨es, ?_, hds⟩)
          rw [hpath]
          exact List.mem_cons_self
      · refine Or.inr (Or.inl ⟨ds, ?_, hds⟩)
        rw [hpath]
        exact List.mem_cons_of_mem _ hzip
    · cases htaken

/-- An edge that has been taken is settled, and so the node in hand may take the next one. -/
theorem Inv.settle {v target : String} {path : List String} (h : Inv roots (some target) s)
    (hpath : s.path = v :: path) (hsettled : s.Settled v target) : Inv roots none s := by
  refine ⟨h.onStack, h.nodup, h.visited, h.present, h.linked, h.frames, ?_, h.genuine,
    h.backward, h.rooted⟩
  intro u hu e he
  rcases h.edges u hu e he with hs | hpending | ⟨hhead, htaken⟩
  · exact Or.inl hs
  · exact Or.inr (Or.inl hpending)
  · rw [hpath] at hhead
    cases hhead
    cases htaken
    exact Or.inl hsettled

/-- What the closed path through a node of the path consists of. -/
theorem closedPath_eq {path : List String} {target : String} (h : target ∈ path) :
    ∃ above below, path = above ++ target :: below ∧
      closedPath path target = (target :: above.reverse) ++ [target] := by
  obtain ⟨above, below, rfl, hnot⟩ := List.eq_append_cons_of_mem h
  refine ⟨above, below, rfl, ?_⟩
  have hall : ∀ x ∈ above, (x != target) = true := by
    intro x hx
    rw [bne_iff_ne]
    rintro rfl
    exact hnot hx
  rw [closedPath, List.takeWhile_append_of_pos hall, List.takeWhile_cons_of_neg (by simp),
    List.append_nil]

/-- An edge from the node in hand back to a node of the path closes a genuine cycle. -/
theorem Inv.genuine_of_mem_path {v : String} {path : List String} {c : Connection}
    (h : Inv roots (some c.target) s) (hpath : s.path = v :: path) (hc : g.Joins c)
    (hsource : c.source = v) (htarget : c.target ∈ s.path) :
    Cycle.Genuine g ⟨closedPath s.path c.target, c⟩ := by
  -- a path has its last node first, and the closed path goes the other way round
  obtain ⟨above, below, heq, hclosed⟩ := closedPath_eq htarget
  have hdrop : (closedPath s.path c.target).dropLast = c.target :: above.reverse := by
    rw [hclosed, List.dropLast_concat]
  have hnodup : s.path.reverse.Nodup := (List.nodup_append.mp h.nodup).1
  have hlinked := h.linked
  rw [heq] at hnodup hlinked
  refine ⟨?_, ?_, ?_, ?_, ?_, hc⟩
  · show closedPath s.path c.target = (closedPath s.path c.target).dropLast ++ [c.target]
    rw [hdrop, hclosed]
  · show (closedPath s.path c.target).dropLast.head? = some c.target
    rw [hdrop]
    rfl
  · show (closedPath s.path c.target).dropLast.getLast? = some c.source
    rw [hdrop]
    cases above with
    | nil =>
        rw [hpath] at heq
        cases heq
        rw [hsource]
        rfl
    | cons w ws =>
        rw [hpath] at heq
        cases heq
        rw [hsource, List.reverse_cons, ← List.cons_append, List.getLast?_concat]
  · show (closedPath s.path c.target).dropLast.Nodup
    rw [hdrop]
    rw [List.nodup_reverse] at hnodup
    have hsub : (above ++ [c.target]).Sublist (above ++ c.target :: below) :=
      (List.Sublist.refl above).append (by simp)
    have hcut := List.nodup_reverse.mpr (hnodup.sublist hsub)
    rwa [List.reverse_append] at hcut
  · show (closedPath s.path c.target).dropLast.IsChain g.Joined
    rw [hdrop]
    have hcut : (above ++ [c.target]).IsChain fun v u => g.Joined u v := by
      rw [List.append_cons] at hlinked
      exact hlinked.left_of_append
    have hback := List.isChain_reverse.mpr hcut
    rwa [List.reverse_append] at hback

/-- A cycle is recorded under the path that its closing connection closes, unless this path
is recorded already; no cycle is forgotten. -/
theorem cycles_recordCycle (s : Search g) (c : Connection) :
    ((s.recordCycle c).cycles = s.cycles ∧
        ∃ d ∈ s.cycles, d.path = closedPath s.path c.target) ∨
      ((s.recordCycle c).cycles = s.cycles ++ [⟨closedPath s.path c.target, c⟩] ∧
        ∀ d ∈ s.cycles, d.path ≠ closedPath s.path c.target) := by
  simp only [recordCycle]
  split
  · next hany =>
      obtain ⟨d, hd, hpath⟩ := List.any_eq_true.mp hany
      exact Or.inl ⟨rfl, d, hd, beq_iff_eq.mp hpath⟩
  · next hnone =>
      refine Or.inr ⟨rfl, fun d hd hpath => hnone ?_⟩
      exact List.any_eq_true.mpr ⟨d, hd, beq_iff_eq.mpr hpath⟩

/-- To record a cycle changes nothing but the cycles. -/
theorem recordCycle_eq (s : Search g) (c : Connection) :
    s.recordCycle c = { s with cycles := (s.recordCycle c).cycles } := by
  simp only [recordCycle]
  split <;> rfl

/-- More cycles, all genuine and leading back, do not disturb the invariant. -/
theorem Inv.with_cycles {taken : Option String} {cycles : List Cycle} (h : Inv roots taken s)
    (hmono : s.cycles ⊆ cycles) (hgenuine : ∀ c ∈ cycles, c.Genuine g)
    (hbackward : ∀ c ∈ cycles, c.closing.target = c.closing.source ∨
      s.Before c.closing.target c.closing.source) :
    Inv roots taken { s with cycles := cycles } := by
  refine ⟨h.onStack, h.nodup, h.visited, h.present, h.linked, h.frames, ?_, hgenuine,
    hbackward, h.rooted⟩
  intro u hu e he
  rcases h.edges u hu e he with hsettled | hrest
  · exact Or.inl (hsettled.mono (List.Sublist.refl _) hmono)
  · exact Or.inr hrest

/-- If the cycle of an edge back is not recorded again, the pair of the edge is recorded. -/
theorem Inv.pair_mem_backEdges {v : String} {path : List String} {c : Connection} {d : Cycle}
    (h : Inv roots (some c.target) s) (hpath : s.path = v :: path) (hc : g.Joins c)
    (hsource : c.source = v) (htarget : c.target ∈ s.path) (hd : d ∈ s.cycles)
    (hdpath : d.path = closedPath s.path c.target) : (v, c.target) ∈ s.backEdges := by
  obtain ⟨hs, ht⟩ :=
    (h.genuine d hd).ends_eq (h.genuine_of_mem_path hpath hc hsource htarget) hdpath
  refine List.mem_map.mpr ⟨d, hd, ?_⟩
  rw [hs, ht, ← hsource]

/-- An edge back to a node of the path is settled by the cycle it closes. -/
theorem Inv.record {v : String} {path : List String} {c : Connection}
    (h : Inv roots (some c.target) s) (hpath : s.path = v :: path) (hc : g.Joins c)
    (hsource : c.source = v) (htarget : c.target ∈ s.path) :
    Inv roots none (s.recordCycle c) := by
  rw [recordCycle_eq]
  rcases cycles_recordCycle s c with ⟨hsame, d, hd, hdpath⟩ | ⟨hadded, -⟩
  · rw [hsame]
    exact h.settle hpath (Or.inl (h.pair_mem_backEdges hpath hc hsource htarget hd hdpath))
  · have hnew := h.genuine_of_mem_path hpath hc hsource htarget
    have hback : c.target = c.source ∨ s.Before c.target c.source := by
      rw [hpath] at htarget
      rcases List.mem_cons.mp htarget with heq | hmem
      · exact Or.inl (heq.trans hsource.symm)
      · rw [hsource]
        exact Or.inr (before_of_path hpath hmem)
    rw [hadded]
    have hwith := h.with_cycles
      (List.subset_append_left s.cycles [⟨closedPath s.path c.target, c⟩])
      (List.forall_mem_append.mpr ⟨h.genuine, List.forall_mem_singleton.mpr hnew⟩)
      (List.forall_mem_append.mpr ⟨h.backward, List.forall_mem_singleton.mpr hback⟩)
    apply hwith.settle hpath
    left
    refine List.mem_map.mpr ⟨⟨closedPath s.path c.target, c⟩, ?_, ?_⟩
    · exact List.mem_append_right _ List.mem_cons_self
    · rw [← hsource]

/-- A node that has not been visited is entered: from the node in hand, or as a root. -/
theorem Inv.enter {taken : Option String} {key : String} (h : Inv roots taken s)
    (hnew : key ∉ s.visited) (hnode : g.hasNode key = true)
    (htaken : ∀ target ∈ taken, target = key)
    (hlink : ∀ v ∈ s.path.head?, g.Joined v key) (hroot : s.path = [] → key ∈ roots) :
    Inv roots none (s.enter key (g.edgesAt key)) := by
  have hnew' : key ∉ s.order := by
    intro hmem
    exact hnew ((h.visited key).mpr hmem)
  have horder := order_enter s key (g.edgesAt key)
  have hgrows := order_sublist_enter s key (g.edgesAt key)
  have hperm : (s.enter key (g.edgesAt key)).order.Perm (key :: s.order) := by
    rw [horder]
    exact List.perm_middle
  refine ⟨?_, ?_, ?_, ?_, ?_, ?_, ?_, h.genuine, ?_, ?_⟩
  · exact congrArg (key :: ·) h.onStack
  · exact hperm.nodup_iff.mpr (List.nodup_cons.mpr ⟨hnew', h.nodup⟩)
  · intro v
    rw [hperm.mem_iff]
    show v ∈ key :: s.visited ↔ v ∈ key :: s.order
    rw [List.mem_cons, List.mem_cons, h.visited v]
  · intro v hv
    rcases List.mem_cons.mp (hperm.mem_iff.mp hv) with rfl | hv
    · exact hnode
    · exact h.present v hv
  · exact List.isChain_cons.mpr ⟨hlink, h.linked⟩
  · exact List.Forall₂.cons (List.suffix_refl _) h.frames
  · -- the edges of the new node are pending, and the edge that led to it is settled now
    intro u hu e he
    rcases List.mem_cons.mp (hperm.mem_iff.mp hu) with rfl | hu
    · exact Or.inr (Or.inl ⟨_, List.mem_cons_self, he⟩)
    · rcases h.edges u hu e he with hsettled | ⟨es, hzip, hes⟩ | ⟨hhead, hmem⟩
      · exact Or.inl (hsettled.mono hgrows (List.Subset.refl _))
      · exact Or.inr (Or.inl ⟨es, List.mem_cons_of_mem _ hzip, hes⟩)
      · rw [htaken _ hmem]
        exact Or.inl (Or.inr (before_enter (List.mem_of_mem_head? hhead) _))
  · intro c hc
    rcases h.backward c hc with heq | hbefore
    · exact Or.inl heq
    · exact Or.inr (hbefore.trans hgrows)
  · intro v hv
    rcases List.mem_cons.mp (hperm.mem_iff.mp hv) with rfl | hv
    · cases hpath : s.path with
      | nil => exact Or.inl (hroot hpath)
      | cons u path =>
          refine Or.inr ⟨u, hlink u (by rw [hpath]; rfl), before_enter ?_ _⟩
          rw [hpath]
          exact List.mem_cons_self
    · rcases h.rooted v hv with hroot | ⟨u, hu, hbefore⟩
      · exact Or.inl hroot
      · exact Or.inr ⟨u, hu, hbefore.trans hgrows⟩

/-- The node in hand follows the edge it has taken. -/
theorem Inv.follow {e : g.Edge} {v : String} {path : List String}
    (h : Inv roots (some e.target.val) s) (hpath : s.path = v :: path)
    (he : e ∈ g.edgesAt v) : Inv roots none (s.follow g.edgesAt e) := by
  have hnode : g.hasNode v = true := by
    apply h.present
    apply mem_order_of_path
    rw [hpath]
    exact List.mem_cons_self
  have hsource : e.val.source = v := (Graph.mem_edgesAt.mp he).2
  have hjoins : g.Joins e.val := Graph.joins_of_mem_edgesAt hnode he
  rw [Search.follow, h.onStack]
  split
  · next hmem => exact h.record hpath hjoins hsource (List.contains_iff_mem.mp hmem)
  · next hnot =>
      split
      · next hvisited =>
          -- a visited node that is not on the path has been left before
          refine h.settle hpath (Or.inr (before_of_finished ?_ ?_))
          · rw [hpath]
            exact List.mem_cons_self
          · have horder := (h.visited e.target.val).mp (by simpa using hvisited)
            exact (mem_order_iff.mp horder).resolve_left (by simpa using hnot)
      · next hnew =>
          refine h.enter (by simpa using hnew) e.target.property ?_ ?_ ?_
          · intro target htarget
            cases htarget
            rfl
          · intro u hu
            rw [hpath] at hu
            cases hu
            rw [← hsource]
            exact hjoins.joined
          · intro hnil
            rw [hpath] at hnil
            cases hnil

/-- A step keeps the invariant. -/
theorem Inv.step (h : Inv roots none s) : Inv roots none (s.step g.edgesAt) := by
  rw [Search.step]
  split
  · exact h
  · next frames hframes => exact h.leave hframes
  · next e es frames hframes =>
      obtain ⟨v, path, hpath, hsuffix, -⟩ := h.exists_path hframes
      exact (h.take hframes).follow hpath (hsuffix.subset List.mem_cons_self)

/-- Without frames there is no path. -/
theorem Inv.path_eq_nil {taken : Option String} (h : Inv roots taken s)
    (hframes : s.frames = []) : s.path = [] := by
  have hforall := h.frames
  rw [hframes] at hforall
  exact List.forall₂_nil_right_iff.mp hforall

/-- Where nothing is left to follow, path and frames are empty already. -/
theorem Inv.reset_eq {taken : Option String} (h : Inv roots taken s) (hframes : s.frames = []) :
    { s with path := [], frames := [] } = s := by
  rw [← h.path_eq_nil hframes, ← hframes]

/-- A new root is entered where nothing is left to follow. -/
theorem Inv.enterRoot (h : Inv roots none s) (hframes : s.frames = []) {key : String}
    (hnode : g.hasNode key = true) (hroot : key ∈ roots) (hnew : key ∉ s.visited) :
    Inv roots none (s.enter key (g.edgesAt key)) := by
  refine h.enter hnew hnode ?_ ?_ fun _ => hroot
  · intro target htarget
    cases htarget
  · intro v hv
    rw [h.path_eq_nil hframes] at hv
    cases hv

/-! ### The states of a search -/

/-- The states that a search from some roots goes through: it enters a root that has not been
visited, and takes steps until nothing is left to follow. -/
inductive Occurs (roots : List String) : Search g → Prop
  | start : Occurs roots {}
  | enter {s : Search g} (key : g.Key) : Occurs roots s → s.frames = [] → key.val ∈ roots →
      key.val ∉ s.visited → Occurs roots (s.enter key.val (g.edgesAt key.val))
  | step {s : Search g} : Occurs roots s → s.frames ≠ [] → Occurs roots (s.step g.edgesAt)

/-- The invariant holds of every state that a search comes to. -/
theorem Occurs.inv (h : Occurs roots s) : Inv roots none s := by
  induction h with
  | start => exact .initial
  | enter key _ hframes hroot hnew ih => exact ih.enterRoot hframes key.property hroot hnew
  | step _ _ ih => exact ih.step

/-- A search that runs on to the end of its frames comes to a state of the search. -/
theorem Occurs.run (h : Occurs roots s) : Occurs roots (s.run g.edgesAt) := by
  induction s using Search.run.induct g.edgesAt with
  | case1 s hnil =>
      rw [Search.run, if_pos hnil]
      exact h
  | case2 s hne ih =>
      rw [Search.run, if_neg hne]
      exact ih (h.step hne)

/-- A run ends with nothing left to follow. -/
theorem frames_run (edgesOf : String → List g.Edge) (s : Search g) :
    (s.run edgesOf).frames = [] := by
  induction s using Search.run.induct edgesOf with
  | case1 s hnil => rw [Search.run, if_pos hnil, hnil]
  | case2 s hne ih => rw [Search.run, if_neg hne, ih]

/-! ### Searches from several roots -/

/-- A step forgets nothing of what was visited. -/
theorem visited_suffix_step (edgesOf : String → List g.Edge) (s : Search g) :
    s.visited <:+ (s.step edgesOf).visited := by
  rw [Search.step]
  split
  · exact List.suffix_refl _
  · rw [leave_visited]
  · rw [Search.follow]
    split
    · rw [recordCycle_visited]
    · split
      · exact List.suffix_refl _
      · exact List.suffix_cons _ _

/-- Nor does a search that runs on to the end of its frames. -/
theorem visited_suffix_run (edgesOf : String → List g.Edge) (s : Search g) :
    s.visited <:+ (s.run edgesOf).visited := by
  induction s using Search.run.induct edgesOf with
  | case1 s hnil =>
      rw [Search.run, if_pos hnil]
  | case2 s hne ih =>
      rw [Search.run, if_neg hne]
      exact (visited_suffix_step edgesOf s).trans ih

/-- Nor does the exploration of a root. -/
theorem visited_suffix_explore (edgesOf : String → List g.Edge) (s : Search g)
    (root : String) : s.visited <:+ (s.explore edgesOf root).visited := by
  rw [Search.explore]
  split
  · exact List.suffix_refl _
  · have hrun := visited_suffix_run edgesOf
      ({ s with path := [], frames := [] }.enter root (edgesOf root))
    exact (List.suffix_cons root s.visited).trans hrun

/-- A root that is explored has been visited. -/
theorem mem_visited_explore (edgesOf : String → List g.Edge) (s : Search g)
    (root : String) : root ∈ (s.explore edgesOf root).visited := by
  rw [Search.explore]
  split
  · next hmem => simpa using hmem
  · exact (visited_suffix_run edgesOf _).subset List.mem_cons_self

/-- A search that explores another root comes to a state of the search, with no frames left. -/
theorem Occurs.explore (h : Occurs roots s) (hframes : s.frames = []) (root : g.Key)
    (hroot : root.val ∈ roots) :
    Occurs roots (s.explore g.edgesAt root.val) ∧
      (s.explore g.edgesAt root.val).frames = [] := by
  rw [Search.explore, h.inv.reset_eq hframes]
  split
  · exact ⟨h, hframes⟩
  · next hnew =>
      exact ⟨(h.enter root hframes hroot (by simpa using hnew)).run, frames_run _ _⟩

/-- What is known when a search from some roots is over: all nodes of the order are
finished, and every edge between them leads on in it, or back along a recorded cycle. -/
structure Completed (roots : List String) (s : Search g) : Prop where
  nodup : s.finished.Nodup
  visited : ∀ v, v ∈ s.visited ↔ v ∈ s.finished
  present : ∀ v ∈ s.finished, g.hasNode v = true
  roots_mem : ∀ r ∈ roots, r ∈ s.finished
  edges : ∀ u ∈ s.finished, ∀ v, g.Joined u v →
    (u, v) ∈ s.backEdges ∨ [u, v].Sublist s.finished
  genuine : ∀ c ∈ s.cycles, c.Genuine g
  backward : ∀ c ∈ s.cycles, c.closing.target = c.closing.source ∨
    [c.closing.target, c.closing.source].Sublist s.finished
  rooted : ∀ v ∈ s.finished, v ∈ roots ∨ ∃ u, g.Joined u v ∧ [u, v].Sublist s.finished

/-- Where no frame is left, the invariant speaks of finished nodes only. -/
theorem Inv.completed (h : Inv roots none s) (hframes : s.frames = [])
    (hroots : ∀ r ∈ roots, r ∈ s.visited) : Completed roots s := by
  have hpath := h.path_eq_nil hframes
  have horder : s.order = s.finished := by
    rw [order, hpath]
    rfl
  have hbefore : ∀ u v, s.Before u v ↔ [u, v].Sublist s.finished := by
    intro u v
    rw [Before, horder]
  have hvisited : ∀ v, v ∈ s.visited ↔ v ∈ s.finished := by
    intro v
    rw [h.visited v, horder]
  refine ⟨?_, hvisited, ?_, fun r hr => (hvisited r).mp (hroots r hr), ?_, h.genuine, ?_, ?_⟩
  · rw [← horder]
    exact h.nodup
  · rw [← horder]
    exact h.present
  · intro u hu v huv
    rw [← horder] at hu
    obtain ⟨e, he, rfl⟩ := (Graph.joined_iff (h.present u hu)).mp huv
    rcases h.edges u hu e he with (hback | hb) | ⟨es, hzip, -⟩ | ⟨-, htaken⟩
    · exact Or.inl hback
    · exact Or.inr ((hbefore u _).mp hb)
    · -- without a path no edge is pending
      rw [hpath] at hzip
      cases hzip
    · cases htaken
  · intro c hc
    rcases h.backward c hc with heq | hb
    · exact Or.inl heq
    · exact Or.inr ((hbefore _ _).mp hb)
  · intro v hv
    rw [← horder] at hv
    rcases h.rooted v hv with hroot | ⟨u, hu, hb⟩
    · exact Or.inl hroot
    · exact Or.inr ⟨u, hu, (hbefore u v).mp hb⟩

/-- To search from some more roots, one after the other. -/
theorem Occurs.foldl_explore (h : Occurs roots s) (hframes : s.frames = [])
    (keys : List g.Key) (hkeys : ∀ k ∈ keys, k.val ∈ roots) :
    let t := keys.foldl (fun s k => s.explore g.edgesAt k.val) s
    Occurs roots t ∧ t.frames = [] ∧ s.visited ⊆ t.visited ∧
      ∀ k ∈ keys, k.val ∈ t.visited := by
  induction keys generalizing s with
  | nil => exact ⟨h, hframes, List.Subset.refl _, by simp⟩
  | cons k rest ih =>
      obtain ⟨hk, hkframes⟩ := h.explore hframes k (hkeys k List.mem_cons_self)
      obtain ⟨hoccurs, hnil, hmono, hrest⟩ :=
        ih hk hkframes fun x hx => hkeys x (List.mem_cons_of_mem k hx)
      refine ⟨hoccurs, hnil, ?_, ?_⟩
      · exact List.Subset.trans (visited_suffix_explore _ s k.val).subset hmono
      · intro x hx
        rcases List.mem_cons.mp hx with rfl | hx
        · exact hmono (mem_visited_explore _ s x.val)
        · exact hrest x hx

end Search

namespace Graph

/-- A search from some roots ends in a state that occurs, with nothing left to follow and all
roots visited. -/
theorem search_occurs (g : Graph) (keys : List g.Key) :
    Search.Occurs (keys.map Subtype.val) (g.search keys) ∧ (g.search keys).frames = [] ∧
      ∀ r ∈ keys.map Subtype.val, r ∈ (g.search keys).visited := by
  have hkeys : ∀ k ∈ keys, k.val ∈ keys.map Subtype.val := fun k hk => List.mem_map_of_mem hk
  obtain ⟨hoccurs, hframes, -, hmem⟩ := Search.Occurs.start.foldl_explore rfl keys hkeys
  exact ⟨hoccurs, hframes, List.forall_mem_map.mpr hmem⟩

/-- A search from some roots is completed. -/
theorem search_completed (g : Graph) (keys : List g.Key) :
    Search.Completed (keys.map Subtype.val) (g.search keys) := by
  obtain ⟨hoccurs, hframes, hroots⟩ := g.search_occurs keys
  exact hoccurs.inv.completed hframes hroots

end Graph
end PlotGraph
