import PlotGraph.Proofs.Graph.Cycles

/-!
# One sweep over the order of a search

An edge is *forward* if it does not go back along a recorded cycle. Forward edges lead on in
the order of the finished nodes, so that paths along them are simple, and they still lead to
every node that the roots reach (`Completed.exists_forwardPath`).

The depths are relaxed in one sweep over that order. Swept nodes have handed their depth on
for good, and every depth is that of some forward path (`Swept`); at the end a depth is
therefore the length of a longest forward path (`Swept.length_le`).
-/

namespace PlotGraph

/-! ### Forward edges -/

namespace Search

variable {g : Graph} {roots : List String} {s : Search g}

/-- Two nodes are joined by a connection that closes no recorded cycle. -/
def Forward (s : Search g) (u v : String) : Prop := g.Joined u v ∧ (u, v) ∉ s.backEdges

/-- A path along forward edges, from a root to a node. -/
structure ForwardPath (s : Search g) (roots path : List String) (v : String) : Prop where
  starts : ∃ r ∈ path.head?, r ∈ roots
  linked : path.IsChain s.Forward
  ends : path.getLast? = some v

theorem ForwardPath.single {r : String} (hr : r ∈ roots) : s.ForwardPath roots [r] r :=
  ⟨⟨r, rfl, hr⟩, List.isChain_singleton r, rfl⟩

theorem ForwardPath.snoc {path : List String} {u v : String} (h : s.ForwardPath roots path u)
    (huv : s.Forward u v) : s.ForwardPath roots (path ++ [v]) v := by
  obtain ⟨r, hr, hroot⟩ := h.starts
  refine ⟨⟨r, ?_, hroot⟩, ?_, List.getLast?_concat⟩
  · rw [List.head?_append, Option.mem_def.mp hr]
    rfl
  · refine List.isChain_append.mpr ⟨h.linked, List.isChain_singleton v, ?_⟩
    intro x hx y hy
    rw [h.ends] at hx
    cases hx
    cases hy
    exact huv

/-- When a search is over, it has finished all that is joined to what it has finished. -/
theorem Completed.finished_of_joined (h : Completed roots s) {u v : String}
    (hu : u ∈ s.finished) (huv : g.Joined u v) : v ∈ s.finished := by
  rcases h.edges u hu v huv with hback | hsub
  · obtain ⟨c, hc, rfl, rfl⟩ := mem_backEdges.mp hback
    rcases h.backward c hc with heq | hsub
    · rw [heq]
      exact hu
    · exact hsub.subset (by simp)
  · exact hsub.subset (by simp)

/-- A forward step leads on in the order in which keys are taken. -/
theorem Completed.sublist_of_forward (h : Completed roots s) {u v : String}
    (hu : u ∈ s.finished) (huv : s.Forward u v) : [u, v].Sublist s.finished :=
  (h.edges u hu v huv.1).resolve_left huv.2

/-- It leads to a later place in that order. -/
theorem Completed.idxOf_lt (h : Completed roots s) {u v : String} (hu : u ∈ s.finished)
    (huv : s.Forward u v) : s.finished.idxOf u < s.finished.idxOf v :=
  Graph.idxOf_lt_of_sublist h.nodup (h.sublist_of_forward hu huv)

/-- What is joined and comes later is joined by a forward step. -/
theorem Completed.forward_of_sublist (h : Completed roots s) {u v : String}
    (huv : g.Joined u v) (hsub : [u, v].Sublist s.finished) : s.Forward u v := by
  refine ⟨huv, ?_⟩
  intro hback
  have hlt := Graph.idxOf_lt_of_sublist h.nodup hsub
  obtain ⟨c, hc, rfl, rfl⟩ := mem_backEdges.mp hback
  rcases h.backward c hc with heq | hsub'
  · rw [heq] at hlt
    exact Nat.lt_irrefl _ hlt
  · exact Nat.lt_asymm hlt (Graph.idxOf_lt_of_sublist h.nodup hsub')

/-- Whatever has been finished is a root, or a forward step leads to it. -/
theorem Completed.root_or_forward (h : Completed roots s) {v : String} (hv : v ∈ s.finished) :
    v ∈ roots ∨ ∃ u ∈ s.finished, s.Forward u v := by
  rcases h.rooted v hv with hroot | ⟨u, huv, hsub⟩
  · exact Or.inl hroot
  · exact Or.inr ⟨u, hsub.subset (by simp), h.forward_of_sublist huv hsub⟩

/-- A forward path leads from some root to every finished node. -/
theorem Completed.exists_forwardPath (h : Completed roots s) {v : String}
    (hv : v ∈ s.finished) : ∃ path, s.ForwardPath roots path v := by
  -- the node before is found further back in the order, so the position is the measure
  induction hn : s.finished.idxOf v using Nat.strongRecOn generalizing v with
  | _ n ih =>
      rcases h.root_or_forward hv with hroot | ⟨u, hu, huv⟩
      · exact ⟨[v], .single hroot⟩
      · obtain ⟨path, hpath⟩ := ih _ (hn ▸ h.idxOf_lt hu huv) hu rfl
        exact ⟨path ++ [v], hpath.snoc huv⟩

/-- A forward path stays in what has been finished. -/
theorem Completed.forall_mem_finished (h : Completed roots s) {path : List String} {v : String}
    (hpath : s.ForwardPath roots path v) : ∀ u ∈ path, u ∈ s.finished := by
  obtain ⟨r, hr, hroot⟩ := hpath.starts
  cases path with
  | nil => cases hr
  | cons w ws =>
      cases hr
      refine hpath.linked.induction (· ∈ s.finished) _ ?_ fun _ => h.roots_mem _ hroot
      intro x y hxy hx
      exact h.finished_of_joined hx hxy.1

/-- No forward path comes to a key twice. -/
theorem Completed.nodup_of_forwardPath (h : Completed roots s) {path : List String}
    {v : String} (hpath : s.ForwardPath roots path v) : path.Nodup := by
  have hmem := h.forall_mem_finished hpath
  have hgrows : (path.map fun u => s.finished.idxOf u).IsChain (· < ·) := by
    rw [List.isChain_map]
    refine hpath.linked.imp_of_mem_imp ?_
    intro u w hu hw huw
    exact h.idxOf_lt (hmem u hu) huw
  have hnodup : (path.map fun u => s.finished.idxOf u).Nodup :=
    hgrows.pairwise.imp fun hlt => hlt.ne
  exact hnodup.of_map _

/-! ### Relaxing the edges of a node -/

/-- The depth that a table gives to a node; zero if it gives none. -/
def depthAt (depths : Mapping String Nat) (v : String) : Nat := (depths.get? v).getD 0

/-- A depth that is not zero stands in the mapping. -/
theorem get?_of_depthAt_pos {depths : Mapping String Nat} {v : String}
    (h : 1 ≤ depthAt depths v) : depths.get? v = some (depthAt depths v) := by
  rw [depthAt] at h ⊢
  cases hv : depths.get? v with
  | none =>
      rw [hv] at h
      cases h
  | some d => rfl

/-- An edge of a node hands the depth of that node on, unless it goes back. -/
def relaxEdge (back : List (String × String)) (node : String) (here : Nat)
    (depths : Mapping String Nat) (e : g.Edge) : Mapping String Nat :=
  if back.contains (node, e.target.val) then depths
  else depths.put e.target.val (max ((depths.get? e.target.val).getD 0) (here + 1))

variable {back : List (String × String)} {node v : String} {here : Nat}

/-- Back edges raise no depths. -/
theorem get?_relaxEdge_of_back (depths : Mapping String Nat) {e : g.Edge}
    (h : e.target.val = v → (node, v) ∈ back) :
    (relaxEdge back node here depths e).get? v = depths.get? v := by
  rw [relaxEdge]
  split
  · rfl
  · next hnot =>
      rw [Mapping.get?_put, if_neg]
      rintro rfl
      exact hnot (by simpa using h rfl)

/-- An edge that leads on raises the depth of its target to one more than here. -/
theorem get?_relaxEdge_target (depths : Mapping String Nat) {e : g.Edge}
    (h : (node, e.target.val) ∉ back) :
    (relaxEdge back node here depths e).get? e.target.val =
      some (max (depthAt depths e.target.val) (here + 1)) := by
  rw [relaxEdge, if_neg (by simpa using h), Mapping.get?_put, if_pos rfl, depthAt]

/-- Where no edge hands a depth on to a node, its depth stays. -/
theorem get?_foldl_relaxEdge_of_back (es : List g.Edge) (depths : Mapping String Nat)
    (h : ∀ e ∈ es, e.target.val = v → (node, v) ∈ back) :
    (es.foldl (relaxEdge back node here) depths).get? v = depths.get? v := by
  induction es generalizing depths with
  | nil => rfl
  | cons e rest ih =>
      obtain ⟨he, hrest⟩ := List.forall_mem_cons.mp h
      rw [List.foldl_cons, ih _ hrest, get?_relaxEdge_of_back depths he]

/-- However many edges hand the depth on to a node, the greater one of the two counts. -/
theorem get?_foldl_relaxEdge (es : List g.Edge) (depths : Mapping String Nat)
    (hback : (node, v) ∉ back) (h : ∃ e ∈ es, e.target.val = v) :
    (es.foldl (relaxEdge back node here) depths).get? v =
      some (max (depthAt depths v) (here + 1)) := by
  induction es generalizing depths with
  | nil =>
      obtain ⟨e, he, -⟩ := h
      cases he
  | cons e rest ih =>
      rw [List.foldl_cons]
      by_cases hv : e.target.val = v
      · subst hv
        have htarget : (relaxEdge back node here depths e).get? e.target.val =
            some (max (depthAt depths e.target.val) (here + 1)) :=
          get?_relaxEdge_target depths hback
        -- a later edge to the same node hands the same depth on once more
        by_cases hrest : ∃ d ∈ rest, d.target.val = e.target.val
        · rw [ih _ hrest, depthAt, htarget, Option.getD_some, max_assoc, max_self]
        · rw [get?_foldl_relaxEdge_of_back, htarget]
          intro d hd heq
          exact absurd ⟨d, hd, heq⟩ hrest
      · have hrest : ∃ d ∈ rest, d.target.val = v := by
          obtain ⟨d, hd, hdv⟩ := h
          rcases List.mem_cons.mp hd with rfl | hd
          · exact absurd hdv hv
          · exact ⟨d, hd, hdv⟩
        rw [ih _ hrest, depthAt, get?_relaxEdge_of_back depths fun heq => absurd heq hv, depthAt]

/-- To take a key raises the depths that its forward steps lead to. -/
theorem get?_relax_of_forward (hnode : g.hasNode node = true) (h : s.Forward node v)
    (depths : Mapping String Nat) :
    (g.relax g.edgesAt s.backEdges depths node).get? v =
      some (max (depthAt depths v) ((depths.get? node).getD 1 + 1)) :=
  get?_foldl_relaxEdge _ depths h.2 ((Graph.joined_iff hnode).mp h.1)

/-- It leaves all other depths alone. -/
theorem get?_relax_of_not_forward (hnode : g.hasNode node = true) (h : ¬ s.Forward node v)
    (depths : Mapping String Nat) :
    (g.relax g.edgesAt s.backEdges depths node).get? v = depths.get? v := by
  apply get?_foldl_relaxEdge_of_back
  intro e he heq
  by_contra hback
  exact h ⟨(Graph.joined_iff hnode).mpr ⟨e, he, heq⟩, hback⟩

theorem depthAt_relax_of_forward (hnode : g.hasNode node = true) (h : s.Forward node v)
    (depths : Mapping String Nat) :
    depthAt (g.relax g.edgesAt s.backEdges depths node) v =
      max (depthAt depths v) ((depths.get? node).getD 1 + 1) := by
  rw [depthAt.eq_def (g.relax _ _ _ _), get?_relax_of_forward hnode h, Option.getD_some]

theorem depthAt_relax_of_not_forward (hnode : g.hasNode node = true) (h : ¬ s.Forward node v)
    (depths : Mapping String Nat) :
    depthAt (g.relax g.edgesAt s.backEdges depths node) v = depthAt depths v := by
  rw [depthAt, get?_relax_of_not_forward hnode h, depthAt]

/-- Depths never become less. -/
theorem depthAt_le_relax (hnode : g.hasNode node = true) (depths : Mapping String Nat)
    (v : String) :
    depthAt depths v ≤ depthAt (g.relax g.edgesAt s.backEdges depths node) v := by
  by_cases h : s.Forward node v
  · rw [depthAt_relax_of_forward hnode h]
    exact le_max_left _ _
  · rw [depthAt_relax_of_not_forward hnode h]

/-! ### The sweep -/

/-- What the sweep over the order keeps: the swept nodes have handed their depth on, and
every depth is the length of a forward path. -/
structure Swept (s : Search g) (roots done : List String) (depths : Mapping String Nat) :
    Prop where
  roots_le : ∀ r ∈ roots, 1 ≤ depthAt depths r
  grown : ∀ u ∈ done, ∀ v, s.Forward u v → depthAt depths u < depthAt depths v
  attained : ∀ v d, depths.get? v = some d → ∃ path, s.ForwardPath roots path v ∧
    path.length = d

/-- A node that stands before the next one of the order has been swept. -/
theorem mem_done_of_sublist {u : String} {done rest : List String}
    (hnodup : (done ++ node :: rest).Nodup)
    (h : [u, node].Sublist (done ++ node :: rest)) : u ∈ done := by
  have hlt := Graph.idxOf_lt_of_sublist hnodup h
  have hnode : node ∉ done := by
    intro hmem
    exact (List.nodup_append.mp hnodup).2.2 node hmem node List.mem_cons_self rfl
  by_contra hu
  rw [List.idxOf_append_of_notMem hu, List.idxOf_append_of_notMem hnode,
    List.idxOf_cons_self] at hlt
  exact Nat.not_lt_zero _ (Nat.lt_of_add_lt_add_left hlt)

section Split

variable {done rest : List String} {depths : Mapping String Nat}

/-- The next node of the order has its depth: all forward edges to it come from swept
nodes. -/
theorem Swept.depthAt_pos (h : Completed roots s) (hsplit : s.finished = done ++ node :: rest)
    (hswept : s.Swept roots done depths) : 1 ≤ depthAt depths node := by
  have hmem : node ∈ s.finished := by
    rw [hsplit]
    exact List.mem_append_right _ List.mem_cons_self
  rcases h.root_or_forward hmem with hroot | ⟨u, hu, hforward⟩
  · exact hswept.roots_le node hroot
  · have hnodup := h.nodup
    have hsub := h.sublist_of_forward hu hforward
    rw [hsplit] at hnodup hsub
    have hlt := hswept.grown u (mem_done_of_sublist hnodup hsub) node hforward
    exact Nat.lt_of_le_of_lt (Nat.zero_le _) hlt

/-- No forward edge leads from the next node of the order to itself or to a swept one. -/
theorem Completed.not_forward_of_mem_done (h : Completed roots s)
    (hsplit : s.finished = done ++ node :: rest) {u : String} (hu : u ∈ done ++ [node]) :
    ¬ s.Forward node u := by
  intro hforward
  have hmem : node ∈ s.finished := by
    rw [hsplit]
    exact List.mem_append_right _ List.mem_cons_self
  have hnodup := h.nodup
  have hlt := h.idxOf_lt hmem hforward
  rw [hsplit] at hnodup hlt
  rcases List.mem_append.mp hu with hu | hu
  · have hsub : [u, node].Sublist (done ++ node :: rest) :=
      (List.singleton_sublist.mpr hu).append (List.singleton_sublist.mpr List.mem_cons_self)
    exact Nat.lt_asymm hlt (Graph.idxOf_lt_of_sublist hnodup hsub)
  · rw [List.mem_singleton.mp hu] at hlt
    exact Nat.lt_irrefl _ hlt

/-- The sweep takes the next node of the order. -/
theorem Swept.relax (h : Completed roots s) (hsplit : s.finished = done ++ node :: rest)
    (hswept : s.Swept roots done depths) :
    s.Swept roots (done ++ [node]) (g.relax g.edgesAt s.backEdges depths node) := by
  have hnode : g.hasNode node = true := by
    apply h.present
    rw [hsplit]
    exact List.mem_append_right _ List.mem_cons_self
  have hhere := get?_of_depthAt_pos (hswept.depthAt_pos h hsplit)
  refine ⟨?_, ?_, ?_⟩
  · intro r hr
    exact (hswept.roots_le r hr).trans (depthAt_le_relax hnode depths r)
  · intro u hu v hforward
    -- the depth of a swept node stays, and that of the node in hand is what it hands on
    rw [depthAt_relax_of_not_forward hnode (h.not_forward_of_mem_done hsplit hu)]
    rcases List.mem_append.mp hu with hu | hu
    · exact (hswept.grown u hu v hforward).trans_le (depthAt_le_relax hnode depths v)
    · rw [List.mem_singleton.mp hu] at hforward ⊢
      rw [depthAt_relax_of_forward hnode hforward, hhere]
      exact Nat.lt_of_lt_of_le (Nat.lt_succ_self _) (le_max_right _ _)
  · intro v d hd
    by_cases hforward : s.Forward node v
    · rw [get?_relax_of_forward hnode hforward, hhere] at hd
      cases hd
      -- the greater of the two depths is attained by the old path or through the node in hand
      rcases le_total (depthAt depths v) (depthAt depths node + 1) with hle | hle
      · obtain ⟨path, hpath, hlength⟩ := hswept.attained node _ hhere
        refine ⟨path ++ [v], hpath.snoc hforward, ?_⟩
        rw [List.length_append, hlength]
        exact (max_eq_right hle).symm
      · have hpos : 1 ≤ depthAt depths v := by omega
        rw [Option.getD_some, max_eq_left hle]
        exact hswept.attained v _ (get?_of_depthAt_pos hpos)
    · rw [get?_relax_of_not_forward hnode hforward] at hd
      exact hswept.attained v d hd

end Split

/-- The sweep over the rest of the order. -/
theorem Swept.foldl_relax (h : Completed roots s) {done rest : List String}
    {depths : Mapping String Nat} (hsplit : s.finished = done ++ rest)
    (hswept : s.Swept roots done depths) :
    s.Swept roots s.finished (rest.foldl (g.relax g.edgesAt s.backEdges) depths) := by
  induction rest generalizing done depths with
  | nil =>
      rw [List.append_nil] at hsplit
      rw [hsplit]
      exact hswept
  | cons node rest ih =>
      refine ih ?_ (hswept.relax h hsplit)
      rw [hsplit, List.append_assoc]
      rfl

/-- After the sweep, the depth of a node is no less than the length of any forward path to
it. -/
theorem Swept.length_le (h : Completed roots s) {depths : Mapping String Nat}
    (hswept : s.Swept roots s.finished depths) {path : List String}
    (hpath : s.ForwardPath roots path v) : path.length ≤ depthAt depths v := by
  induction path using List.reverseRecOn generalizing v with
  | nil => exact Nat.zero_le _
  | append_singleton path w ih =>
      have hw : w = v := by
        have hends := hpath.ends
        rw [List.getLast?_concat] at hends
        exact Option.some.inj hends
      subst hw
      cases path using List.reverseRecOn with
      | nil =>
          obtain ⟨r, hr, hroot⟩ := hpath.starts
          cases hr
          exact hswept.roots_le w hroot
      | append_singleton before u =>
          have hmem : u ∈ s.finished := h.forall_mem_finished hpath u (by simp)
          obtain ⟨hlinked, -, hlast⟩ := List.isChain_append.mp hpath.linked
          have hforward : s.Forward u w := hlast u (by simp) w rfl
          obtain ⟨r, hr, hroot⟩ := hpath.starts
          have hstart : r ∈ (before ++ [u]).head? := by
            rw [List.head?_append_of_ne_nil _ (by simp)] at hr
            exact hr
          have hle := ih ⟨⟨r, hstart, hroot⟩, hlinked, List.getLast?_concat⟩
          rw [List.length_append]
          exact Nat.lt_of_le_of_lt hle (hswept.grown u hmem w hforward)

end Search
end PlotGraph
