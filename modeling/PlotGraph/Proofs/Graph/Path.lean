import PlotGraph.Graph.Walk
import Mathlib.Data.List.Chain

/-!
# Paths and closed walks

What the searches of a graph are about. A connection *joins* two nodes if both exist and it
is no self-loop; a path is a list of nodes, each joined to the next, and a closed walk is a
list of connections that leads back to where it began.

The index of outgoing connections is faithful (`outgoing_getD`), so the edges that a search
follows from an existing node are exactly the connections that join it to another one
(`joined_iff`).
-/

namespace PlotGraph

/-! ### The index of outgoing connections -/

theorem Mapping.get?_append {κ α : Type} [DecidableEq κ] (m : Mapping κ (List α))
    (key other : κ) (item : α) :
    (m.append key item).get? other =
      if key = other then some ((m.get? key).getD [] ++ [item]) else m.get? other :=
  m.get?_put key other _

namespace Graph

/-- Connections added to an index stand behind those that it holds for their source. -/
theorem foldl_append_getD (cs : List Connection) (index : Mapping String (List Connection))
    (key : String) :
    ((cs.foldl (fun m c => m.append c.source c) index).get? key).getD [] =
      (index.get? key).getD [] ++ cs.filter fun c => c.source = key := by
  induction cs generalizing index with
  | nil => simp
  | cons c rest ih =>
      rw [List.foldl_cons, ih, Mapping.get?_append]
      by_cases h : c.source = key
      · subst h
        simp
      · simp [h]

/-- The index lists the connections that leave a key, in their order. -/
theorem outgoing_getD (g : Graph) (key : String) :
    (g.outgoing.get? key).getD [] = g.wires.filter fun c => c.source = key := by
  have h := foldl_append_getD g.wires {} key
  simpa [outgoing, Mapping.get?, Pairs.lookup] using h

/-- The edges that leave a key. -/
def edgesAt (g : Graph) (key : String) : List g.Edge := g.edgesFrom g.outgoing key

/-- The edges of connections are those among them that can be walked. -/
theorem mem_edges {g : Graph} {cs : List Connection} {e : g.Edge} :
    e ∈ g.edges cs ↔ e.val ∈ cs := by
  constructor
  · intro h
    obtain ⟨c, hc, he⟩ := List.mem_filterMap.mp h
    split at he
    · cases he
      exact hc
    · cases he
  · intro h
    refine List.mem_filterMap.mpr ⟨e.val, h, ?_⟩
    rw [dif_pos e.property]

/-- The edges at a key are the wires with that source. -/
theorem mem_edgesAt {g : Graph} {key : String} {e : g.Edge} :
    e ∈ g.edgesAt key ↔ e.val ∈ g.wires ∧ e.val.source = key := by
  rw [edgesAt, edgesFrom, mem_edges, outgoing_getD, List.mem_filter, decide_eq_true_iff]

/-! ### Present keys -/

theorem mem_presentKeys {g : Graph} {keys : List String} {k : g.Key} :
    k ∈ g.presentKeys keys ↔ k.val ∈ keys := by
  constructor
  · intro h
    obtain ⟨key, hkey, he⟩ := List.mem_filterMap.mp h
    split at he
    · cases he
      exact hkey
    · cases he
  · intro h
    refine List.mem_filterMap.mpr ⟨k.val, h, ?_⟩
    rw [dif_pos k.property]

theorem mem_map_presentKeys {g : Graph} {keys : List String} {key : String} :
    key ∈ (g.presentKeys keys).map Subtype.val ↔ key ∈ keys ∧ g.hasNode key = true := by
  constructor
  · intro h
    obtain ⟨k, hk, rfl⟩ := List.mem_map.mp h
    exact ⟨mem_presentKeys.mp hk, k.property⟩
  · rintro ⟨hmem, hnode⟩
    exact List.mem_map.mpr ⟨⟨key, hnode⟩, mem_presentKeys.mpr hmem, rfl⟩

/-! ### Joined nodes -/

/-- A connection of the graph that joins two existing nodes and is no self-loop. -/
structure Joins (g : Graph) (c : Connection) : Prop where
  mem : c ∈ g.wires
  source : g.hasNode c.source = true
  target : g.hasNode c.target = true
  not_loop : c.isSelfLoop = false

/-- One node is joined to another by some connection. -/
def Joined (g : Graph) (u v : String) : Prop := ∃ c, g.Joins c ∧ c.source = u ∧ c.target = v

theorem Joins.joined {g : Graph} {c : Connection} (h : g.Joins c) :
    g.Joined c.source c.target :=
  ⟨c, h, rfl, rfl⟩

/-- Keys are only joined to nodes. -/
theorem Joined.hasNode {g : Graph} {u v : String} (h : g.Joined u v) : g.hasNode v = true := by
  obtain ⟨c, hc, -, rfl⟩ := h
  exact hc.target

/-- An edge at a node joins it to another. -/
theorem joins_of_mem_edgesAt {g : Graph} {u : String} {e : g.Edge} (hu : g.hasNode u = true)
    (he : e ∈ g.edgesAt u) : g.Joins e.val := by
  obtain ⟨hmem, hsource⟩ := mem_edgesAt.mp he
  exact ⟨hmem, hsource ▸ hu, e.property.1, e.property.2⟩

/-- The nodes that an existing node is joined to are those its edges lead to. -/
theorem joined_iff {g : Graph} {u v : String} (hu : g.hasNode u = true) :
    g.Joined u v ↔ ∃ e ∈ g.edgesAt u, e.target.val = v := by
  constructor
  · rintro ⟨c, hc, hsource, htarget⟩
    exact ⟨⟨c, hc.target, hc.not_loop⟩, mem_edgesAt.mpr ⟨hc.mem, hsource⟩, htarget⟩
  · rintro ⟨e, he, htarget⟩
    exact ⟨e.val, joins_of_mem_edgesAt hu he, (mem_edgesAt.mp he).2, htarget⟩

/-! ### Paths -/

/-- A path: a list of nodes that starts at a root which exists, each node joined to the
next one. -/
structure PathFrom (g : Graph) (roots path : List String) : Prop where
  starts : ∃ r ∈ path.head?, r ∈ roots ∧ g.hasNode r = true
  linked : path.IsChain g.Joined

theorem PathFrom.single {g : Graph} {roots : List String} {r : String} (hr : r ∈ roots)
    (hnode : g.hasNode r = true) : g.PathFrom roots [r] :=
  ⟨⟨r, rfl, hr, hnode⟩, List.isChain_singleton r⟩

/-- A path can go on to what its end is joined to. -/
theorem PathFrom.snoc {g : Graph} {roots path : List String} {u v : String}
    (h : g.PathFrom roots path) (hlast : path.getLast? = some u) (huv : g.Joined u v) :
    g.PathFrom roots (path ++ [v]) := by
  obtain ⟨r, hr, hroot⟩ := h.starts
  refine ⟨⟨r, ?_, hroot⟩, ?_⟩
  · rw [List.head?_append, Option.mem_def.mp hr]
    rfl
  · refine List.isChain_append.mpr ⟨h.linked, List.isChain_singleton v, ?_⟩
    intro x hx y hy
    rw [hlast] at hx
    cases hx
    cases hy
    exact huv

/-- A node can be reached if a path ends at it. -/
def Reachable (g : Graph) (roots : List String) (v : String) : Prop :=
  ∃ path, g.PathFrom roots path ∧ path.getLast? = some v

/-- What is joined to something reachable is reachable. -/
theorem Reachable.step {g : Graph} {roots : List String} {u v : String}
    (h : g.Reachable roots u) (huv : g.Joined u v) : g.Reachable roots v := by
  obtain ⟨path, hpath, hlast⟩ := h
  exact ⟨path ++ [v], hpath.snoc hlast huv, List.getLast?_concat⟩

/-- A set of nodes that holds the roots and is closed under joining holds every node of
every path. -/
theorem PathFrom.forall_mem {g : Graph} {roots path : List String} (h : g.PathFrom roots path)
    {p : String → Prop} (hroots : ∀ r ∈ roots, g.hasNode r = true → p r)
    (hclosed : ∀ u v, p u → g.Joined u v → p v) : ∀ v ∈ path, p v := by
  obtain ⟨r, hr, hmem, hnode⟩ := h.starts
  refine h.linked.induction p path (fun u v huv hu => hclosed u v hu huv) ?_
  intro hne
  rw [List.head?_eq_some_head hne] at hr
  cases hr
  exact hroots _ hmem hnode

/-- What holds of the roots and of all that is joined to it holds of all that is reachable. -/
theorem Reachable.of_closed {g : Graph} {roots : List String} {v : String}
    (h : g.Reachable roots v) {p : String → Prop}
    (hroots : ∀ r ∈ roots, g.hasNode r = true → p r)
    (hclosed : ∀ u v, p u → g.Joined u v → p v) : p v := by
  obtain ⟨path, hpath, hlast⟩ := h
  exact hpath.forall_mem hroots hclosed v (List.mem_of_getLast? hlast)

/-! ### Closed walks -/

/-- A closed walk: joining connections, each beginning where the one before ends, the last
of which ends where the first begins. -/
structure ClosedWalk (g : Graph) (walk : List Connection) : Prop where
  nonempty : walk ≠ []
  joins : ∀ c ∈ walk, g.Joins c
  linked : walk.IsChain fun c d => c.target = d.source
  closed : (walk.getLast nonempty).target = (walk.head nonempty).source

/-- A graph without closed walks. -/
def Acyclic (g : Graph) : Prop := ∀ walk, ¬ g.ClosedWalk walk

/-- Whether there are closed walks depends on nothing but which nodes are joined. -/
theorem Acyclic.of_joined {g g' : Graph} (hg : g.Acyclic)
    (hjoined : ∀ u v, g'.Joined u v → g.Joined u v) : g'.Acyclic := by
  intro walk hwalk
  have hex : ∀ c ∈ walk, ∃ d, g.Joins d ∧ d.source = c.source ∧ d.target = c.target :=
    fun c hc => hjoined _ _ (hwalk.joins c hc).joined
  choose! f hjoins hsource htarget using hex
  refine hg (walk.map f) ⟨by simpa using hwalk.nonempty, ?_, ?_, ?_⟩
  · intro d hd
    obtain ⟨c, hc, rfl⟩ := List.mem_map.mp hd
    exact hjoins c hc
  · rw [List.isChain_map]
    refine hwalk.linked.imp_of_mem_imp fun c d hc hd hcd => ?_
    rw [htarget c hc, hsource d hd]
    exact hcd
  · rw [List.getLast_map, List.head_map, htarget _ (List.getLast_mem _),
      hsource _ (List.head_mem _)]
    exact hwalk.closed

/-- Nodes each joined to the next one, with a connection that leaves the last of them, are
the sources of a walk that this connection ends. -/
theorem exists_walk {g : Graph} {closing : Connection} (hclosing : g.Joins closing)
    (v : String) (vs : List String) (hlinked : (v :: vs).IsChain g.Joined)
    (hlast : (v :: vs).getLast? = some closing.source) :
    ∃ walk, ∃ h : walk ≠ [], (∀ c ∈ walk, g.Joins c) ∧
      walk.IsChain (fun c d => c.target = d.source) ∧
      (walk.head h).source = v ∧ walk.getLast h = closing := by
  induction vs generalizing v with
  | nil =>
      refine ⟨[closing], by simp, ?_, List.isChain_singleton closing, ?_, rfl⟩
      · intro c hc
        rw [List.mem_singleton.mp hc]
        exact hclosing
      · simpa using hlast.symm
  | cons w ws ih =>
      -- the connection that joins the first two nodes goes before the walk from the second
      obtain ⟨⟨c, hc, hsource, htarget⟩, hrest⟩ := List.isChain_cons_cons.mp hlinked
      rw [List.getLast?_cons_cons] at hlast
      obtain ⟨walk, hne, hjoins, hchain, hhead, hend⟩ := ih w hrest hlast
      refine ⟨c :: walk, by simp, ?_, ?_, hsource, ?_⟩
      · intro d hd
        rcases List.mem_cons.mp hd with rfl | hd
        · exact hc
        · exact hjoins d hd
      · refine List.isChain_cons.mpr ⟨?_, hchain⟩
        intro d hd
        rw [List.head?_eq_some_head hne] at hd
        cases hd
        rw [htarget, hhead]
      · rw [List.getLast_cons hne, hend]

/-- Of two members of a list without repetitions, the one that stands first has the smaller
position. -/
theorem idxOf_lt_of_sublist {l : List String} {u v : String} (hnodup : l.Nodup)
    (h : [u, v].Sublist l) : l.idxOf u < l.idxOf v := by
  induction l with
  | nil => cases h
  | cons x xs ih =>
      obtain ⟨hx, hxs⟩ := List.nodup_cons.mp hnodup
      cases h with
      | cons _ h =>
          have hu : x ≠ u := fun e => hx (e ▸ h.subset (by simp))
          have hv : x ≠ v := fun e => hx (e ▸ h.subset (by simp))
          rw [List.idxOf_cons_ne _ hu, List.idxOf_cons_ne _ hv]
          exact Nat.succ_lt_succ (ih hxs h)
      | cons_cons _ h =>
          have hv : u ≠ v := fun e => hx (e ▸ List.singleton_sublist.mp h)
          rw [List.idxOf_cons_self, List.idxOf_cons_ne _ hv]
          exact Nat.succ_pos _

/-- A measure of nodes that grows along every connection of a walk is greater at its end
than at its beginning. -/
theorem rank_lt_of_linked {rank : String → Nat} (walk : List Connection) (hne : walk ≠ [])
    (hlinked : walk.IsChain fun c d => c.target = d.source)
    (hgrows : ∀ c ∈ walk, rank c.source < rank c.target) :
    rank (walk.head hne).source < rank (walk.getLast hne).target := by
  induction walk with
  | nil => exact absurd rfl hne
  | cons c rest ih =>
      have hc := hgrows c List.mem_cons_self
      cases rest with
      | nil => exact hc
      | cons d ds =>
          obtain ⟨hcd, hds⟩ := List.isChain_cons_cons.mp hlinked
          have hd := ih (by simp) hds fun x hx => hgrows x (List.mem_cons_of_mem c hx)
          rw [List.getLast_cons (by simp)]
          rw [List.head_cons, ← hcd] at hd
          exact hc.trans hd

/-- A measure of nodes does not grow along every connection of a closed walk. -/
theorem ClosedWalk.exists_not_grows {g : Graph} {walk : List Connection}
    (h : g.ClosedWalk walk) (rank : String → Nat) :
    ∃ c ∈ walk, ¬ rank c.source < rank c.target := by
  by_contra hnone
  have hgrows : ∀ c ∈ walk, rank c.source < rank c.target := by
    intro c hc
    by_contra hle
    exact hnone ⟨c, hc, hle⟩
  have hlt := rank_lt_of_linked walk h.nonempty h.linked hgrows
  rw [h.closed] at hlt
  exact Nat.lt_irrefl _ hlt

/-- A graph in which something grows along every wire has no cycles. -/
theorem acyclic_of_grows {g : Graph} (rank : String → Nat)
    (hgrows : ∀ c ∈ g.wires, rank c.source < rank c.target) : g.Acyclic := by
  intro walk hwalk
  obtain ⟨c, hc, hnot⟩ := hwalk.exists_not_grows rank
  exact hnot (hgrows c (hwalk.joins c hc).mem)

end Graph
end PlotGraph
