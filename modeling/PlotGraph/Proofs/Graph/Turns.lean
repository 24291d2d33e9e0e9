import PlotGraph.Proofs.Graph.Reach
import PlotGraph.Proofs.Graph.Tour
import Mathlib.Algebra.BigOperators.Group.List.Basic
import Mathlib.Algebra.GroupWithZero.Nat

/-!
# What the turns of a search do

The turns of a tour tell which nodes it entered and left, which edges it took, and which of
these led back to the path. A turn changes the search by just that (`Tour.Moves.visited_eq` and
the lemmas beside it), and so the turns taken so far account for what the search has come to
(`Tour.Accounts`).

When a tour is over, every node visited has been entered once and left once, and each of its
edges has been taken once, in order. The nodes that wait to be expanded are looked at in the same
way (`Expansion`), where a node may wait several times and is expanded once
(`Graph.loops_end`).
-/

namespace PlotGraph

/-! ### What a turn tells -/

namespace Turn

variable {g : Graph}

/-- The node that is entered in a turn. -/
def entered? : Turn g → Option String
  | .start root => some root
  | .go _ e => some e.target.val
  | _ => none

/-- The node that is left in a turn. -/
def left? : Turn g → Option String
  | .leave node => some node
  | _ => none

/-- The edge that is taken from a node in a turn. -/
def taken? (v : String) : Turn g → Option g.Edge
  | .back node e | .pass node e | .go node e => if node = v then some e else none
  | _ => none

/-- The pair of nodes that is noted in a turn: the last node of the path, and the one that an
edge leads back to. -/
def noted? : Turn g → Option (String × String)
  | .back node e => some (node, e.target.val)
  | _ => none

end Turn

/-! ### What a turn does -/

namespace Search

variable {g : Graph} {s : Search g} {v node : String} {path : List String}
  {frame : List g.Edge} {frames : List (List g.Edge)}

/-- The edges that are still to be taken from a node of the path, by its frame. -/
def frameAt (v : String) : List String → List (List g.Edge) → List g.Edge
  | node :: path, frame :: frames => if node = v then frame else frameAt v path frames
  | _, _ => []

/-- The edges that are still to be taken from a node. -/
def edgesLeft (s : Search g) (v : String) : List g.Edge :=
  if v ∈ s.visited then frameAt v s.path s.frames else g.edgesAt v

theorem frameAt_nil (v : String) (path : List String) :
    frameAt v path ([] : List (List g.Edge)) = [] := by
  cases path with
  | nil => rfl
  | cons node path => rfl

/-- What is not on the path has no frame. -/
theorem frameAt_of_not_mem (h : v ∉ path) (frames : List (List g.Edge)) :
    frameAt v path frames = [] := by
  induction path generalizing frames with
  | nil => rfl
  | cons node path ih =>
      obtain ⟨hnode, hpath⟩ := not_or.mp (mt List.mem_cons.mpr h)
      cases frames with
      | nil => rfl
      | cons frame frames => rw [frameAt, if_neg (Ne.symm hnode), ih hpath]

/-- To take an edge of a node uses it up there, and nothing elsewhere. -/
theorem edgesLeft_take {e : g.Edge} {es : List g.Edge} (hpath : s.path = node :: path)
    (hframes : s.frames = (e :: es) :: frames) (hnode : node ∈ s.visited) (v : String) :
    s.edgesLeft v = (if node = v then some e else none).toList ++
      edgesLeft { s with frames := es :: frames } v := by
  simp only [edgesLeft, hpath, hframes, frameAt]
  by_cases hv : node = v
  · subst hv
    simp [hnode]
  · simp [hv]

/-- To enter a node puts its edges, which were all left, on a frame. -/
theorem edgesLeft_enter {key : String} (hnew : key ∉ s.visited) (v : String) :
    (s.enter key (g.edgesAt key)).edgesLeft v = s.edgesLeft v := by
  simp only [edgesLeft, enter, frameAt, List.mem_cons]
  by_cases hv : key = v
  · subst hv
    simp [hnew]
  · simp [hv, Ne.symm hv]

/-- To leave a node takes away a frame with no edge. -/
theorem edgesLeft_leave (hpath : s.path = node :: path) (hframes : s.frames = [] :: frames)
    (hnode : node ∉ path) (v : String) : s.leave.edgesLeft v = s.edgesLeft v := by
  rw [leave_eq hpath]
  simp only [edgesLeft, hpath, hframes, frameAt, List.tail_cons]
  by_cases hv : node = v
  · subst hv
    simp [frameAt_of_not_mem hnode]
  · simp [hv]

theorem Inv.mem_visited_of_path {roots : List String} (h : Inv roots none s)
    (hpath : s.path = node :: path) : node ∈ s.visited := by
  apply (h.visited node).mpr
  apply mem_order_of_path
  rw [hpath]
  exact List.mem_cons_self

/-- An edge that leads back adds its pair to the back edges, whether or not its cycle is
recorded again. -/
theorem Inv.mem_backEdges_recordCycle_iff {roots : List String} {e : g.Edge} {es : List g.Edge}
    (h : Inv roots none s) (hpath : s.path = node :: path)
    (hframes : s.frames = (e :: es) :: frames) (hstack : e.target.val ∈ s.onStack)
    (p : String × String) :
    p ∈ (recordCycle { s with frames := es :: frames } e.val).backEdges ↔
      p ∈ s.backEdges ∨ p ∈ some (node, e.target.val) := by
  have htaken := h.take hframes
  have hedge : e ∈ g.edgesAt node := by
    obtain ⟨v, rest, hpath', hsuffix, -⟩ := h.exists_path hframes
    rw [hpath] at hpath'
    cases hpath'
    exact hsuffix.subset List.mem_cons_self
  have hsource : e.val.source = node := (Graph.mem_edgesAt.mp hedge).2
  have hnode : g.hasNode node = true :=
    h.present node ((h.visited node).mp (h.mem_visited_of_path hpath))
  have hjoins : g.Joins e.val := Graph.joins_of_mem_edgesAt hnode hedge
  rw [h.onStack] at hstack
  rcases cycles_recordCycle { s with frames := es :: frames } e.val with
    ⟨hsame, d, hd, hdpath⟩ | ⟨hadded, -⟩
  · rw [backEdges, hsame]
    have hpair : (node, e.target.val) ∈ s.backEdges :=
      htaken.pair_mem_backEdges hpath hjoins hsource hstack hd hdpath
    constructor
    · exact Or.inl
    · rintro (hp | hp)
      · exact hp
      · cases hp
        exact hpair
  · rw [backEdges, hadded, List.map_append, List.mem_append, List.map_singleton,
      List.mem_singleton, hsource]
    refine or_congr Iff.rfl ?_
    rw [Option.mem_some_iff, eq_comm]
    rfl

/-- The turns that a node calls for: one for each of its edges, and one to leave it. -/
def turnsAt (g : Graph) (v : String) : Nat := (g.edgesAt v).length + 1

end Search

namespace Tour

variable {g : Graph} {roots : List String} {t u : Tour g} {turn : Turn g}

/-- The nodes entered are the ones visited. -/
theorem Moves.visited_eq (h : t.Moves turn u) :
    u.search.visited = turn.entered?.toList ++ t.search.visited := by
  cases h with
  | skip | start | pass | go => rfl
  | back => exact Search.recordCycle_visited _ _
  | leave => exact Search.leave_visited _

/-- What is entered has not been visited before. -/
theorem Moves.not_mem_visited (h : t.Moves turn u) :
    ∀ v ∈ turn.entered?, v ∉ t.search.visited := by
  intro v hv
  cases h with
  | start _ hnew | go _ _ _ hnew =>
      cases hv
      exact hnew
  | skip | back | pass | leave => cases hv

/-- The nodes left are the ones finished. -/
theorem Moves.finished_eq (h : t.Moves turn u) :
    u.search.finished = turn.left?.toList ++ t.search.finished := by
  cases h with
  | skip | start | pass | go => rfl
  | back => rw [Search.recordCycle_eq]; rfl
  | leave hpath => rw [Search.leave_eq hpath]; rfl

/-- Of what is left to be taken from a node, the edge that is taken comes first. -/
theorem Moves.edgesLeft_eq (h : t.Moves turn u) (hinv : t.search.Inv roots none) (v : String) :
    t.search.edgesLeft v = (turn.taken? v).toList ++ u.search.edgesLeft v := by
  cases h with
  | skip => rfl
  | start hframes hnew =>
      rw [hinv.reset_eq hframes, Search.edgesLeft_enter hnew]
      rfl
  | back hpath hframes =>
      rw [Search.recordCycle_eq]
      exact Search.edgesLeft_take hpath hframes (hinv.mem_visited_of_path hpath) v
  | pass hpath hframes =>
      exact Search.edgesLeft_take hpath hframes (hinv.mem_visited_of_path hpath) v
  | @go s waiting node path e es frames hpath hframes _ hnew =>
      have htake := Search.edgesLeft_take hpath hframes (hinv.mem_visited_of_path hpath) v
      have hnew' : e.target.val ∉ ({ s with frames := es :: frames } : Search g).visited := hnew
      rw [← Search.edgesLeft_enter hnew'] at htake
      exact htake
  | @leave s waiting node path frames hpath hframes =>
      have hnode : node ∉ path := by
        have hnodup := (List.nodup_append.mp hinv.nodup).1
        rw [List.nodup_reverse, hpath] at hnodup
        exact (List.nodup_cons.mp hnodup).1
      rw [Search.edgesLeft_leave hpath hframes hnode]
      rfl

/-- The pairs noted are the back edges. -/
theorem Moves.mem_backEdges_iff (h : t.Moves turn u) (hinv : t.search.Inv roots none)
    (p : String × String) :
    p ∈ u.search.backEdges ↔ p ∈ t.search.backEdges ∨ p ∈ turn.noted? := by
  cases h with
  | skip | start | pass | go => simp [Search.backEdges, Search.enter, Turn.noted?]
  | leave hpath => simp [Search.leave_eq hpath, Search.backEdges, Turn.noted?]
  | @back s waiting node path e es frames hpath hframes hstack =>
      exact hinv.mem_backEdges_recordCycle_iff hpath hframes hstack p

/-- A turn is one of those that the nodes entered and the roots that wait call for. -/
theorem Moves.turns_eq (h : t.Moves turn u) :
    t.waiting.length + t.search.pending + (turn.entered?.toList.map (Search.turnsAt g)).sum =
      u.waiting.length + u.search.pending + 1 := by
  cases h with
  | skip => simp [Turn.entered?, Nat.add_right_comm]
  | start hframes =>
      simp [Turn.entered?, Search.pending, Search.enter, hframes, Search.turnsAt]
      omega
  | back hpath hframes =>
      simp [Turn.entered?, Search.pending, Search.recordCycle_frames, hframes]
      omega
  | pass hpath hframes =>
      simp [Turn.entered?, Search.pending, hframes]
      omega
  | go hpath hframes =>
      simp [Turn.entered?, Search.pending, Search.enter, hframes, Search.turnsAt]
      omega
  | leave hpath hframes =>
      simp [Turn.entered?, Search.pending, Search.leave_frames, hframes]
      omega

/-! ### What the turns so far account for -/

/-- What is known of a search by the turns that it has taken. -/
structure Accounts (keys : List g.Key) (log : List (Turn g)) (t : Tour g) : Prop where
  nodup : t.search.visited.Nodup
  entered : log.filterMap Turn.entered? = t.search.visited.reverse
  left : log.filterMap Turn.left? = t.search.finished.reverse
  taken : ∀ v, log.filterMap (Turn.taken? v) ++ t.search.edgesLeft v = g.edgesAt v
  noted : ∀ p, p ∈ t.search.backEdges ↔ p ∈ log.filterMap Turn.noted?
  turns : log.length + (t.waiting.length + t.search.pending) =
    keys.length + (t.search.visited.map (Search.turnsAt g)).sum

/-- The accounts are in order before the first turn. -/
theorem Accounts.start (keys : List g.Key) :
    Accounts keys [] ({ waiting := keys } : Tour g) where
  nodup := List.nodup_nil
  entered := rfl
  left := rfl
  taken := fun v => by simp [Search.edgesLeft]
  noted := fun p => by simp [Search.backEdges]
  turns := by simp [Search.pending]

/-- A turn keeps the accounts. -/
theorem Accounts.next {keys : List g.Key} {log : List (Turn g)} (h : Accounts keys log t)
    (hinv : t.search.Inv roots none) (hnext : t.next = some (turn, u)) :
    Accounts keys (log ++ [turn]) u := by
  have hmoves := moves_of_next hnext
  have hvisited := hmoves.visited_eq
  refine ⟨?nodup, ?entered, ?left, ?taken, ?noted, ?turns⟩
  case nodup =>
    rw [hvisited]
    refine List.nodup_append.mpr ⟨?_, h.nodup, ?_⟩
    · cases turn.entered? with
      | none => exact List.nodup_nil
      | some v => exact List.nodup_singleton v
    · rintro v hv w hw rfl
      exact hmoves.not_mem_visited v (Option.mem_toList.mp hv) hw
  case entered =>
    rw [hvisited]
    exact Loop.filterMap_concat_eq_reverse h.entered turn
  case left =>
    rw [hmoves.finished_eq]
    exact Loop.filterMap_concat_eq_reverse h.left turn
  case taken =>
    intro v
    rw [Loop.filterMap_concat, List.append_assoc, ← hmoves.edgesLeft_eq hinv, h.taken]
  case noted =>
    intro p
    rw [Loop.filterMap_concat, List.mem_append, ← h.noted, hmoves.mem_backEdges_iff hinv,
      Option.mem_toList, Option.mem_def]
  case turns =>
    have hturns := hmoves.turns_eq
    have hlog := h.turns
    rw [hvisited, List.map_append, List.sum_append, List.length_append, List.length_singleton]
    omega

/-- Where no frame is left, all edges of the nodes visited have been taken, and no others. -/
theorem Accounts.taken_of_frames {keys : List g.Key} {log : List (Turn g)}
    (h : Accounts keys log t) (hframes : t.search.frames = []) (v : String) :
    log.filterMap (Turn.taken? v) = if v ∈ t.search.visited then g.edgesAt v else [] := by
  have htaken := h.taken v
  rw [Search.edgesLeft, hframes, Search.frameAt_nil] at htaken
  split at htaken
  · next hv => rw [if_pos hv, ← htaken, List.append_nil]
  · next hv => rw [if_neg hv, ← List.append_left_eq_self, htaken]

/-- When the search is over, a node visited has been entered once and left once, and each of its
edges has been taken. -/
theorem Accounts.of_mem_visited {keys : List g.Key} {log : List (Turn g)}
    (h : Accounts keys log t) (hdone : t.search.Completed roots) (hframes : t.search.frames = [])
    {v : String} (hv : v ∈ t.search.visited) :
    (log.filterMap Turn.entered?).count v = 1 ∧ (log.filterMap Turn.left?).count v = 1 ∧
      log.filterMap (Turn.taken? v) = g.edgesAt v := by
  have hleft : v ∈ t.search.finished := (hdone.visited v).mp hv
  rw [h.entered, h.left, h.taken_of_frames hframes, if_pos hv, List.count_reverse,
    List.count_reverse]
  exact ⟨List.count_eq_one_of_mem h.nodup hv, List.count_eq_one_of_mem hdone.nodup hleft, rfl⟩

/-- When the search is over, nothing has been done at a node that is not visited. -/
theorem Accounts.of_not_mem_visited {keys : List g.Key} {log : List (Turn g)}
    (h : Accounts keys log t) (hdone : t.search.Completed roots) (hframes : t.search.frames = [])
    {v : String} (hv : v ∉ t.search.visited) :
    v ∉ log.filterMap Turn.entered? ∧ v ∉ log.filterMap Turn.left? ∧
      log.filterMap (Turn.taken? v) = [] := by
  rw [h.entered, h.left, h.taken_of_frames hframes, if_neg hv, List.mem_reverse, List.mem_reverse,
    ← hdone.visited]
  exact ⟨hv, hv, rfl⟩

end Tour

namespace Graph

/-- Whatever number of turns a tour takes, they account for what it has come to. -/
theorem accounts_after (g : Graph) (roots : List String) (n : Nat) :
    let r := Loop.after Tour.next (g.tour roots) n
    r.2.Accounts (g.presentKeys roots) r.1 :=
  (Loop.after_induction
    (p := fun log (t : Tour g) => t.Occurs ((g.presentKeys roots).map Subtype.val) ∧
      t.Accounts (g.presentKeys roots) log)
    ⟨g.tour_occurs roots, .start _⟩
    (fun _ _ _ _ h hnext => ⟨h.1.next hnext, h.2.next h.1.search.inv hnext⟩) n).2

end Graph

/-! ### Nodes that wait to be expanded -/

/-- The expansion of nodes on its way: those that wait, and those that have been reached. -/
structure Expansion (g : Graph) where
  waiting : List g.Key
  reached : List String := []

namespace Expansion

variable {g : Graph} {x y : Expansion g}

/-- What is done with a node that waits. -/
inductive Turn where
  /-- It has been reached already. -/
  | drop (key : String)
  /-- It is reached now, and what it leads to waits. -/
  | expand (key : String)

/-- The node that is expanded in a turn. -/
def Turn.expanded? : Turn → Option String
  | .drop _ => none
  | .expand key => some key

/-- The nodes that a node leads to and that have not been reached, the last one first. -/
def targets (g : Graph) (reached : List String) (key : String) : List g.Key :=
  (((g.edgesAt key).map Graph.Edge.target).filter fun t => !reached.contains t.val).reverse

/-- One turn of the loop; there is none where no node waits. -/
def next (x : Expansion g) : Option (Turn × Expansion g) :=
  match x.waiting with
  | [] => none
  | key :: waiting =>
    if key.val ∈ x.reached then some (.drop key.val, ⟨waiting, x.reached⟩)
    else some (.expand key.val,
      ⟨targets g (key.val :: x.reached) key.val ++ waiting, key.val :: x.reached⟩)

/-- The turns of the loop, each with what it needs and what it makes of the nodes. -/
inductive Moves : Expansion g → Turn → Expansion g → Prop
  | drop {key : g.Key} {waiting : List g.Key} {reached : List String}
      (hold : key.val ∈ reached) :
      Moves ⟨key :: waiting, reached⟩ (.drop key.val) ⟨waiting, reached⟩
  | expand {key : g.Key} {waiting : List g.Key} {reached : List String}
      (hnew : key.val ∉ reached) :
      Moves ⟨key :: waiting, reached⟩ (.expand key.val)
        ⟨targets g (key.val :: reached) key.val ++ waiting, key.val :: reached⟩

theorem moves_of_next {turn : Turn} (h : x.next = some (turn, y)) : x.Moves turn y := by
  obtain ⟨waiting, reached⟩ := x
  cases waiting with
  | nil => cases h
  | cons key waiting =>
      simp only [next] at h
      split at h
      · next hold =>
          cases h
          exact .drop hold
      · next hnew =>
          cases h
          exact .expand hnew

/-- Where there is no turn to take, nothing waits. -/
theorem waiting_of_next (h : x.next = none) : x.waiting = [] := by
  obtain ⟨waiting, reached⟩ := x
  cases waiting with
  | nil => rfl
  | cons key waiting =>
      simp only [next] at h
      split at h
      · cases h
      · cases h

/-- What the expansion comes to. -/
def rest (x : Expansion g) : List String := g.expand g.edgesAt x.reached x.waiting

/-- A turn leaves alone what is still to come. -/
theorem Moves.rest_eq {turn : Turn} (h : x.Moves turn y) : y.rest = x.rest := by
  cases h with
  | drop hold =>
      simp only [rest]
      conv_rhs => rw [Graph.expand, if_pos hold]
  | expand hnew =>
      simp only [rest]
      conv_rhs => rw [Graph.expand, if_neg hnew]
      rfl

/-- The order that turns go down in: the nodes that have not been reached, then those that
wait. -/
def Below : Expansion g → Expansion g → Prop :=
  InvImage (Prod.Lex (· < ·) (· < ·)) fun x => (g.unvisited x.reached, x.waiting.length)

/-- There is no end to going below. -/
theorem wellFounded_below : WellFounded (Below (g := g)) :=
  InvImage.wf _ (WellFounded.prod_lex Nat.lt_wfRel.wf Nat.lt_wfRel.wf)

/-- Every turn leads below. -/
theorem Moves.below {turn : Turn} (h : x.Moves turn y) : y.Below x := by
  cases h with
  | drop => exact Prod.Lex.right _ (Nat.lt_succ_self _)
  | @expand key _ _ hnew => exact Prod.Lex.left _ _ (Graph.unvisited_cons_lt key.property hnew)

/-- What is known of an expansion by the turns that it has taken. -/
structure Accounts (keys : List g.Key) (log : List Turn) (x : Expansion g) : Prop where
  nodup : x.reached.Nodup
  expanded : log.filterMap Turn.expanded? = x.reached.reverse
  turns : log.length + x.waiting.length ≤
    keys.length + (x.reached.map fun v => (g.edgesAt v).length).sum

/-- No key has more targets than connections. -/
theorem length_targets_le (g : Graph) (reached : List String) (key : String) :
    (targets g reached key).length ≤ (g.edgesAt key).length := by
  rw [targets, List.length_reverse]
  exact (List.length_filter_le _ _).trans (List.length_map ..).le

/-- The accounts are in order before the first turn. -/
theorem Accounts.start (keys : List g.Key) :
    Accounts keys [] ({ waiting := keys } : Expansion g) where
  nodup := List.nodup_nil
  expanded := rfl
  turns := by simp

/-- A turn keeps the accounts. -/
theorem Accounts.moves {keys : List g.Key} {log : List Turn} {turn : Turn}
    (h : Accounts keys log x) (hmoves : x.Moves turn y) : Accounts keys (log ++ [turn]) y := by
  have hturns := h.turns
  cases hmoves with
  | @drop key =>
      refine ⟨h.nodup, Loop.filterMap_concat_eq_reverse h.expanded (.drop key.val), ?_⟩
      simp only [List.length_append, List.length_cons, List.length_nil] at hturns ⊢
      omega
  | @expand key waiting reached hnew =>
      have htargets := length_targets_le g (key.val :: reached) key.val
      refine ⟨List.nodup_cons.mpr ⟨hnew, h.nodup⟩,
        Loop.filterMap_concat_eq_reverse h.expanded (.expand key.val), ?_⟩
      simp only [List.length_append, List.length_cons, List.length_nil, List.map_cons,
        List.sum_cons] at hturns ⊢
      omega

end Expansion

namespace Graph

/-- The expansion of those of the roots that exist, the last one first. -/
def expansion (g : Graph) (roots : List String) : Expansion g :=
  { waiting := (g.presentKeys roots).reverse }

theorem expansion_after (g : Graph) (roots : List String) (n : Nat) :
    let r := Loop.after Expansion.next (g.expansion roots) n
    r.2.rest = g.reachableFrom roots ∧ r.2.Accounts (g.presentKeys roots).reverse r.1 :=
  Loop.after_induction
    (p := fun log (x : Expansion g) => x.rest = g.reachableFrom roots ∧
      x.Accounts (g.presentKeys roots).reverse log)
    ⟨rfl, .start _⟩
    (fun _ _ _ _ h hnext => ⟨(Expansion.moves_of_next hnext).rest_eq.trans h.1,
      h.2.moves (Expansion.moves_of_next hnext)⟩) n

/-- The expansion of nodes ends where no node waits. -/
theorem exists_ends_expansion (g : Graph) (roots : List String) :
    ∃ log, Loop.Ends Expansion.next (g.expansion roots) log ⟨[], g.reachableFrom roots⟩ := by
  obtain ⟨log, x, hends⟩ := Loop.exists_ends Expansion.wellFounded_below
    (fun _ _ _ hnext => (Expansion.moves_of_next hnext).below) (g.expansion roots)
  have hrest := (g.expansion_after roots log.length).1
  rw [hends.after_length] at hrest
  have hwaiting := Expansion.waiting_of_next hends.next_eq_none
  rw [Expansion.rest, hwaiting, expand] at hrest
  rw [← hrest, ← hwaiting]
  exact ⟨log, hends⟩

/-! ### All loops end -/

/-- **The loops of the searches end**, on every graph and from all roots, with no bound set to
their turns. A search from some roots takes one turn for each of these that exists, and one for
each edge and one more for each node visited. Every node visited is entered once and left once, and
its edges are taken once each, in their order; no other node is entered or left, and no edge of it
is taken. The expansion that finds the nodes reached takes at most one turn for each root that
exists and one for each edge of a node reached; it expands each of these nodes once, and no
others. -/
theorem loops_end (g : Graph) (roots : List String) :
    let s := g.search (g.presentKeys roots)
    let count := (g.presentKeys roots).length
    (∃ log, Loop.Ends Tour.next (g.tour roots) log ⟨[], s⟩ ∧
      log.length = count + (s.visited.map fun v => (g.edgesAt v).length + 1).sum ∧
      (∀ v ∈ s.visited, (log.filterMap Turn.entered?).count v = 1 ∧
        (log.filterMap Turn.left?).count v = 1 ∧
        log.filterMap (Turn.taken? v) = g.edgesAt v) ∧
      ∀ v ∉ s.visited, v ∉ log.filterMap Turn.entered? ∧ v ∉ log.filterMap Turn.left? ∧
        log.filterMap (Turn.taken? v) = []) ∧
    ∃ log, Loop.Ends Expansion.next (g.expansion roots) log ⟨[], g.reachableFrom roots⟩ ∧
      log.length ≤ count + ((g.reachableFrom roots).map fun v => (g.edgesAt v).length).sum ∧
      (∀ v ∈ g.reachableFrom roots, (log.filterMap Expansion.Turn.expanded?).count v = 1) ∧
      ∀ v ∉ g.reachableFrom roots, v ∉ log.filterMap Expansion.Turn.expanded? := by
  intro s count
  constructor
  · obtain ⟨log, hends⟩ := g.exists_ends_tour roots
    have h := g.accounts_after roots log.length
    rw [hends.after_length] at h
    have hframes : s.frames = [] := (g.search_occurs (g.presentKeys roots)).2.1
    have hdone := g.search_completed (g.presentKeys roots)
    have hturns := h.turns
    rw [Search.pending, hframes] at hturns
    exact ⟨log, hends, hturns, fun v hv => h.of_mem_visited hdone hframes hv,
      fun v hv => h.of_not_mem_visited hdone hframes hv⟩
  · obtain ⟨log, hends⟩ := g.exists_ends_expansion roots
    have h := (g.expansion_after roots log.length).2
    rw [hends.after_length] at h
    refine ⟨log, hends, ?_, ?_, ?_⟩
    · have hturns := h.turns
      rw [List.length_reverse] at hturns
      exact hturns
    · intro v hv
      rw [h.expanded, List.count_reverse]
      exact List.count_eq_one_of_mem h.nodup hv
    · intro v hv
      rw [h.expanded, List.mem_reverse]
      exact hv

end Graph
end PlotGraph
