import PlotGraph.Proofs.Graph.Rereading
import PlotGraph.Proofs.Mapping
import PlotGraph.Proofs.Number.Decimal
import Mathlib.Data.List.Nodup

/-!
# Collections that are lists

The entries of a list are keyed by their ids, and those without an id by their places. The two
kinds of keys live in one mapping, so that an entry is lost exactly if the id of another one is
the text of its place (`Reading.Clashes`, `Graph.ofValue_lists`). And since zero and false do not
count as ids, a list is read like the object with the texts of its ids as keys exactly if it has
no such id, a zero in the first place apart (`Graph.ofValue_list_eq_object`).
-/

namespace PlotGraph

/-- Only an object has fields. -/
theorem Value.isObject_of_field? {v w : Value} {name : String} (h : v.field? name = some w) :
    v.isObject = true := by
  cases v with
  | obj fields => rfl
  | _ => cases h

namespace Reading

/-! ### Ids and keys -/

/-- The text of the id of an entry; a null or an empty text is no id. -/
def idText? (entry : Value) : Option String :=
  match entry.field? "id" with
  | none | some .null | some (.str "") => none
  | some id => some id.text

/-- The text of the id of an entry, if it counts as given. -/
def givenId? (entry : Value) : Option String :=
  ((entry.field? "id").filter (·.isGiven)).map (·.text)

/-- The key of an entry in a list is the id that is given, or else its place. -/
theorem listKey_eq (place : Nat) (entry : Value) :
    listKey place entry = (givenId? entry).getD (Decimal.ofNat place) := by
  rw [listKey, givenId?]
  cases entry.field? "id" with
  | none => rfl
  | some id => cases h : id.isGiven <;> simp [Option.filter, h]

/-- An id that is given is the text of an id. -/
theorem idText?_of_givenId? {entry : Value} {id : String} (h : givenId? entry = some id) :
    idText? entry = some id := by
  obtain ⟨v, hv, rfl⟩ := Option.map_eq_some_iff.mp h
  obtain ⟨hfield, hgiven⟩ := Option.filter_eq_some_iff.mp hv
  rw [idText?, hfield]
  split
  · next h => cases h
  · next h =>
      cases h
      cases hgiven
  · next h =>
      cases h
      cases hgiven
  · next h =>
      cases h
      rfl

/-- Each entry is keyed by itself and its place. -/
theorem keyed_eq_mapIdx (place : Nat) (items : List Value) :
    keyed place items = items.mapIdx fun i entry => (listKey (place + i) entry, entry) := by
  induction items generalizing place with
  | nil => rfl
  | cons entry rest ih =>
      rw [keyed, ih, List.mapIdx_cons]
      simp only [Nat.add_zero, Nat.add_assoc, Nat.add_comm 1]

theorem map_fst_keyed (items : List Value) :
    (keyed 0 items).map Prod.fst = items.mapIdx listKey := by
  simp [keyed_eq_mapIdx, List.mapIdx_eq_zipIdx_map]

/-- To key entries neither drops nor changes any. -/
theorem map_snd_keyed (place : Nat) (items : List Value) :
    (keyed place items).map Prod.snd = items := by
  induction items generalizing place with
  | nil => rfl
  | cons entry rest ih => rw [keyed, List.map_cons, ih]

/-- Entries are keyed by their places in the whole list. -/
theorem keyed_append (place : Nat) (before after : List Value) :
    keyed place (before ++ after) = keyed place before ++ keyed (place + before.length) after := by
  induction before generalizing place with
  | nil => rfl
  | cons entry rest ih =>
      rw [List.cons_append, keyed, keyed, ih, List.cons_append, List.length_cons]
      simp only [Nat.add_assoc, Nat.add_comm 1]

theorem length_keyed (items : List Value) : (keyed 0 items).length = items.length := by
  rw [keyed_eq_mapIdx, List.length_mapIdx]

/-- The keys before an entry, its own, and those behind it. -/
theorem keyed_eq_append {items : List Value} {place : Nat} {entry : Value}
    (h : items[place]? = some entry) :
    keyed 0 items = keyed 0 (items.take place) ++
      (listKey place entry, entry) :: keyed (place + 1) (items.drop (place + 1)) := by
  obtain ⟨hplace, hitem⟩ := List.getElem?_eq_some_iff.mp h
  have hsplit : items.take place ++ entry :: items.drop (place + 1) = items := by
    rw [← hitem, ← List.drop_eq_getElem_cons hplace, List.take_append_drop]
  conv_lhs => rw [← hsplit]
  rw [keyed_append, List.length_take_of_le (Nat.le_of_lt hplace), Nat.zero_add, keyed]

/-- A key among the later entries is that of an entry at a later place. -/
theorem exists_of_mem_keyed_drop {items : List Value} {place : Nat} {key : String}
    (h : key ∈ (keyed place (items.drop place)).map Prod.fst) :
    ∃ later other, place ≤ later ∧ items[later]? = some other ∧ listKey later other = key := by
  rw [keyed_eq_mapIdx] at h
  obtain ⟨e, he, rfl⟩ := List.mem_map.mp h
  obtain ⟨i, hi, rfl⟩ := List.mem_mapIdx.mp he
  refine ⟨place + i, _, Nat.le_add_right place i, ?_, rfl⟩
  rw [← List.getElem?_drop, List.getElem?_eq_getElem]

/-! ### Clashes -/

/-- The id of some entry is the text of the place of an entry that has none. -/
def Clashes (items : List Value) : Prop :=
  ∃ place entry, items[place]? = some entry ∧ givenId? entry = none ∧
    ∃ other ∈ items, givenId? other = some (Decimal.ofNat place)

variable {items : List Value} {i j : Nat} {a b : Value}

/-- Entries at different places have different ids. -/
theorem idText?_ne (hids : (items.filterMap idText?).Nodup) (ha : items[i]? = some a)
    (hb : items[j]? = some b) (hij : i < j) {x y : String} (hx : idText? a = some x)
    (hy : idText? b = some y) : x ≠ y := by
  rw [List.Nodup, List.pairwise_filterMap] at hids
  obtain ⟨hi, rfl⟩ := List.getElem?_eq_some_iff.mp ha
  obtain ⟨hj, rfl⟩ := List.getElem?_eq_some_iff.mp hb
  exact List.pairwise_iff_getElem.mp hids i j hi hj hij x hx y hy

/-- Entries with different ids have different keys unless they clash. -/
theorem listKey_ne (hids : (items.filterMap idText?).Nodup) (hclash : ¬ Clashes items)
    (ha : items[i]? = some a) (hb : items[j]? = some b) (hij : i < j) :
    listKey i a ≠ listKey j b := by
  rw [listKey_eq, listKey_eq]
  intro heq
  cases hga : givenId? a with
  | none =>
      cases hgb : givenId? b with
      | none =>
          rw [hga, hgb] at heq
          exact absurd (Decimal.ofNat_injective heq) (Nat.ne_of_lt hij)
      | some y =>
          rw [hga, hgb] at heq
          have hplace : givenId? b = some (Decimal.ofNat i) := hgb.trans (congrArg some heq.symm)
          exact hclash ⟨i, a, ha, hga, b, List.mem_of_getElem? hb, hplace⟩
  | some x =>
      cases hgb : givenId? b with
      | none =>
          rw [hga, hgb] at heq
          have hplace : givenId? a = some (Decimal.ofNat j) := hga.trans (congrArg some heq)
          exact hclash ⟨j, b, hb, hgb, a, List.mem_of_getElem? ha, hplace⟩
      | some y =>
          rw [hga, hgb] at heq
          exact idText?_ne hids ha hb hij (idText?_of_givenId? hga) (idText?_of_givenId? hgb) heq

/-- The keys are distinct exactly if no entries clash. -/
theorem nodup_keys_iff (hids : (items.filterMap idText?).Nodup) :
    (items.mapIdx listKey).Nodup ↔ ¬ Clashes items := by
  constructor
  · rintro hnodup ⟨i, a, ha, hga, b, hb, hgb⟩
    obtain ⟨j, hj, rfl⟩ := List.mem_iff_getElem.mp hb
    obtain ⟨hi, rfl⟩ := List.getElem?_eq_some_iff.mp ha
    have hi' : i < (items.mapIdx listKey).length := by simpa using hi
    have hj' : j < (items.mapIdx listKey).length := by simpa using hj
    have hkeys : (items.mapIdx listKey)[i] = (items.mapIdx listKey)[j] := by
      rw [List.getElem_mapIdx, List.getElem_mapIdx, listKey_eq, listKey_eq, hga, hgb]
      rfl
    obtain rfl := (hnodup.getElem_inj_iff).mp hkeys
    rw [hga] at hgb
    cases hgb
  · intro hclash
    refine List.pairwise_iff_getElem.mpr fun i j hi hj hij => ?_
    rw [List.length_mapIdx] at hi hj
    rw [List.getElem_mapIdx, List.getElem_mapIdx]
    exact listKey_ne hids hclash (List.getElem?_eq_getElem hi) (List.getElem?_eq_getElem hj) hij

/-! ### What a list becomes -/

/-- What a mapping has of a list of entries that are read into it. Without a clash it has them
all, in their order; a clash costs it entries, of which each key keeps the last. -/
structure Listed {α : Type} (read : Value → α) (items : List Value) (m : Mapping String α) :
    Prop where
  complete : ¬ Clashes items →
    m.entries = items.mapIdx fun place entry => (listKey place entry, read (objectOrEmpty entry))
  fewer : Clashes items → m.size < items.length
  last : ∀ place entry, items[place]? = some entry →
    (∀ later other, place < later → items[later]? = some other →
      listKey later other ≠ listKey place entry) →
    m.get? (listKey place entry) = some (read (objectOrEmpty entry))

theorem entriesOf_arr (items : List Value) : entriesOf (some (.arr items)) =
    (Mapping.ofList (keyed 0 items)).mapValues fun _ entry => objectOrEmpty entry := rfl

/-- What is read from the entries of a list is listed, if their ids are distinct. -/
theorem listed_mapValues {α : Type} (read : Value → α)
    (hids : (items.filterMap idText?).Nodup) :
    Listed read items ((entriesOf (some (.arr items))).mapValues fun _ => read) where
  complete := by
    intro hclash
    have hnodup : ((keyed 0 items).map Prod.fst).Nodup := by
      rw [map_fst_keyed]
      exact (nodup_keys_iff hids).mpr hclash
    calc ((entriesOf (some (.arr items))).mapValues fun _ => read).entries
        = (Mapping.ofList (keyed 0 items)).entries.map
            fun e => (e.1, read (objectOrEmpty e.2)) := by
          rw [entriesOf_arr, Mapping.mapValues_mapValues]
          rfl
      _ = (keyed 0 items).map fun e => (e.1, read (objectOrEmpty e.2)) := by
          rw [Mapping.ofList_entries hnodup]
      _ = items.mapIdx fun place entry => (listKey place entry, read (objectOrEmpty entry)) := by
          simp [keyed_eq_mapIdx, List.mapIdx_eq_zipIdx_map]
  fewer := by
    intro hclash
    have hnodup : ¬ ((keyed 0 items).map Prod.fst).Nodup := by
      rw [map_fst_keyed, nodup_keys_iff hids, not_not]
      exact hclash
    have hlt := Mapping.size_ofList_lt hnodup
    rw [length_keyed] at hlt
    simpa [entriesOf_arr, Mapping.size, Mapping.mapValues] using hlt
  last := by
    intro place entry hentry hlast
    have hafter : listKey place entry ∉
        (keyed (place + 1) (items.drop (place + 1))).map Prod.fst := by
      intro hmem
      obtain ⟨later, other, hlater, hother, hkey⟩ := exists_of_mem_keyed_drop hmem
      exact hlast later other hlater hother hkey
    rw [entriesOf_arr, Mapping.mapValues_mapValues, Mapping.get?_mapValues,
      keyed_eq_append hentry, Mapping.get?_ofList hafter]
    rfl

/-- The entries themselves are listed then. -/
theorem listed_entriesOf (hids : (items.filterMap idText?).Nodup) :
    Listed (fun entry => entry) items (entriesOf (some (.arr items))) := by
  have h := listed_mapValues (fun entry => entry) hids
  rwa [Mapping.mapValues_self] at h

end Reading

namespace Graph

open Reading

/-- An object without oversized coordinates is read. -/
theorem ofValue_of_oversized_eq_nil {v : Value} (hobject : v.isObject = true)
    (h : oversized v = []) : ofValue v = .ok (ofFields v) := by
  rw [ofValue_eq hobject, h]
  rfl

/-- **What becomes of a list of entries.** Where no two entries of a list have the same id, each
of them becomes an entry of the graph, in order and with its own data, unless two of them clash:
then some are lost, namely those behind which another one has the same key. An entry that is no
object counts as an empty one. So it is for nodes and for connections alike, and a graph is read
from them unless a coordinate is past the range. -/
theorem ofValue_lists (v : Value) (items : List Value)
    (hids : (items.filterMap idText?).Nodup) :
    (v.field? "nodes" = some (.arr items) →
      Listed (fun entry => entry) items (nodeEntries v) ∧
        (oversized v = [] → ∃ g, ofValue v = .ok g ∧ Listed Node.ofFields items g.nodes)) ∧
    (v.field? "connections" = some (.arr items) →
      Listed (fun entry => entry) items (connectionEntries v) ∧
        (oversized v = [] →
          ∃ g, ofValue v = .ok g ∧ Listed Connection.ofFields items g.connections)) := by
  constructor
  · intro hnodes
    have hentries : nodeEntries v = entriesOf (some (.arr items)) := by rw [nodeEntries, hnodes]
    rw [hentries]
    refine ⟨listed_entriesOf hids, fun hread => ?_⟩
    refine ⟨_, ofValue_of_oversized_eq_nil (Value.isObject_of_field? hnodes) hread, ?_⟩
    rw [ofFields, hentries]
    exact listed_mapValues Node.ofFields hids
  · intro hconnections
    have hentries : connectionEntries v = entriesOf (some (.arr items)) := by
      rw [connectionEntries, hconnections]
    rw [hentries]
    refine ⟨listed_entriesOf hids, fun hread => ?_⟩
    refine ⟨_, ofValue_of_oversized_eq_nil (Value.isObject_of_field? hconnections) hread, ?_⟩
    rw [ofFields, hentries]
    exact listed_mapValues Connection.ofFields hids

/-- A value with a list of nodes. -/
def listing (items : List Value) : Value := .obj [("id", .str "g"), ("nodes", .arr items)]

/-- An entry with an id, one without, and one that is no object. -/
def mixedItems : List Value :=
  [.obj [("id", .str "s"), ("type", .str "start")], .obj [("type", .str "end")], .null]

/-- All three of them are kept. -/
theorem mixedItems_listed :
    (mixedItems.filterMap idText?).Nodup ∧ oversized (listing mixedItems) = [] ∧
      ∃ g, ofValue (listing mixedItems) = .ok g ∧ g.nodes.keys = ["s", "1", "2"] ∧
        g.nodes.values.map (·.tag) = ["start", "end", ""] := by
  have hids : (mixedItems.filterMap idText?).Nodup := by decide
  have hread : oversized (listing mixedItems) = [] := by decide +kernel
  have hclash : ¬ Clashes mixedItems := by
    have hkeys : mixedItems.mapIdx listKey = ["s", "1", "2"] := by decide +kernel
    rw [← nodup_keys_iff hids, hkeys]
    decide
  obtain ⟨g, hg, hlisted⟩ := ((ofValue_lists (listing mixedItems) mixedItems hids).1 rfl).2 hread
  have hentries := hlisted.complete hclash
  refine ⟨hids, hread, g, hg, ?_, ?_⟩
  · rw [Mapping.keys, hentries]
    decide +kernel
  · rw [Mapping.values, hentries]
    rfl

/-- An entry whose id is the place of the other one, which has none. -/
def clashingItems : List Value :=
  [.obj [("id", .str "1"), ("type", .str "start")], .obj [("type", .str "end")]]

theorem clashes_clashingItems : Clashes clashingItems :=
  ⟨1, .obj [("type", .str "end")], rfl, rfl,
    .obj [("id", .str "1"), ("type", .str "start")], List.mem_cons_self, by decide +kernel⟩

/-- One of the two is lost. -/
theorem not_forall_values_eq :
    ¬ ∀ (v : Value) (items : List Value), v.field? "nodes" = some (.arr items) →
      (items.filterMap idText?).Nodup → ∀ g, ofValue v = .ok g →
        g.nodes.values = items.map fun entry => Node.ofFields (objectOrEmpty entry) := by
  intro h
  have hids : (clashingItems.filterMap idText?).Nodup := by decide
  have hread : oversized (listing clashingItems) = [] := by decide +kernel
  have hvalues := h (listing clashingItems) clashingItems rfl hids _
    (ofValue_of_oversized_eq_nil rfl hread)
  have hfewer : (ofFields (listing clashingItems)).nodes.size < clashingItems.length :=
    (listed_mapValues Node.ofFields hids).fewer clashes_clashingItems
  have hlength := congrArg List.length hvalues
  rw [Mapping.values, List.length_map, List.length_map] at hlength
  exact absurd hlength (Nat.ne_of_lt hfewer)

end Graph

namespace Reading

/-! ### Ids that a list passes over -/

/-- An entry of a list has its id as its key: the id counts as given, or it is a zero in the first
place, whose text is that of the place. -/
def AtOwnId (place : Nat) (entry : Value) : Prop :=
  (givenId? entry).isSome = true ∨ place = 0 ∧ entry.field? "id" = some (.int 0)

/-- The text of an id is that of the value. -/
theorem text_of_scalarText? {v : Value} {id : String} (h : scalarText? (some v) = some id) :
    v.text = id := by
  cases v with
  | null => cases h
  | arr items => cases h
  | obj fields => cases h
  | _ => exact Option.some.inj h

/-- The text of a zero with a fraction has a point. -/
theorem exists_text_of_isZero {x : Binary64} (h : x.isZero = true) :
    ∃ cs, x.text = String.ofList cs ∧ '.' ∈ cs := by
  cases x with
  | finite negative significand shift =>
      rw [Binary64.isZero, beq_iff_eq] at h
      subst h
      cases negative with
      | false => exact ⟨['0', '.', '0'], rfl, by simp⟩
      | true => exact ⟨['-', '0', '.', '0'], rfl, by simp⟩
  | infinite negative => cases h
  | nan => cases h

/-- Of all scalars that do not count as given only the whole number zero is written like a
place, the first one. -/
theorem ofNat_eq_text_iff {place : Nat} {v : Value} {id : String}
    (hid : scalarText? (some v) = some id) (hne : id ≠ "") (hgiven : v.isGiven = false) :
    Decimal.ofNat place = v.text ↔ place = 0 ∧ v = .int 0 := by
  cases v with
  | null => cases hid
  | bool b =>
      obtain rfl : b = false := hgiven
      refine iff_of_false ?_ (by simp)
      exact Decimal.ofNat_ne ['F', 'a', 'l', 's', 'e'] ⟨'F', by simp, rfl⟩
  | int i =>
      obtain rfl : i = 0 := by simpa [Value.isGiven] using hgiven
      rw [and_iff_left rfl]
      show Decimal.ofNat place = Decimal.ofNat 0 ↔ place = 0
      exact Decimal.ofNat_injective.eq_iff
  | float x =>
      refine iff_of_false ?_ (by simp)
      have hzero : x.isZero = true := by simpa [Value.isGiven] using hgiven
      obtain ⟨cs, htext, hpoint⟩ := exists_text_of_isZero hzero
      show Decimal.ofNat place ≠ x.text
      rw [htext]
      exact Decimal.ofNat_ne cs ⟨'.', hpoint, rfl⟩
  | str s =>
      obtain rfl : s = id := Option.some.inj hid
      exact absurd (by simpa [Value.isGiven] using hgiven) hne
  | arr items => cases hid
  | obj fields => cases hid

/-- An entry is keyed by its id exactly if it is at its own id. -/
theorem listKey_eq_iff {place : Nat} {entry : Value} {id : String}
    (hid : scalarText? (entry.field? "id") = some id) (hne : id ≠ "") :
    listKey place entry = id ↔ AtOwnId place entry := by
  cases hfield : entry.field? "id" with
  | none =>
      rw [hfield] at hid
      cases hid
  | some v =>
      rw [hfield] at hid
      have htext := text_of_scalarText? hid
      cases hgiven : v.isGiven with
      | true => simp [AtOwnId, listKey_eq, givenId?, hfield, Option.filter, hgiven, htext]
      | false =>
          have hiff : Decimal.ofNat place = v.text ↔ place = 0 ∧ v = .int 0 :=
            ofNat_eq_text_iff hid hne hgiven
          simp [AtOwnId, listKey_eq, givenId?, hfield, Option.filter, hgiven, ← htext, hiff]

/-! ### Lists and objects -/

/-- Entries with the texts of their ids. -/
structure Identified (named : List (String × Value)) : Prop where
  id : ∀ e ∈ named, scalarText? (e.2.field? "id") = some e.1
  nonempty : ∀ e ∈ named, e.1 ≠ ""
  distinct : (named.map Prod.fst).Nodup

variable {named : List (String × Value)}

/-- A list gets back the keys of an object exactly if each entry is at its own id. -/
theorem Identified.keyed_eq_iff (h : Identified named) :
    keyed 0 (named.map Prod.snd) = named ↔
      ∀ place e, named[place]? = some e → AtOwnId place e.2 := by
  have hkey : ∀ place e, named[place]? = some e → (listKey place e.2 = e.1 ↔ AtOwnId place e.2) :=
    fun place e he => listKey_eq_iff (h.id e (List.mem_of_getElem? he))
      (h.nonempty e (List.mem_of_getElem? he))
  rw [keyed_eq_mapIdx, List.ext_getElem?_iff]
  simp only [List.getElem?_mapIdx, List.getElem?_map, Nat.zero_add]
  refine forall_congr' fun place => ?_
  cases he : named[place]? with
  | none => simp
  | some e => simp [Prod.ext_iff, hkey place e he]

/-- The entries of an object are its fields. -/
theorem entriesOf_obj (h : (named.map Prod.fst).Nodup) :
    (entriesOf (some (.obj named))).entries = named.map fun e => (e.1, objectOrEmpty e.2) := by
  show (Mapping.ofList named).entries.map (fun e => (e.1, objectOrEmpty e.2)) = _
  rw [Mapping.ofList_entries h]

/-- Entries with ids are objects. -/
theorem Identified.objectOrEmpty_eq (h : Identified named) {e : String × Value} (he : e ∈ named) :
    objectOrEmpty e.2 = e.2 := by
  have hid := h.id e he
  cases hfield : e.2.field? "id" with
  | none =>
      rw [hfield] at hid
      cases hid
  | some v => exact if_pos (Value.isObject_of_field? hfield)

/-- Each of them is found under its key. -/
theorem Identified.get?_entriesOf (h : Identified named) {e : String × Value} (he : e ∈ named) :
    (entriesOf (some (.obj named))).get? e.1 = some e.2 := by
  rw [Mapping.get?_eq_some_iff, entriesOf_obj h.distinct]
  refine List.mem_map.mpr ⟨e, he, ?_⟩
  rw [h.objectOrEmpty_eq he]

/-- A list and an object hold the same entries exactly if each is at its own id. -/
theorem Identified.entriesOf_eq_iff (h : Identified named) :
    entriesOf (some (.arr (named.map Prod.snd))) = entriesOf (some (.obj named)) ↔
      ∀ place e, named[place]? = some e → AtOwnId place e.2 := by
  rw [← h.keyed_eq_iff]
  constructor
  · intro heq
    have hkeys : (Mapping.ofList (keyed 0 (named.map Prod.snd))).keys = named.map Prod.fst := by
      have := congrArg Mapping.keys heq
      rw [entriesOf_arr, Mapping.keys_mapValues] at this
      rw [this, Mapping.keys, entriesOf_obj h.distinct, List.map_map]
      rfl
    have hnodup : ((keyed 0 (named.map Prod.snd)).map Prod.fst).Nodup := by
      by_contra hdup
      have hlt := Mapping.size_ofList_lt hdup
      have hlength := congrArg List.length hkeys
      simp [Mapping.keys, Mapping.size, length_keyed] at hlt hlength
      omega
    rw [Mapping.keys, Mapping.ofList_entries hnodup] at hkeys
    exact (List.zip_of_prod hkeys (map_snd_keyed 0 _)).trans (List.zip_of_prod rfl rfl).symm
  · intro heq
    rw [entriesOf_arr, heq]
    rfl

end Reading

namespace Graph

open Reading

/-- Of the collections of a value only their entries are read. -/
theorem ofValue_congr {v w : Value} (hobject : v.isObject = w.isObject)
    (hid : v.field? "id" = w.field? "id") (hname : v.field? "name" = w.field? "name")
    (hnodes : nodeEntries v = nodeEntries w)
    (hconnections : connectionEntries v = connectionEntries w) : ofValue v = ofValue w := by
  simp only [ofValue, hobject, hid, hname, hnodes, hconnections]

/-- A collection can be put in place of another one with the same entries. -/
theorem ofValue_put {name : String} (hname : name ∈ ["nodes", "connections"]) {a b : Value}
    (h : entriesOf (some a) = entriesOf (some b)) (fields : List (String × Value)) :
    ofValue (.obj (Pairs.put name a fields)) = ofValue (.obj (Pairs.put name b fields)) := by
  have hother : ∀ field, name ≠ field → (Value.obj (Pairs.put name a fields)).field? field =
      (Value.obj (Pairs.put name b fields)).field? field := by
    intro field hne
    rw [Value.field?_obj, Value.field?_obj, Pairs.lookup_put, Pairs.lookup_put, if_neg hne, if_neg hne]
  have hentries : ∀ field, entriesOf ((Value.obj (Pairs.put name a fields)).field? field) =
      entriesOf ((Value.obj (Pairs.put name b fields)).field? field) := by
    intro field
    by_cases heq : name = field
    · rw [Value.field?_obj, Value.field?_obj, Pairs.lookup_put, Pairs.lookup_put, if_pos heq, if_pos heq, h]
    · rw [hother field heq]
  have hid : name ≠ "id" ∧ name ≠ "name" := by
    rcases List.mem_pair.mp hname with rfl | rfl <;> decide
  exact ofValue_congr rfl (hother "id" hid.1) (hother "name" hid.2) (hentries "nodes")
    (hentries "connections")

/-- **Lists are read like objects, unless an id does not count.** Let entries have scalars as ids,
with texts that are distinct and not empty. The list of them is read like the object that has
them under these texts exactly if each of them stands at its own id: all ids count as given, a
zero in the first place apart. Then the same graph is read from either form, for nodes and for
connections, and each node that is listed is found under the text of its id. -/
theorem ofValue_list_eq_object {named : List (String × Value)} (h : Identified named)
    (fields : List (String × Value)) :
    (entriesOf (some (.arr (named.map Prod.snd))) = entriesOf (some (.obj named)) ↔
      ∀ place e, named[place]? = some e → AtOwnId place e.2) ∧
    ((∀ place e, named[place]? = some e → AtOwnId place e.2) →
      (∀ name ∈ ["nodes", "connections"],
        ofValue (.obj (Pairs.put name (.arr (named.map Prod.snd)) fields)) =
          ofValue (.obj (Pairs.put name (.obj named) fields))) ∧
      ∀ g, ofValue (.obj (Pairs.put "nodes" (.arr (named.map Prod.snd)) fields)) = .ok g →
        ∀ e ∈ named, g.node? e.1 = some (Node.ofFields e.2)) := by
  refine ⟨h.entriesOf_eq_iff, fun hown => ?_⟩
  have hentries := h.entriesOf_eq_iff.mpr hown
  refine ⟨fun name hname => ofValue_put hname hentries fields, fun g hg e he => ?_⟩
  obtain rfl := eq_ofFields_of_ofValue hg
  have hnodes : nodeEntries (.obj (Pairs.put "nodes" (.arr (named.map Prod.snd)) fields)) =
      entriesOf (some (.obj named)) := by
    rw [nodeEntries, Value.field?_obj, Pairs.lookup_put, if_pos rfl, hentries]
  rw [node?, ofFields, hnodes, Mapping.get?_mapValues, h.get?_entriesOf he]
  rfl

/-- Entries at their own ids: a zero in the first place, a text, a truth value and a number. -/
def ownIds : List (String × Value) :=
  [("0", .obj [("id", .int 0), ("type", .str "start")]), ("a", .obj [("id", .str "a")]),
    ("True", .obj [("id", .bool true)]), ("-7", .obj [("id", .int (-7))])]

theorem identified_ownIds : Identified ownIds where
  id := by
    simp only [ownIds, List.forall_mem_cons, List.not_mem_nil, false_implies, implies_true,
      and_true]
    refine ⟨?_, ?_, ?_, ?_⟩
    · decide +kernel
    · rfl
    · rfl
    · decide +kernel
  nonempty := by decide
  distinct := by decide

/-- They are read alike from a list and from an object, and the zero is found. -/
theorem ownIds_list_eq_object :
    Identified ownIds ∧ (∀ place e, ownIds[place]? = some e → AtOwnId place e.2) ∧
      ofValue (.obj (Pairs.put "nodes" (.arr (ownIds.map Prod.snd)) [("id", .str "g")])) =
        ofValue (.obj (Pairs.put "nodes" (.obj ownIds) [("id", .str "g")])) ∧
      ∃ g, ofValue (.obj (Pairs.put "nodes" (.arr (ownIds.map Prod.snd)) [("id", .str "g")])) =
          .ok g ∧ (g.node? "0").map (·.tag) = some "start" := by
  have hown : ∀ place e, ownIds[place]? = some e → AtOwnId place e.2 :=
    identified_ownIds.keyed_eq_iff.mp (by decide +kernel)
  obtain ⟨-, hread⟩ := ofValue_list_eq_object identified_ownIds [("id", .str "g")]
  obtain ⟨hsame, hfound⟩ := hread hown
  have hoversized : oversized
      (.obj (Pairs.put "nodes" (.arr (ownIds.map Prod.snd)) [("id", .str "g")])) = [] := by decide +kernel
  have hg := ofValue_of_oversized_eq_nil rfl hoversized
  refine ⟨identified_ownIds, hown, hsame "nodes" List.mem_cons_self, _, hg, ?_⟩
  rw [hfound _ hg ("0", _) List.mem_cons_self]
  rfl

/-- A zero that is not in the first place. -/
def laterZero : List (String × Value) :=
  [("a", .obj [("id", .str "a")]), ("0", .obj [("id", .int 0)])]

theorem identified_laterZero : Identified laterZero where
  id := by
    simp only [laterZero, List.forall_mem_cons, List.not_mem_nil, false_implies, implies_true,
      and_true]
    refine ⟨?_, ?_⟩
    · rfl
    · decide +kernel
  nonempty := by decide
  distinct := by decide

/-- The list has it under its place, so that no node is found under its id. -/
theorem not_forall_list_eq_object :
    (¬ ∀ named, Identified named →
      entriesOf (some (.arr (named.map Prod.snd))) = entriesOf (some (.obj named))) ∧
    ¬ ∀ named g, Identified named → ofValue (listing (named.map Prod.snd)) = .ok g →
      ∀ e ∈ named, g.hasNode e.1 = true := by
  constructor
  · intro h
    have hown := identified_laterZero.entriesOf_eq_iff.mp (h laterZero identified_laterZero)
    rcases hown 1 ("0", .obj [("id", .int 0)]) rfl with hgiven | ⟨hplace, -⟩
    · cases hgiven
    · cases hplace
  · intro h
    have hoversized : oversized (listing (laterZero.map Prod.snd)) = [] := by decide +kernel
    have hfound := h laterZero _ identified_laterZero (ofValue_of_oversized_eq_nil rfl hoversized)
      ("0", .obj [("id", .int 0)]) (by simp [laterZero])
    have hmissing : (ofFields (listing (laterZero.map Prod.snd))).hasNode "0" = false := by decide +kernel
    rw [hmissing] at hfound
    cases hfound

end Graph
end PlotGraph
