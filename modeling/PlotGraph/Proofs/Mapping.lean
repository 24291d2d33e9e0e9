import PlotGraph.Mapping
import Mathlib.Data.List.Perm.Subperm
import Mathlib.Tactic.ByContra

/-!
# Pairs that are put one after another

A key that is given several times has one entry, in the place of the first and with the value of
the last (`Pairs.lookup_foldl_put_of_not_mem`, `Mapping.get?_ofList`). A mapping made of pairs
therefore has fewer entries than there are pairs as soon as two of these share their key
(`Mapping.size_ofList_lt`).
-/

namespace PlotGraph

/-! ### Putting several pairs -/

namespace Pairs

variable {κ α : Type} [DecidableEq κ]

/-- The keys are those that were there and those that are put in. -/
theorem mem_keys_foldl_put {key : κ} {fs base : List (κ × α)} :
    key ∈ (fs.foldl (fun ps f => put f.1 f.2 ps) base).map Prod.fst ↔
      key ∈ base.map Prod.fst ∨ key ∈ fs.map Prod.fst := by
  induction fs generalizing base with
  | nil => simp
  | cons f rest ih =>
      have hput : key ∈ (put f.1 f.2 base).map Prod.fst ↔
          key ∈ base.map Prod.fst ∨ key = f.1 := by
        rw [keys_put]
        split
        · next hmem =>
            refine ⟨Or.inl, ?_⟩
            rintro (h | rfl)
            · exact h
            · exact hmem
        · rw [List.mem_append, List.mem_singleton]
      rw [List.foldl_cons, ih, hput, List.map_cons, List.mem_cons, or_assoc]

/-- Keys stay distinct whatever is put in. -/
theorem nodup_foldl_put {base : List (κ × α)} (h : (base.map Prod.fst).Nodup)
    (fs : List (κ × α)) :
    ((fs.foldl (fun ps f => put f.1 f.2 ps) base).map Prod.fst).Nodup := by
  induction fs generalizing base with
  | nil => exact h
  | cons f rest ih => exact ih (nodup_put f.1 f.2 h)

/-- What is put in under other keys changes nothing here. -/
theorem lookup_foldl_put_of_not_mem {key : κ} {fs : List (κ × α)} (h : key ∉ fs.map Prod.fst)
    (base : List (κ × α)) :
    lookup key (fs.foldl (fun ps f => put f.1 f.2 ps) base) = lookup key base := by
  induction fs generalizing base with
  | nil => rfl
  | cons f rest ih =>
      rw [List.map_cons, List.mem_cons, not_or] at h
      rw [List.foldl_cons, ih h.2, lookup_put, if_neg (Ne.symm h.1)]

/-- What is put last is found. -/
theorem lookup_foldl_put {fs : List (κ × α)} (h : (fs.map Prod.fst).Nodup) (key : κ)
    (base : List (κ × α)) :
    lookup key (fs.foldl (fun ps f => put f.1 f.2 ps) base) =
      (lookup key fs).or (lookup key base) := by
  induction fs generalizing base with
  | nil => rfl
  | cons f rest ih =>
      obtain ⟨k, v⟩ := f
      obtain ⟨hk, hrest⟩ := List.nodup_cons.mp h
      rw [List.foldl_cons, ih hrest, lookup_put, lookup]
      split
      · next heq =>
          subst heq
          rw [(lookup_eq_none_iff k rest).mpr hk]
          rfl
      · rfl

/-- Pairs with keys of their own are put behind the others. -/
theorem foldl_put_of_nodup {base fs : List (κ × α)} (h : ((base ++ fs).map Prod.fst).Nodup) :
    fs.foldl (fun ps f => put f.1 f.2 ps) base = base ++ fs := by
  induction fs generalizing base with
  | nil => rw [List.append_nil, List.foldl_nil]
  | cons f rest ih =>
      have hf : f.1 ∉ base.map Prod.fst := by
        rw [List.map_append, List.nodup_append] at h
        exact fun hmem => h.2.2 f.1 hmem f.1 List.mem_cons_self rfl
      rw [List.foldl_cons, put_of_not_mem f.1 f.2 hf, ih (by rwa [List.append_cons] at h),
        List.append_assoc]
      rfl

/-- To map the values is to map what is found. -/
theorem lookup_map {β : Type} (f : α → β) (key : κ) (ps : List (κ × α)) :
    lookup key (ps.map fun e => (e.1, f e.2)) = (lookup key ps).map f := by
  induction ps with
  | nil => rfl
  | cons p rest ih =>
      rw [List.map_cons, lookup, lookup, ih]
      split
      · rfl
      · rfl

/-- A pair that is put stands among pairs that were there before. -/
theorem exists_put_eq (key : κ) (value : α) (ps : List (κ × α)) :
    ∃ before after, put key value ps = before ++ (key, value) :: after ∧
      before ++ after ⊆ ps := by
  induction ps with
  | nil => exact ⟨[], [], rfl, List.Subset.refl _⟩
  | cons p rest ih =>
      obtain ⟨k, v⟩ := p
      rw [put]
      split
      · next hk =>
          subst hk
          exact ⟨[], rest, rfl, List.subset_cons_self _ _⟩
      · obtain ⟨before, after, hput, hsub⟩ := ih
        exact ⟨(k, v) :: before, after, by rw [hput, List.cons_append],
          List.cons_subset_cons _ hsub⟩

end Pairs

namespace Mapping

variable {κ α : Type} [DecidableEq κ]

/-! ### Mappings of pairs -/

/-- To map the values is to map what is found. -/
theorem get?_mapValues {β : Type} (f : α → β) (m : Mapping κ α) (key : κ) :
    (m.mapValues fun _ => f).get? key = (m.get? key).map f :=
  Pairs.lookup_map f key m.entries

theorem entries_foldl_put (pairs : List (κ × α)) (m : Mapping κ α) :
    (pairs.foldl (fun m p => m.put p.1 p.2) m).entries =
      pairs.foldl (fun ps p => Pairs.put p.1 p.2 ps) m.entries := by
  induction pairs generalizing m with
  | nil => rfl
  | cons p rest ih => exact ih (m.put p.1 p.2)

theorem entries_ofList (pairs : List (κ × α)) :
    (ofList pairs).entries = pairs.foldl (fun ps p => Pairs.put p.1 p.2 ps) [] :=
  entries_foldl_put pairs {}

/-- The keys of a mapping are those of its pairs. -/
theorem mem_keys_ofList {key : κ} {pairs : List (κ × α)} :
    key ∈ (ofList pairs).keys ↔ key ∈ pairs.map Prod.fst := by
  rw [keys, entries_ofList, Pairs.mem_keys_foldl_put]
  simp

/-- The last value that is given for a key is found under it. -/
theorem get?_ofList {before after : List (κ × α)} {key : κ} {value : α}
    (h : key ∉ after.map Prod.fst) :
    (ofList (before ++ (key, value) :: after)).get? key = some value := by
  rw [get?, entries_ofList, List.foldl_append, List.foldl_cons,
    Pairs.lookup_foldl_put_of_not_mem h, Pairs.lookup_put, if_pos rfl]

/-- Pairs that share a key share an entry. -/
theorem size_ofList_lt {pairs : List (κ × α)} (h : ¬ (pairs.map Prod.fst).Nodup) :
    (ofList pairs).size < pairs.length := by
  have hsub : (ofList pairs).keys.Subperm (pairs.map Prod.fst) :=
    List.subperm_of_subset (ofList pairs).keys_nodup fun _ hkey => mem_keys_ofList.mp hkey
  have hsize : (ofList pairs).keys.length = (ofList pairs).size := List.length_map ..
  have hlength : (pairs.map Prod.fst).length = pairs.length := List.length_map ..
  by_contra hge
  -- with as many entries as pairs the keys would be those of the pairs
  have hperm := hsub.perm_of_length_le (by omega)
  exact h (hperm.nodup_iff.mp (ofList pairs).keys_nodup)

end Mapping
end PlotGraph
