/-!
# Mappings that keep the order of their keys

A `Mapping κ α` is a finite map whose entries stand in the order in which their keys
were first given. Giving a key a second time replaces its value and keeps its place.
Distinctness of the keys is a field of the type, so no reader of a mapping has to ask
for it.

The operations are described through `keys` and `get?`:

* `keys_put`: a new key goes to the end, a known one stays where it is;
* `get?_put`: the value put is found under its key, and all other keys are untouched;
* `ofList_entries`: a list with distinct keys is kept as it is.
-/

namespace PlotGraph

/-! ### Lists of pairs -/

namespace Pairs

variable {κ α : Type} [DecidableEq κ]

/-- The value of the first pair with the given key. -/
def lookup (key : κ) : List (κ × α) → Option α
  | [] => none
  | (k, v) :: rest => if k = key then some v else lookup key rest

/-- Replace the value of the first pair with the given key, or add the pair at the end. -/
def put (key : κ) (value : α) : List (κ × α) → List (κ × α)
  | [] => [(key, value)]
  | (k, v) :: rest => if k = key then (k, value) :: rest else (k, v) :: put key value rest

/-- A key that is new goes to the end; one that is there keeps its place. -/
theorem keys_put (key : κ) (value : α) (ps : List (κ × α)) :
    (put key value ps).map Prod.fst =
      if key ∈ ps.map Prod.fst then ps.map Prod.fst else ps.map Prod.fst ++ [key] := by
  induction ps with
  | nil => simp [put]
  | cons p rest ih =>
    obtain ⟨k, v⟩ := p
    by_cases h : k = key
    · simp [put, h]
    · have h' : ¬ key = k := fun e => h e.symm
      by_cases hm : key ∈ rest.map Prod.fst <;> simp_all [put]

theorem nodup_put (key : κ) (value : α) {ps : List (κ × α)} (h : (ps.map Prod.fst).Nodup) :
    ((put key value ps).map Prod.fst).Nodup := by
  rw [keys_put]
  split
  · exact h
  · next hk =>
    refine List.nodup_append.mpr ⟨h, by simp, ?_⟩
    intro a ha b hb hab
    rw [List.mem_singleton.mp hb] at hab
    exact hk (hab ▸ ha)

/-- What is put in is found under its key, and under no other. -/
theorem lookup_put (key other : κ) (value : α) (ps : List (κ × α)) :
    lookup other (put key value ps) = if key = other then some value else lookup other ps := by
  induction ps with
  | nil => by_cases h : key = other <;> simp [put, lookup, h]
  | cons p rest ih =>
    obtain ⟨k, v⟩ := p
    by_cases h : k = key
    · by_cases h' : key = other <;> simp [put, lookup, h, h']
    · by_cases h' : k = other
      · subst h'
        have : ¬ key = k := fun e => h e.symm
        simp [put, lookup, h, this]
      · simp [put, lookup, h, h', ih]

/-- Nothing is found under a key exactly if it is not there. -/
theorem lookup_eq_none_iff (key : κ) (ps : List (κ × α)) :
    lookup key ps = none ↔ key ∉ ps.map Prod.fst := by
  induction ps with
  | nil => simp [lookup]
  | cons p rest ih =>
    obtain ⟨k, v⟩ := p
    by_cases h : k = key
    · simp [lookup, h]
    · have h' : ¬ key = k := fun e => h e.symm
      simp [lookup, h, h', ih]

/-- A pair with a new key goes to the end. -/
theorem put_of_not_mem (key : κ) (value : α) {ps : List (κ × α)}
    (h : key ∉ ps.map Prod.fst) : put key value ps = ps ++ [(key, value)] := by
  induction ps with
  | nil => rfl
  | cons p rest ih =>
    obtain ⟨k, v⟩ := p
    simp only [List.map_cons, List.mem_cons, not_or] at h
    have hk : ¬ k = key := fun e => h.1 e.symm
    simp [put, hk, ih h.2]

/-- An entry that a function passes over can be replaced without a trace. -/
theorem filterMap_put {β : Type} (f : κ × α → Option β) {key : κ} (hf : ∀ v, f (key, v) = none)
    (value : α) (ps : List (κ × α)) : (put key value ps).filterMap f = ps.filterMap f := by
  induction ps with
  | nil => simp [put, hf]
  | cons p rest ih =>
    obtain ⟨k, v⟩ := p
    by_cases h : k = key
    · subst h
      simp [put, hf]
    · simp [put, h, List.filterMap_cons, ih]

/-- To put in a pair whose key is filtered out changes nothing. -/
theorem filter_put (keep : κ → Bool) (key : κ) (value : α) (ps : List (κ × α)) :
    (put key value ps).filter (fun e => keep e.1) =
      if keep key then put key value (ps.filter fun e => keep e.1)
      else ps.filter fun e => keep e.1 := by
  induction ps with
  | nil => by_cases hk : keep key <;> simp [put, hk]
  | cons p rest ih =>
    obtain ⟨k, v⟩ := p
    by_cases h : k = key
    · subst h
      by_cases hk : keep k <;> simp [put, hk]
    · rw [put, if_neg h, List.filter_cons, List.filter_cons, ih]
      by_cases hk : keep key <;> by_cases hk' : keep k <;> simp [put, h, hk, hk']

/-- What stands further in front is found first. -/
theorem lookup_append (key : κ) (ps qs : List (κ × α)) :
    lookup key (ps ++ qs) = (lookup key ps).or (lookup key qs) := by
  induction ps with
  | nil => rfl
  | cons p rest ih =>
    obtain ⟨k, v⟩ := p
    by_cases h : k = key
    · simp [lookup, h]
    · simp [lookup, h, ih]

/-- With distinct keys every pair is found. -/
theorem lookup_eq_some_iff {key : κ} {value : α} {ps : List (κ × α)}
    (h : (ps.map Prod.fst).Nodup) : lookup key ps = some value ↔ (key, value) ∈ ps := by
  induction ps with
  | nil => simp [lookup]
  | cons p rest ih =>
    obtain ⟨k, v⟩ := p
    simp only [List.map_cons, List.nodup_cons] at h
    by_cases hk : k = key
    · subst hk
      have : (k, value) ∉ rest := fun hm => h.1 (List.mem_map.mpr ⟨_, hm, rfl⟩)
      simp [lookup, this, eq_comm]
    · have hk' : ¬ key = k := fun e => hk e.symm
      simp [lookup, hk, hk', ih h.2]

end Pairs

/-! ### The type -/

/-- A finite map that keeps its keys in the order in which they were first given. -/
structure Mapping (κ α : Type) where
  /-- The pairs of key and value, in order. -/
  entries : List (κ × α) := []
  /-- No key occurs twice. -/
  nodup : (entries.map Prod.fst).Nodup := by simp
  deriving DecidableEq

namespace Mapping

variable {κ α β : Type}

instance : Inhabited (Mapping κ α) := ⟨{}⟩

def empty : Mapping κ α := {}

def keys (m : Mapping κ α) : List κ := m.entries.map Prod.fst

def values (m : Mapping κ α) : List α := m.entries.map Prod.snd

def size (m : Mapping κ α) : Nat := m.entries.length

def isEmpty (m : Mapping κ α) : Bool := m.entries.isEmpty

/-- Apply a function to every value and keep the keys. -/
def mapValues (f : κ → α → β) (m : Mapping κ α) : Mapping κ β where
  entries := m.entries.map fun e => (e.1, f e.1 e.2)
  nodup := by
    have h : (m.entries.map fun e => (e.1, f e.1 e.2)).map Prod.fst = m.entries.map Prod.fst := by
      simp [Function.comp_def]
    rw [h]
    exact m.nodup

variable [DecidableEq κ]

/-- The value stored under a key, if there is one. -/
def get? (m : Mapping κ α) (key : κ) : Option α := Pairs.lookup key m.entries

def contains (m : Mapping κ α) (key : κ) : Bool := (m.get? key).isSome

/-- Store a value: a known key keeps its place, a new one goes to the end. -/
def put (m : Mapping κ α) (key : κ) (value : α) : Mapping κ α where
  entries := Pairs.put key value m.entries
  nodup := Pairs.nodup_put key value m.nodup

/-- The mapping that the pairs give one after the other: a repeated key keeps its first
place and its last value. -/
def ofList (pairs : List (κ × α)) : Mapping κ α :=
  pairs.foldl (fun m p => m.put p.1 p.2) {}

/-! ### What the operations do to keys and values -/

omit [DecidableEq κ] in
theorem keys_nodup (m : Mapping κ α) : m.keys.Nodup := m.nodup

omit [DecidableEq κ] in
theorem keys_mapValues (f : κ → α → β) (m : Mapping κ α) : (m.mapValues f).keys = m.keys := by
  simp [keys, mapValues]

omit [DecidableEq κ] in
/-- A mapping is its entries. -/
theorem eq_of_entries_eq {m m' : Mapping κ α} (h : m.entries = m'.entries) : m = m' := by
  cases m
  cases m'
  cases h
  rfl

omit [DecidableEq κ] in
theorem mapValues_mapValues {γ : Type} (f : κ → α → β) (f' : κ → β → γ) (m : Mapping κ α) :
    (m.mapValues f).mapValues f' = m.mapValues fun k a => f' k (f k a) := by
  apply eq_of_entries_eq
  simp [mapValues, Function.comp_def]

omit [DecidableEq κ] in
theorem mapValues_self (m : Mapping κ α) : (m.mapValues fun _ a => a) = m := by
  apply eq_of_entries_eq
  simp [mapValues]

omit [DecidableEq κ] in
theorem values_mapValues (f : α → β) (m : Mapping κ α) :
    (m.mapValues fun _ => f).values = m.values.map f := by
  simp [values, mapValues]

/-- Under the keys of a mapping there are values, and under no others. -/
theorem mem_keys_iff (m : Mapping κ α) (key : κ) : key ∈ m.keys ↔ ∃ v, m.get? key = some v := by
  rw [← Option.isSome_iff_exists, Option.isSome_iff_ne_none, Ne, get?, Pairs.lookup_eq_none_iff]
  simp [keys]

theorem contains_iff (m : Mapping κ α) (key : κ) : m.contains key = true ↔ key ∈ m.keys := by
  rw [mem_keys_iff, contains, Option.isSome_iff_exists]

theorem contains_mapValues (f : κ → α → β) (m : Mapping κ α) (key : κ) :
    (m.mapValues f).contains key = m.contains key := by
  rw [Bool.eq_iff_iff, contains_iff, contains_iff, keys_mapValues]

/-- What is found under a key is the entry with it. -/
theorem get?_eq_some_iff (m : Mapping κ α) (key : κ) (value : α) :
    m.get? key = some value ↔ (key, value) ∈ m.entries :=
  Pairs.lookup_eq_some_iff m.nodup

theorem keys_put (m : Mapping κ α) (key : κ) (value : α) :
    (m.put key value).keys = if key ∈ m.keys then m.keys else m.keys ++ [key] :=
  Pairs.keys_put key value m.entries

/-- What is put in is found under its key, and under no other. -/
theorem get?_put (m : Mapping κ α) (key other : κ) (value : α) :
    (m.put key value).get? other = if key = other then some value else m.get? other :=
  Pairs.lookup_put key other value m.entries

/-- Pairs with new and distinct keys are put behind the entries. -/
theorem foldl_put_entries (pairs : List (κ × α)) (m : Mapping κ α)
    (h : ((m.entries ++ pairs).map Prod.fst).Nodup) :
    (pairs.foldl (fun m p => m.put p.1 p.2) m).entries = m.entries ++ pairs := by
  induction pairs generalizing m with
  | nil => simp
  | cons p rest ih =>
    have hp : p.1 ∉ m.entries.map Prod.fst := by
      intro hm
      rw [List.map_append, List.nodup_append] at h
      exact h.2.2 p.1 hm p.1 (by simp) rfl
    have he : (m.put p.1 p.2).entries = m.entries ++ [p] := Pairs.put_of_not_mem p.1 p.2 hp
    rw [List.foldl_cons, ih _ (by rw [he]; simpa using h), he]
    simp

/-- Pairs with distinct keys are kept as they are. -/
theorem ofList_entries {pairs : List (κ × α)} (h : (pairs.map Prod.fst).Nodup) :
    (ofList pairs).entries = pairs := by
  have := foldl_put_entries pairs {} (by simpa using h)
  simpa [ofList] using this

/-- The entries of a mapping give the mapping again. -/
theorem ofList_entries_self (m : Mapping κ α) : ofList m.entries = m :=
  eq_of_entries_eq (ofList_entries m.nodup)

end Mapping
end PlotGraph
