import PlotGraph.Options
import PlotGraph.Proofs.Except
import Mathlib.Data.List.Basic

/-!
# What settings give

The entries of a mapping are taken in one after the other, and each of them sets at most one
option. So all of them are taken in exactly if each of them can be (`Options.Accepts`), and an
option then has the last value that an entry gives for it, or keeps the one that it had
(`Options.takeAll_eq_ok_iff`).

No entry gives a negative limit. Limits that are not negative stay so
(`Options.Nonnegative.takeAll`), though not where they are overridden: an option that is
overridden has whatever value is given for it (`Options.limit_override`).
-/

namespace PlotGraph

theorem Switch.mem_all (s : Switch) : s ∈ all := by
  cases s <;> decide

theorem Limit.mem_all (l : Limit) : l ∈ all := by
  cases l <;> decide

/-- The two names of an option. -/
def OptionKey.names : OptionKey → List String
  | .switch s => [s.name, s.editorName]
  | .limit l => [l.name, l.editorName]

/-- An option is found under its two names and no others. -/
theorem OptionKey.ofName?_eq_some_iff {key : OptionKey} {name : String} :
    ofName? name = some key ↔ name ∈ key.names := by
  constructor
  · intro h
    unfold ofName? at h
    split at h
    · next s hs =>
        cases h
        have hnamed := List.find?_some hs
        simp only [Bool.or_eq_true, beq_iff_eq] at hnamed
        simpa [names] using hnamed.imp Eq.symm Eq.symm
    · obtain ⟨l, hl, rfl⟩ := Option.map_eq_some_iff.mp h
      have hnamed := List.find?_some hl
      simp only [Bool.or_eq_true, beq_iff_eq] at hnamed
      simpa [names] using hnamed.imp Eq.symm Eq.symm
  · intro h
    cases key with
    | switch s =>
        simp only [names, List.mem_cons, List.not_mem_nil, or_false] at h
        obtain rfl | rfl := h <;> cases s <;> rfl
    | limit l =>
        simp only [names, List.mem_cons, List.not_mem_nil, or_false] at h
        obtain rfl | rfl := h <;> cases l <;> rfl

namespace Options

/-! ### Setting one option -/

/-- To set a switch leaves the other switches alone. -/
theorem switch_setSwitch (o : Options) (s t : Switch) (b : Bool) :
    (o.setSwitch s b).switch t = if s = t then b else o.switch t := by
  cases s <;> cases t <;> rfl

/-- To set a limit leaves the switches alone. -/
@[simp] theorem switch_setLimit (o : Options) (l : Limit) (i : Int) (s : Switch) :
    (o.setLimit l i).switch s = o.switch s := by
  cases l <;> cases s <;> rfl

/-- To set a switch leaves the limits alone. -/
@[simp] theorem limit_setSwitch (o : Options) (s : Switch) (b : Bool) (l : Limit) :
    (o.setSwitch s b).limit l = o.limit l := by
  cases s <;> cases l <;> rfl

/-- To set a limit leaves the other limits alone. -/
theorem limit_setLimit (o : Options) (l m : Limit) (i : Int) :
    (o.setLimit l i).limit m = if l = m then i else o.limit m := by
  cases l <;> cases m <;> rfl

/-! ### One entry -/

/-- The truth value that an entry gives for a switch. -/
def switchGiven? (s : Switch) (e : String × Setting) : Option Bool :=
  if OptionKey.ofName? e.1 = some (.switch s) then e.2.truth? else none

/-- The number that an entry gives for a limit. -/
def limitGiven? (l : Limit) (e : String × Setting) : Option Int :=
  if OptionKey.ofName? e.1 = some (.limit l) then e.2.integer? else none

/-- A setting can be read as a value of an option: a truth value for a switch, and a number
that is not negative for a limit. -/
def Reads : OptionKey → Setting → Prop
  | .switch _, setting => ∃ b, setting.truth? = some b
  | .limit _, setting => ∃ i, setting.integer? = some i ∧ 0 ≤ i

/-- An entry can be taken in: unless its name is unknown or nothing is given, its setting can be
read as a value of the option that it names. -/
def Accepts (name : String) (setting : Setting) : Prop :=
  ∀ key, OptionKey.ofName? name = some key → setting ≠ .absent → Reads key setting

/-- Options have the values that entries give last, and otherwise those of other options. -/
structure Updates (o : Options) (entries : List (String × Setting)) (o' : Options) : Prop where
  switch (s : Switch) :
    o'.switch s = ((entries.filterMap (switchGiven? s)).getLast?).getD (o.switch s)
  limit (l : Limit) :
    o'.limit l = ((entries.filterMap (limitGiven? l)).getLast?).getD (o.limit l)

theorem Updates.refl (o : Options) : Updates o [] o := ⟨fun _ => rfl, fun _ => rfl⟩

theorem Updates.trans {o o' o'' : Options} {entries rest : List (String × Setting)}
    (h : Updates o entries o') (h' : Updates o' rest o'') :
    Updates o (entries ++ rest) o'' where
  switch s := by
    rw [h'.switch, h.switch, List.filterMap_append, List.getLast?_append, Option.getD_or]
  limit l := by
    rw [h'.limit, h.limit, List.filterMap_append, List.getLast?_append, Option.getD_or]

/-- Options are their switches and limits. -/
theorem eq_of_switch_of_limit {o o' : Options} (hs : ∀ s, o.switch s = o'.switch s)
    (hl : ∀ l, o.limit l = o'.limit l) : o = o' := by
  cases o
  cases o'
  simp only [mk.injEq]
  exact ⟨hs .circularDependencies, hs .deadCode, hs .reachability, hs .typeCompatibility,
    hs .performance, hl .nodeCount, hl .connectionCount, hl .depth, hl .branches⟩

/-- Entries lead from options to no more than one result. -/
theorem Updates.unique {o o₁ o₂ : Options} {entries : List (String × Setting)}
    (h₁ : Updates o entries o₁) (h₂ : Updates o entries o₂) : o₁ = o₂ :=
  eq_of_switch_of_limit (fun s => by rw [h₁.switch, h₂.switch])
    (fun l => by rw [h₁.limit, h₂.limit])

/-! ### Taking in one entry -/

/-- A setting under a name that is none of an option changes nothing. -/
theorem take_of_ofName?_eq_none (o : Options) {name : String} (setting : Setting)
    (h : OptionKey.ofName? name = none) : o.take name setting = .ok o := by
  unfold take
  rw [h]

/-- A setting that is absent changes nothing. -/
theorem take_absent (o : Options) (name : String) : o.take name .absent = .ok o := by
  unfold take
  cases OptionKey.ofName? name <;> rfl

/-- An entry gives nothing for any option: its name is unknown, or it holds a null. -/
def Idle (e : String × Setting) : Prop := OptionKey.ofName? e.1 = none ∨ e.2 = .absent

/-- An idle entry changes nothing. -/
theorem take_of_idle (o : Options) {e : String × Setting} (h : Idle e) :
    o.take e.1 e.2 = .ok o := by
  obtain hname | habsent := h
  · exact take_of_ofName?_eq_none o e.2 hname
  · rw [habsent]
    exact take_absent o e.1

/-- A setting that is there is assigned to the option that its name stands for. -/
theorem take_of_ofName?_eq_some (o : Options) {name : String} {setting : Setting}
    {key : OptionKey} (h : OptionKey.ofName? name = some key) (hs : setting ≠ .absent) :
    o.take name setting = o.assign name key setting := by
  unfold take
  rw [h]
  cases setting <;> first | rfl | exact absurd rfl hs

/-- A setting that is accepted is taken, and updates the options by what it says. -/
theorem take_of_accepts (o : Options) {name : String} {setting : Setting}
    (h : Accepts name setting) :
    ∃ o', o.take name setting = .ok o' ∧ Updates o [(name, setting)] o' := by
  cases hkey : OptionKey.ofName? name with
  | none =>
    refine ⟨o, take_of_ofName?_eq_none o setting hkey, fun s => ?_, fun l => ?_⟩
    · simp [switchGiven?, hkey]
    · simp [limitGiven?, hkey]
  | some key =>
    by_cases habsent : setting = .absent
    · subst habsent
      refine ⟨o, take_absent o name, fun s => ?_, fun l => ?_⟩
      · simp [switchGiven?, Setting.truth?]
      · simp [limitGiven?, Setting.integer?]
    · have htake := take_of_ofName?_eq_some o hkey habsent
      have hread := h key hkey habsent
      cases key with
      | switch s =>
        obtain ⟨b, hb⟩ := hread
        refine ⟨o.setSwitch s b, by rw [htake, assign]; simp [hb], fun t => ?_, fun l => ?_⟩
        · by_cases hst : s = t <;> simp [switch_setSwitch, switchGiven?, hkey, hst, hb]
        · simp [limitGiven?, hkey]
      | limit l =>
        obtain ⟨i, hi, hnonneg⟩ := hread
        refine ⟨o.setLimit l i, by rw [htake, assign]; simp [hi, Int.not_lt.mpr hnonneg],
          fun s => ?_, fun m => ?_⟩
        · simp [switchGiven?, hkey]
        · by_cases hlm : l = m <;> simp [limit_setLimit, limitGiven?, hkey, hlm, hi]

/-- Only a setting that is accepted is taken. -/
theorem accepts_of_take {o o' : Options} {name : String} {setting : Setting}
    (h : o.take name setting = .ok o') : Accepts name setting := by
  intro key hkey habsent
  rw [take_of_ofName?_eq_some o hkey habsent] at h
  cases key with
  | switch s =>
    cases hb : setting.truth? with
    | none => simp [assign, hb] at h
    | some b => exact ⟨b, hb⟩
  | limit l =>
    cases hi : setting.integer? with
    | none => simp [assign, hi] at h
    | some i =>
      by_cases hneg : i < 0
      · simp [assign, hi, hneg] at h
      · exact ⟨i, hi, Int.not_lt.mp hneg⟩

/-! ### Taking in all entries -/

/-- Entries are taken one after the other. -/
theorem takeAll_append (o : Options) (xs ys : List (String × Setting)) :
    o.takeAll (xs ++ ys) = o.takeAll xs >>= fun o' => o'.takeAll ys := by
  induction xs generalizing o with
  | nil => rfl
  | cons x rest ih =>
      rw [List.cons_append, takeAll, takeAll]
      cases o.take x.1 x.2 with
      | error e => rfl
      | ok o' => exact ih o'

/-- Idle entries change nothing. -/
theorem takeAll_of_idle (o : Options) {entries : List (String × Setting)}
    (h : ∀ e ∈ entries, Idle e) : o.takeAll entries = .ok o := by
  induction entries with
  | nil => rfl
  | cons e rest ih =>
      obtain ⟨hfirst, hrest⟩ := List.forall_mem_cons.mp h
      rw [takeAll, take_of_idle o hfirst]
      exact ih hrest

/-- An entry among others that give nothing decides alone. -/
theorem takeAll_alone (o : Options) {before after : List (String × Setting)}
    (h : ∀ e ∈ before ++ after, Idle e) (name : String) (setting : Setting) :
    o.takeAll (before ++ (name, setting) :: after) = o.take name setting := by
  obtain ⟨hbefore, hafter⟩ := List.forall_mem_append.mp h
  rw [takeAll_append, takeAll_of_idle o hbefore]
  show (o.take name setting).bind (fun o' => o'.takeAll after) = _
  cases o.take name setting with
  | error e => rfl
  | ok o' => exact takeAll_of_idle o' hafter

/-- Entries that can each be taken in can be taken in one after the other, and an option then
has the value that was given for it last. -/
theorem takeAll_of_accepts (o : Options) {entries : List (String × Setting)}
    (h : ∀ e ∈ entries, Accepts e.1 e.2) :
    ∃ o', o.takeAll entries = .ok o' ∧ Updates o entries o' := by
  induction entries generalizing o with
  | nil => exact ⟨o, rfl, .refl o⟩
  | cons e rest ih =>
    obtain ⟨o₁, htake, hfirst⟩ := take_of_accepts o (h e (by simp))
    obtain ⟨o₂, hall, hrest⟩ := ih o₁ fun e he => h e (by simp [he])
    refine ⟨o₂, ?_, hfirst.trans hrest⟩
    rw [takeAll, htake]
    exact hall

/-- Entries are only taken if every one of them is accepted. -/
theorem accepts_of_takeAll {o o' : Options} {entries : List (String × Setting)}
    (h : o.takeAll entries = .ok o') : ∀ e ∈ entries, Accepts e.1 e.2 := by
  induction entries generalizing o with
  | nil => simp
  | cons e rest ih =>
    rw [takeAll, bind_eq_ok_iff] at h
    obtain ⟨o₁, htake, hrest⟩ := h
    intro e' he'
    obtain rfl | he' := List.mem_cons.mp he'
    · exact accepts_of_take htake
    · exact ih hrest e' he'

/-- What entries give is determined by the last value that they give for each option. -/
theorem takeAll_eq_ok_iff {o o' : Options} {entries : List (String × Setting)} :
    o.takeAll entries = .ok o' ↔ (∀ e ∈ entries, Accepts e.1 e.2) ∧ Updates o entries o' := by
  constructor
  · intro h
    obtain ⟨o'', hok, hupdates⟩ := takeAll_of_accepts o (accepts_of_takeAll h)
    cases h.symm.trans hok
    exact ⟨accepts_of_takeAll h, hupdates⟩
  · rintro ⟨haccepts, hupdates⟩
    obtain ⟨o'', hok, hupdates'⟩ := takeAll_of_accepts o haccepts
    rw [hok, hupdates.unique hupdates']

/-- Entries that are taken update the options by what they say. -/
theorem updates_of_takeAll {o o' : Options} {entries : List (String × Setting)}
    (h : o.takeAll entries = .ok o') : Updates o entries o' :=
  (takeAll_eq_ok_iff.mp h).2

/-! ### Limits that are not negative -/

/-- No limit is negative. -/
def Nonnegative (o : Options) : Prop := ∀ l, 0 ≤ o.limit l

theorem nonnegative_default : Nonnegative {} := by
  intro l
  cases l <;> decide

/-- What an entry that can be taken in gives for a limit is not negative. -/
theorem Accepts.nonneg {name : String} {setting : Setting} (h : Accepts name setting)
    {l : Limit} {i : Int} (hi : limitGiven? l (name, setting) = some i) : 0 ≤ i := by
  simp only [limitGiven?, Option.ite_none_right_eq_some] at hi
  obtain ⟨hkey, hread⟩ := hi
  have habsent : setting ≠ .absent := by
    rintro rfl
    cases hread
  obtain ⟨j, hj, hnonneg⟩ := h _ hkey habsent
  exact (Option.some.inj (hj.symm.trans hread)) ▸ hnonneg

/-- Limits stay at least zero, whatever is taken. -/
theorem Nonnegative.takeAll {o o' : Options} {entries : List (String × Setting)}
    (ho : o.Nonnegative) (h : o.takeAll entries = .ok o') : o'.Nonnegative := by
  intro l
  rw [(updates_of_takeAll h).limit]
  cases hlast : (entries.filterMap (limitGiven? l)).getLast? with
  | none => exact ho l
  | some i =>
    obtain ⟨e, he, hi⟩ := List.mem_filterMap.mp (List.mem_of_getLast? hlast)
    exact (accepts_of_takeAll h e he).nonneg hi

/-- The options that an object gives have limits of at least zero. -/
theorem Nonnegative.ofFields {o : Options} {fields : List (String × Value)}
    (h : Options.ofFields fields = .ok o) : o.Nonnegative :=
  nonnegative_default.takeAll h

/-! ### Overriding -/

/-- To set several switches gives each of them its own value. -/
theorem switch_foldl_setSwitch (r : Switch → Option Bool) (switches : List Switch) (o : Options)
    (s : Switch) :
    (switches.foldl (fun o t => (r t).elim o (o.setSwitch t)) o).switch s =
      if s ∈ switches then (r s).getD (o.switch s) else o.switch s := by
  induction switches generalizing o with
  | nil => rfl
  | cons t rest ih =>
    rw [List.foldl_cons, ih]
    by_cases hst : s = t
    · subst hst
      cases r s <;> simp [switch_setSwitch]
    · cases r t <;> simp [switch_setSwitch, hst, Ne.symm hst]

/-- To set several limits leaves the switches alone. -/
theorem switch_foldl_setLimit (r : Limit → Option Int) (limits : List Limit) (o : Options)
    (s : Switch) :
    (limits.foldl (fun o l => (r l).elim o (o.setLimit l)) o).switch s = o.switch s := by
  induction limits generalizing o with
  | nil => rfl
  | cons l rest ih =>
    rw [List.foldl_cons, ih]
    cases r l <;> simp

/-- To set several switches leaves the limits alone. -/
theorem limit_foldl_setSwitch (r : Switch → Option Bool) (switches : List Switch) (o : Options)
    (l : Limit) :
    (switches.foldl (fun o t => (r t).elim o (o.setSwitch t)) o).limit l = o.limit l := by
  induction switches generalizing o with
  | nil => rfl
  | cons s rest ih =>
    rw [List.foldl_cons, ih]
    cases r s <;> simp

/-- To set several limits gives each of them its own value. -/
theorem limit_foldl_setLimit (r : Limit → Option Int) (limits : List Limit) (o : Options)
    (l : Limit) :
    (limits.foldl (fun o m => (r m).elim o (o.setLimit m)) o).limit l =
      if l ∈ limits then (r l).getD (o.limit l) else o.limit l := by
  induction limits generalizing o with
  | nil => rfl
  | cons m rest ih =>
    rw [List.foldl_cons, ih]
    by_cases hlm : l = m
    · subst hlm
      cases r l <;> simp [limit_setLimit]
    · cases r m <;> simp [limit_setLimit, hlm, Ne.symm hlm]

/-- An option that is overridden has the value given for it, and any other keeps its own. -/
theorem switch_override (o : Options) (r : Overrides) (s : Switch) :
    (o.override r).switch s = (r.switches s).getD (o.switch s) := by
  rw [override, switch_foldl_setLimit, switch_foldl_setSwitch, if_pos s.mem_all]

/-- A limit that is overridden has the new value, and the others have their old ones. -/
theorem limit_override (o : Options) (r : Overrides) (l : Limit) :
    (o.override r).limit l = (r.limits l).getD (o.limit l) := by
  rw [override, limit_foldl_setLimit, limit_foldl_setSwitch, if_pos l.mem_all]

end Options
end PlotGraph
