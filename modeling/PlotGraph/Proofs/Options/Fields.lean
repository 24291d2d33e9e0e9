import PlotGraph.Proofs.Number.Decimal
import PlotGraph.Proofs.Options.Settings
import Mathlib.Data.List.Basic
import Mathlib.Data.List.Induction

/-!
# Options from the fields of an object

What the fields of an object give is said here for the fields as a whole. They are refused
exactly if some field gives an option a value that it cannot take, be it one that a later field
would have replaced; otherwise an option has the last value that is given for it under either of
its names, and its default where there is none.

The message is about the first field that is refused and begins with its name as it was written,
but only if the value can be shown: of one that holds an integer of more than 4300 digits it says
no more than that (`Options.ofFields_outcome`).
-/

namespace PlotGraph

/-! ### What values stand for -/

namespace Value

/-- A truth value, or a word for one. -/
def IsTruth (v : Value) (b : Bool) : Prop :=
  v = .bool b ∨ ∃ s, v = .str s ∧ truthOfWord? s = some b

/-- An integer, or a text that is read as one. -/
def IsInteger (v : Value) (i : Int) : Prop :=
  v = .int i ∨ ∃ s, v = .str s ∧ Decimal.readInt? (Text.strip s.toList) = some i

end Value

/-- An option can take a value: a truth value for a switch, and an integer that is not negative
for a limit. -/
def OptionKey.Takes : OptionKey → Value → Prop
  | .switch _, v => ∃ b, v.IsTruth b
  | .limit _, v => ∃ i, v.IsInteger i ∧ 0 ≤ i

namespace Setting

/-- A value gives a setting that is read as a truth value exactly if it is taken for one. -/
theorem truth?_ofValue {v : Value} {b : Bool} :
    (ofValue v).truth? = some b ↔ v.IsTruth b := by
  cases v <;> simp [ofValue, truth?, Value.IsTruth]

/-- A value gives a setting that is read as an integer exactly if it is taken for one. -/
theorem integer?_ofValue {v : Value} {i : Int} :
    (ofValue v).integer? = some i ↔ v.IsInteger i := by
  cases v <;> simp [ofValue, integer?, Value.IsInteger]

theorem ofValue_eq_absent_iff {v : Value} : ofValue v = .absent ↔ v = .null := by
  cases v <;> simp [ofValue]

/-- In a message a setting is shown as its value is, if that can be shown. -/
theorem shown?_ofValue (v : Value) :
    (ofValue v).shown? = if v.isShowable then some v.shown else none := by
  cases v <;> rfl

/-- An integer is shown exactly if the value that is taken for it can be shown. -/
theorem shownInteger?_eq {v : Value} {i : Int} (h : v.IsInteger i) :
    shownInteger? i = if v.isShowable then some (Decimal.ofInt i) else none := by
  rw [shownInteger?]
  obtain rfl | ⟨s, rfl, hread⟩ := h
  · rfl
  · rw [Decimal.isShowable_of_readInt? hread]
    rfl

end Setting

namespace Options

/-! ### The first refusal -/

/-- What is wrong with a setting that its option cannot be read from. -/
def refusal (name : String) (setting : Setting) : OptionKey → OptionError
  | .switch _ => .notTruth name setting
  | .limit _ =>
    match setting.integer? with
    | some i => .negative name i
    | none => .notInteger name setting

/-- A setting that an option does not read is refused. -/
theorem take_of_not_reads (o : Options) {name : String} {setting : Setting} {key : OptionKey}
    (hkey : OptionKey.ofName? name = some key) (habsent : setting ≠ .absent)
    (h : ¬ Reads key setting) : o.take name setting = .error (refusal name setting key) := by
  rw [take_of_ofName?_eq_some o hkey habsent]
  cases key with
  | switch s =>
      cases hb : setting.truth? with
      | none => simp [assign, hb, refusal]
      | some b => exact absurd ⟨b, hb⟩ h
  | limit l =>
      cases hi : setting.integer? with
      | none => simp [assign, hi, refusal]
      | some i =>
          have hneg : i < 0 := Int.not_le.mp fun hnonneg => h ⟨i, hi, hnonneg⟩
          simp [assign, hi, hneg, refusal]

/-- The first entry that cannot be taken in decides the error, whatever follows. -/
theorem takeAll_of_not_reads (o : Options) {before after : List (String × Setting)}
    {name : String} {setting : Setting} {key : OptionKey}
    (hbefore : ∀ e ∈ before, Accepts e.1 e.2) (hkey : OptionKey.ofName? name = some key)
    (habsent : setting ≠ .absent) (h : ¬ Reads key setting) :
    o.takeAll (before ++ (name, setting) :: after) = .error (refusal name setting key) := by
  obtain ⟨o', hok, -⟩ := takeAll_of_accepts o hbefore
  rw [takeAll_append, hok]
  show o'.takeAll ((name, setting) :: after) = _
  rw [takeAll, take_of_not_reads o' hkey habsent h]
  rfl

/-! ### Fields that are refused -/

/-- A field gives an option a value that it cannot take. -/
def Misfits (key : OptionKey) (f : String × Value) : Prop :=
  f.1 ∈ key.names ∧ f.2 ≠ .null ∧ ¬ key.Takes f.2

/-- An option reads the setting of a value exactly if it takes the value. -/
theorem reads_ofValue_iff {key : OptionKey} {v : Value} :
    Reads key (Setting.ofValue v) ↔ key.Takes v := by
  cases key <;> simp [Reads, OptionKey.Takes, Setting.truth?_ofValue, Setting.integer?_ofValue]

/-- A value is accepted under a name exactly if it does not misfit the option. -/
theorem accepts_ofValue_iff {name : String} {v : Value} :
    Accepts name (Setting.ofValue v) ↔ ∀ key, ¬ Misfits key (name, v) := by
  simp only [Accepts, Misfits, OptionKey.ofName?_eq_some_iff, ne_eq,
    Setting.ofValue_eq_absent_iff, reads_ofValue_iff]
  exact forall_congr' fun key => by tauto

/-- All fields are accepted exactly if none of them misfits. -/
theorem accepts_fields_iff {fields : List (String × Value)} :
    (∀ e ∈ fields.map fun f => (f.1, Setting.ofValue f.2), Accepts e.1 e.2) ↔
      ∀ f ∈ fields, ∀ key, ¬ Misfits key f := by
  simp only [List.forall_mem_map, accepts_ofValue_iff]

/-- What a message says about a name, and about a value that is shown if it can be. -/
theorem withShown_ite (name demand shown : String) (showable : Bool) :
    (showable = true → ∃ rest,
      withShown (name ++ (" must " ++ demand)) (if showable then some shown else none) =
        name ++ (" must " ++ rest)) ∧
    (showable = false →
      withShown (name ++ (" must " ++ demand)) (if showable then some shown else none) =
        Decimal.unshowableMessage) := by
  refine ⟨?_, ?_⟩
  · rintro rfl
    exact ⟨demand ++ ", got " ++ shown, by simp [withShown, String.append_assoc]⟩
  · rintro rfl
    rfl

/-- A refusal names the field if its value can be shown, and otherwise says nothing of it. -/
theorem message_refusal (key : OptionKey) (name : String) (v : Value) :
    (v.isShowable = true →
      ∃ rest, (refusal name (Setting.ofValue v) key).message = name ++ (" must " ++ rest)) ∧
    (v.isShowable = false →
      (refusal name (Setting.ofValue v) key).message = Decimal.unshowableMessage) := by
  cases key with
  | switch s =>
      simp only [refusal, OptionError.message, Setting.shown?_ofValue]
      exact withShown_ite name "be true or false" v.shown v.isShowable
  | limit l =>
      cases hi : (Setting.ofValue v).integer? with
      | none =>
          simp only [refusal, hi, OptionError.message, Setting.shown?_ofValue]
          exact withShown_ite name "be an integer" v.shown v.isShowable
      | some i =>
          simp only [refusal, hi, OptionError.message,
            Setting.shownInteger?_eq (Setting.integer?_ofValue.mp hi)]
          exact withShown_ite name "not be negative" (Decimal.ofInt i) v.isShowable

/-- Fields that do not all fit have a first one that does not. -/
theorem exists_first_misfit {fields : List (String × Value)}
    (h : ¬ ∀ f ∈ fields, ∀ key, ¬ Misfits key f) :
    ∃ before name v after key, fields = before ++ (name, v) :: after ∧
      (∀ f ∈ before, ∀ key, ¬ Misfits key f) ∧ Misfits key (name, v) := by
  induction fields with
  | nil => simp at h
  | cons f rest ih =>
      by_cases hf : ∀ key, ¬ Misfits key f
      · have hrest : ¬ ∀ f ∈ rest, ∀ key, ¬ Misfits key f := fun hall =>
          h (List.forall_mem_cons.mpr ⟨hf, hall⟩)
        obtain ⟨before, name, v, after, key, rfl, hbefore, hmisfit⟩ := ih hrest
        exact ⟨f :: before, name, v, after, key, rfl,
          List.forall_mem_cons.mpr ⟨hf, hbefore⟩, hmisfit⟩
      · obtain ⟨key, hkey⟩ := not_forall_not.mp hf
        exact ⟨[], f.1, f.2, rest, key, rfl, by simp, hkey⟩

/-- The first field that misfits is the one that is refused. -/
theorem ofFields_of_misfits {before after : List (String × Value)} {name : String} {v : Value}
    {key : OptionKey} (hbefore : ∀ f ∈ before, ∀ key, ¬ Misfits key f)
    (h : Misfits key (name, v)) :
    ofFields (before ++ (name, v) :: after) = .error (refusal name (Setting.ofValue v) key) := by
  obtain ⟨hname, hnull, htakes⟩ := h
  rw [ofFields, ofSettings, List.map_append, List.map_cons]
  exact takeAll_of_not_reads {} (accepts_fields_iff.mpr hbefore)
    (OptionKey.ofName?_eq_some_iff.mpr hname) (Setting.ofValue_eq_absent_iff.not.mpr hnull)
    (reads_ofValue_iff.not.mpr htakes)

/-! ### Fields that are taken in -/

/-- The last field that gives a value other than null for an option, under either name. -/
def lastField? (key : OptionKey) (fields : List (String × Value)) : Option (String × Value) :=
  (fields.filter fun f => f.1 ∈ key.names ∧ f.2 ≠ .null).getLast?

/-- An option has the value that a value stands for. -/
def Has (o : Options) : OptionKey → Value → Prop
  | .switch s, v => v.IsTruth (o.switch s)
  | .limit l, v => v.IsInteger (o.limit l)

/-- An option has its default. -/
def HasDefault (o : Options) : OptionKey → Prop
  | .switch s => o.switch s = ({} : Options).switch s
  | .limit l => o.limit l = ({} : Options).limit l

/-- Of the values that fields give, the last is that of the last field. -/
theorem getLast?_filterMap_eq {α : Type} {given? : String × Value → Option α} {key : OptionKey}
    {fields : List (String × Value)}
    (h : ∀ f ∈ fields, (given? f).isSome ↔ f.1 ∈ key.names ∧ f.2 ≠ .null) :
    (fields.filterMap given?).getLast? = (lastField? key fields).bind given? := by
  -- from the end of the list, where the last field stands
  induction fields using List.reverseRecOn with
  | nil => rfl
  | append_singleton fields f ih =>
      have hinit := ih fun f' hf' => h f' (List.mem_append_left _ hf')
      have hlast := h f (by simp)
      rw [lastField?, List.filterMap_append, List.filter_append]
      cases hf : given? f with
      | none =>
          have : ¬ (f.1 ∈ key.names ∧ f.2 ≠ .null) := by simpa [hf] using hlast
          rw [List.filter_singleton, List.filterMap_cons_none hf]
          simpa [this, lastField?] using hinit
      | some x =>
          have : f.1 ∈ key.names ∧ f.2 ≠ .null := by simpa [hf] using hlast
          simp [this, hf]

section Given

variable {α : Type} {given? : String × Value → Option α} {Stands : Value → α → Prop}
  {key : OptionKey}

/-- If fields fit, then those that give something for an option are those that name it and hold
anything. -/
theorem isSome_given_iff (hgiven : ∀ f x, given? f = some x ↔ f.1 ∈ key.names ∧ Stands f.2 x)
    (hnull : ∀ x, ¬ Stands .null x) (htakes : ∀ v, key.Takes v → ∃ x, Stands v x)
    {f : String × Value} (h : ¬ Misfits key f) :
    (given? f).isSome ↔ f.1 ∈ key.names ∧ f.2 ≠ .null := by
  simp only [Option.isSome_iff_exists, hgiven]
  constructor
  · rintro ⟨x, hname, hx⟩
    exact ⟨hname, fun hv => hnull x (hv ▸ hx)⟩
  · rintro ⟨hname, hv⟩
    obtain ⟨x, hx⟩ := htakes f.2 (by_contra fun hnot => h ⟨hname, hv, hnot⟩)
    exact ⟨x, hname, hx⟩

/-- What is given last is what the last field for the option stands for. -/
theorem stands_of_lastField? (hgiven : ∀ f x, given? f = some x ↔ f.1 ∈ key.names ∧ Stands f.2 x)
    (hnull : ∀ x, ¬ Stands .null x) (htakes : ∀ v, key.Takes v → ∃ x, Stands v x)
    {fields : List (String × Value)} (h : ∀ f ∈ fields, ¬ Misfits key f) {x default : α}
    (hx : x = ((fields.filterMap given?).getLast?).getD default) :
    match lastField? key fields with
    | some f => Stands f.2 x
    | none => x = default := by
  rw [getLast?_filterMap_eq fun f hf => isSome_given_iff hgiven hnull htakes (h f hf)] at hx
  cases hlast : lastField? key fields with
  | none => simpa [hlast] using hx
  | some f =>
      have hmem : f ∈ fields.filter fun f => f.1 ∈ key.names ∧ f.2 ≠ .null :=
        List.mem_of_getLast? hlast
      rw [List.mem_filter, decide_eq_true_eq] at hmem
      obtain ⟨y, hy⟩ := Option.isSome_iff_exists.mp
        ((isSome_given_iff hgiven hnull htakes (h f hmem.1)).mpr hmem.2)
      have : x = y := by simpa [hlast, hy] using hx
      exact this ▸ ((hgiven f y).mp hy).2

end Given

/-- Fields that all fit leave each option with the last value given for it, or its default. -/
theorem ofFields_of_fits {fields : List (String × Value)}
    (h : ∀ f ∈ fields, ∀ key, ¬ Misfits key f) :
    ∃ o, ofFields fields = .ok o ∧ o.Nonnegative ∧ ∀ key,
      match lastField? key fields with
      | some f => o.Has key f.2
      | none => o.HasDefault key := by
  obtain ⟨o, hok, hupdates⟩ := takeAll_of_accepts {} (accepts_fields_iff.mpr h)
  have hfields : ofFields fields = .ok o := hok
  refine ⟨o, hfields, Nonnegative.ofFields hfields, fun key => ?_⟩
  have hfits : ∀ f ∈ fields, ¬ Misfits key f := fun f hf => h f hf key
  cases key with
  | switch s =>
      have hgiven : ∀ (f : String × Value) b, switchGiven? s (f.1, Setting.ofValue f.2) = some b ↔
          f.1 ∈ (OptionKey.switch s).names ∧ f.2.IsTruth b := by
        simp only [switchGiven?, Option.ite_none_right_eq_some, OptionKey.ofName?_eq_some_iff,
          Setting.truth?_ofValue, implies_true]
      have hs := hupdates.switch s
      rw [List.filterMap_map] at hs
      exact stands_of_lastField? hgiven (by simp [Value.IsTruth]) (fun _ htakes => htakes) hfits hs
  | limit l =>
      have hgiven : ∀ (f : String × Value) i, limitGiven? l (f.1, Setting.ofValue f.2) = some i ↔
          f.1 ∈ (OptionKey.limit l).names ∧ f.2.IsInteger i := by
        simp only [limitGiven?, Option.ite_none_right_eq_some, OptionKey.ofName?_eq_some_iff,
          Setting.integer?_ofValue, implies_true]
      have hl := hupdates.limit l
      rw [List.filterMap_map] at hl
      exact stands_of_lastField? hgiven (by simp [Value.IsInteger])
        (fun _ htakes => htakes.imp fun _ hi => hi.1) hfits hl

/-- A field that gives nothing for any option changes nothing, wherever it stands. -/
theorem ofFields_insert (before after : List (String × Value)) {name : String} {v : Value}
    (h : (∀ key : OptionKey, name ∉ key.names) ∨ v = .null) :
    ofFields (before ++ (name, v) :: after) = ofFields (before ++ after) := by
  have hidle : Idle (name, Setting.ofValue v) := by
    refine h.imp (fun hunknown => ?_) Setting.ofValue_eq_absent_iff.mpr
    exact Option.eq_none_iff_forall_ne_some.mpr fun key hkey =>
      hunknown key (OptionKey.ofName?_eq_some_iff.mp hkey)
  simp only [ofFields, ofSettings, List.map_append, List.map_cons, takeAll_append]
  refine congrArg _ (funext fun o => ?_)
  rw [takeAll, take_of_idle o hidle]
  rfl

/-! ### What comes of fields -/

/-- What comes of fields. An error is that of the first field that does not fit, and its message
begins with the name of that field if the value can be shown. Without one, an option has the last
value that is given for it, or its default. -/
def Outcome (fields : List (String × Value)) : Except OptionError Options → Prop
  | .error e => ∃ before name v after key, fields = before ++ (name, v) :: after ∧
      (∀ f ∈ before, ∀ key, ¬ Misfits key f) ∧ Misfits key (name, v) ∧
      e = refusal name (Setting.ofValue v) key ∧
      (v.isShowable = true → ∃ rest, e.message = name ++ (" must " ++ rest)) ∧
      (v.isShowable = false → e.message = Decimal.unshowableMessage)
  | .ok o => o.Nonnegative ∧ ∀ key,
      match lastField? key fields with
      | some f => o.Has key f.2
      | none => o.HasDefault key

/-- **Fields are refused for the first one that does not fit, or the last ones count.** They are
refused exactly if some field gives an option a value that it cannot take, and then for the first
such field. What comes of them does not depend on fields with other names or on null values,
wherever these stand. -/
theorem ofFields_outcome (fields : List (String × Value)) :
    ((∃ e, ofFields fields = .error e) ↔ ∃ f ∈ fields, ∃ key, Misfits key f) ∧
      Outcome fields (ofFields fields) ∧
      ∀ before name v after, fields = before ++ (name, v) :: after →
        (∀ key : OptionKey, name ∉ key.names) ∨ v = .null →
        ofFields fields = ofFields (before ++ after) := by
  refine ⟨?_, ?_, ?_⟩
  · constructor
    · rintro ⟨e, he⟩
      by_contra hnone
      obtain ⟨o, ho, -⟩ := ofFields_of_fits fun f hf key hmisfit => hnone ⟨f, hf, key, hmisfit⟩
      cases he.symm.trans ho
    · rintro ⟨f, hf, key, hmisfit⟩
      obtain ⟨before, name, v, after, key, rfl, hbefore, hfirst⟩ :=
        exists_first_misfit fun hall => hall f hf key hmisfit
      exact ⟨_, ofFields_of_misfits hbefore hfirst⟩
  · by_cases hall : ∀ f ∈ fields, ∀ key, ¬ Misfits key f
    · obtain ⟨o, ho, hvalues⟩ := ofFields_of_fits hall
      rw [ho]
      exact hvalues
    · obtain ⟨before, name, v, after, key, rfl, hbefore, hfirst⟩ := exists_first_misfit hall
      rw [ofFields_of_misfits hbefore hfirst]
      exact ⟨before, name, v, after, key, rfl, hbefore, hfirst, rfl, message_refusal key name v⟩
  · rintro before name v after rfl h
    exact ofFields_insert before after h

/-- A depth that cannot be read is refused, though a later field would have replaced it. -/
theorem ofFields_outcome_of_two_spellings :
    (∃ e, ofFields [("max_depth", .str "deep"), ("theme", .null), ("maxDepth", .int 7)] =
      .error e) ∧
      ofFields [("max_depth", .str "deep"), ("theme", .null), ("maxDepth", .int 7)] =
        ofFields [("max_depth", .str "deep"), ("maxDepth", .int 7)] := by
  constructor
  · refine (ofFields_outcome _).1.mpr ⟨("max_depth", .str "deep"), by simp, .limit .depth, ?_⟩
    refine ⟨by decide, by simp, ?_⟩
    rintro ⟨i, hint | ⟨s, hs, hread⟩, -⟩
    · cases hint
    · cases hs
      have hnone : Decimal.readInt? (Text.strip "deep".toList) = none := by decide
      rw [hnone] at hread
      cases hread
  · exact (ofFields_outcome _).2.2 [("max_depth", .str "deep")] "theme" .null [("maxDepth", .int 7)]
      rfl (.inr rfl)

theorem not_mem_unshowableMessage : 'k' ∉ Decimal.unshowableMessage.toList := by
  have hdigits : 'k' ∉ (Decimal.ofNat Decimal.maxDigits).toList := fun hmem => by
    rw [Decimal.ofNat, String.toList_ofList] at hmem
    exact absurd (Decimal.isDigit_of_mem_digits hmem) (by decide)
  unfold Decimal.unshowableMessage Decimal.limitMessage
  generalize Decimal.ofNat Decimal.maxDigits = shown at hdigits ⊢
  simp [hdigits]

/-- An integer is not a truth value; where it is too long, the message says only that. -/
theorem ofFields_unshowable (s : Switch) {i : Int} (hi : Decimal.isShowable i = false) :
    ∃ e, ofFields [(s.name, .int i)] = .error e ∧ e.message = Decimal.unshowableMessage := by
  have hmisfit : Misfits (.switch s) (s.name, .int i) :=
    ⟨by simp [OptionKey.names], by simp, by simp [OptionKey.Takes, Value.IsTruth]⟩
  exact ⟨_, ofFields_of_misfits (List.forall_mem_nil _) hmisfit,
    (message_refusal (.switch s) s.name (.int i)).2 hi⟩

/-- The message does not name the field that is refused if its value is too long. -/
theorem not_forall_message_names_field :
    ¬ ∀ fields e, ofFields fields = .error e →
      ∃ f ∈ fields, (∃ key, Misfits key f) ∧ f.1.toList <:+: e.message.toList := by
  intro h
  -- only that the power is too long is used, so that it is never computed
  obtain ⟨i, hi⟩ : ∃ i : Int, Decimal.isShowable i = false :=
    ⟨_, Decimal.isShowable_pow Decimal.maxDigits (Nat.le_refl _)⟩
  obtain ⟨e, he, hmessage⟩ := ofFields_unshowable .deadCode hi
  obtain ⟨f, hf, -, hnamed⟩ := h _ e he
  rw [List.mem_singleton.mp hf, hmessage] at hnamed
  have hk : 'k' ∈ Switch.deadCode.name.toList := by decide
  exact not_mem_unshowableMessage (hnamed.mem hk)

end Options
end PlotGraph
