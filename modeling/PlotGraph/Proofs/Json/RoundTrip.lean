import PlotGraph.Json.Reader
import PlotGraph.Json.Writer
import PlotGraph.Proofs.Mapping

/-!
# Documents that are read back

A value that is written on several lines can be read again, if it holds no numbers and none of its
objects names a field twice (`parse_pretty`). Every reader takes exactly the characters that were
written for what it reads, whatever follows them (`Reads`).
-/

namespace PlotGraph.Json

/-! ### Readers -/

/-- A reader has read something, and this is what follows it. -/
def Reads {α : Type} {cs : List Char} (result : Except Fault (α × Rest cs)) (a : α)
    (rest : List Char) : Prop :=
  ∃ h : rest.length < cs.length, result = .ok (a, ⟨rest, h⟩)

theorem skipBlank_of_not_blank {c : Char} (h : isBlank c = false) (cs : List Char) :
    skipBlank (c :: cs) = c :: cs :=
  List.dropWhile_cons_of_neg (by simp [h])

/-- A new line and its indentation are skipped. -/
theorem skipBlank_newLine (level : Nat) (cs : List Char) :
    skipBlank ((newLine level).toList ++ cs) = skipBlank cs := by
  have hblank : ∀ c ∈ (newLine level).toList, isBlank c = true := by
    intro c hc
    rw [newLine, String.toList_ofList, List.mem_cons] at hc
    rcases hc with rfl | hc
    · rfl
    · rw [List.eq_of_mem_replicate hc]
      rfl
  exact List.dropWhile_append_of_pos hblank

/-! ### Strings -/

/-- A hexadecimal digit is read as its value. -/
theorem hexValue?_hexDigit {d : Nat} (h : d < 16) : hexValue? (Text.hexDigit d) = some d := by
  have hall : ∀ d < 16, hexValue? (Text.hexDigit d) = some d := by decide
  exact hall d h

/-- Four hexadecimal digits are read back, with what stands behind them. -/
theorem codeUnit?_hex {n : Nat} (h : n < 0x10000) (c : Char) (cs : List Char) :
    ∃ hlt, codeUnit? (Text.hex 4 n ++ c :: cs) = some (n, ⟨c :: cs, hlt⟩) := by
  refine ⟨by simp [Text.hex], ?_⟩
  simp only [Text.hex, List.nil_append, List.cons_append, codeUnit?,
    hexValue?_hexDigit (Nat.mod_lt _ (show 0 < 16 by decide)), Option.bind_eq_bind,
    Option.bind_some]
  congr 3
  omega

section Characters

variable {opening after body rest : List Char}

/-- A letter behind a backslash is read as the character that it stands for. -/
theorem reads_escape {letter c : Char} (hletter : letter ≠ 'u')
    (hc : letterEscape? letter = some c) (h : Reads (stringBody opening after) body rest) :
    Reads (stringBody opening ('\\' :: letter :: after)) (c :: body) rest := by
  obtain ⟨hlt, hbody⟩ := h
  refine ⟨by simp only [List.length_cons]; omega, ?_⟩
  rw [stringBody]
  · simp only [hc, hbody]
    rfl
  · exact hletter

/-- A control character is read back from its code. -/
theorem reads_codeEscape {c : Char} (hc : c.toNat < 0x20)
    (h : Reads (stringBody opening after) body rest) :
    Reads (stringBody opening (codeEscape c ++ after)) (c :: body) rest := by
  obtain ⟨hlt, hbody⟩ := h
  have hcode : codeEscape c = '\\' :: 'u' :: Text.hex 4 c.toNat := by
    have hown : Text.codeOf c = c.toNat :=
      if_neg (Nat.not_le.mpr (Nat.lt_trans hc (by decide)))
    rw [codeEscape, hown, if_pos (Nat.lt_trans hc (by decide))]
    rfl
  have hchar : Text.charOfCode c.toNat = c := by
    have hhalf : Text.isHalf c.toNat = false := by
      simp only [Text.isHalf, Bool.and_eq_false_iff, decide_eq_false_iff_not]
      omega
    rw [Text.charOfCode, hhalf, if_neg Bool.false_ne_true, Char.ofNat_toNat]
  -- the digits do not end the document, since what follows has been read
  cases after with
  | nil => cases hlt
  | cons d cs =>
    obtain ⟨hlt', hunit⟩ := codeUnit?_hex (Nat.lt_trans hc (by decide)) d cs
    have hescape : codeEscape? (Text.hex 4 c.toNat ++ d :: cs) = some (c, ⟨d :: cs, hlt'⟩) := by
      have hhigh : ¬ (0xD800 ≤ c.toNat ∧ c.toNat ≤ 0xDBFF) := by omega
      simp [codeEscape?, hunit, hhigh, hchar]
    rw [hcode]
    show Reads (stringBody opening ('\\' :: 'u' :: (Text.hex 4 c.toNat ++ d :: cs))) _ _
    refine ⟨by simp only [List.length_cons]; omega, ?_⟩
    rw [stringBody]
    simp only [hescape, hbody]
    rfl

/-- An escape letter stands for the character that has it. -/
theorem letterEscape?_of_escapeLetter? {c letter : Char} (h : escapeLetter? c = some letter) :
    letter ≠ 'u' ∧ letterEscape? letter = some c := by
  unfold escapeLetter? at h
  split at h <;> cases h <;> decide

/-- Every character of a string is read back, however it is written. -/
theorem reads_stringChar (c : Char) (h : Reads (stringBody opening after) body rest) :
    Reads (stringBody opening (stringChar false c ++ after)) (c :: body) rest := by
  cases hletter : escapeLetter? c with
  | some letter =>
    have hchar : stringChar false c = ['\\', letter] := by simp [stringChar, hletter]
    obtain ⟨hu, hc⟩ := letterEscape?_of_escapeLetter? hletter
    rw [hchar]
    exact reads_escape hu hc h
  | none =>
    by_cases hc : c.toNat < 0x20
    · have hchar : stringChar false c = codeEscape c := by simp [stringChar, hletter, hc]
      rw [hchar]
      exact reads_codeEscape hc h
    · have hchar : stringChar false c = [c] := by simp [stringChar, hletter, hc]
      -- neither a quote nor a backslash stands for itself
      have hquote : c ≠ '"' := by
        rintro rfl
        cases hletter
      have hbackslash : c ≠ '\\' := by
        rintro rfl
        cases hletter
      obtain ⟨hlt, hbody⟩ := h
      rw [hchar]
      refine ⟨Nat.lt_succ_of_lt hlt, ?_⟩
      show stringBody opening (c :: after) = _
      rw [stringBody]
      · simp only [hbody, if_neg hc]
        rfl
      all_goals simp [hquote, hbackslash]

/-- The characters of a string are read back one after the other. -/
theorem reads_stringBody (cs : List Char) :
    Reads (stringBody opening (cs.flatMap (stringChar false) ++ '"' :: rest)) cs rest := by
  induction cs with
  | nil =>
    refine ⟨Nat.lt_succ_self _, ?_⟩
    show stringBody opening ('"' :: rest) = _
    rw [stringBody]
  | cons c cs ih =>
    rw [List.flatMap_cons, List.append_assoc]
    exact reads_stringChar c ih

end Characters

theorem toList_quote (s : String) (rest : List Char) :
    (quote false s).toList ++ rest = '"' :: (s.toList.flatMap (stringChar false) ++ '"' :: rest) := by
  simp [quote]

/-- A string is read back when its opening quote has been read. -/
theorem reads_string (s : String) (rest : List Char) :
    Reads (string (s.toList.flatMap (stringChar false) ++ '"' :: rest)) s rest := by
  have hreads : Reads (stringBody ('"' :: (s.toList.flatMap (stringChar false) ++ '"' :: rest))
      (s.toList.flatMap (stringChar false) ++ '"' :: rest)) s.toList rest :=
    reads_stringBody s.toList
  obtain ⟨hlt, hbody⟩ := hreads
  refine ⟨hlt, ?_⟩
  rw [string, hbody]
  show Except.ok (String.ofList s.toList, _) = _
  rw [String.ofList_toList]

/-! ### Values -/

section Values

variable {cs after rest : List Char} {v : Value} {vs : List Value} {name : String}
  {fs : List (String × Value)}

/-- The last item of a list has a bracket behind it. -/
theorem reads_items_last (hv : Reads (value cs) v after)
    (hafter : skipBlank after = ']' :: rest) : Reads (items cs) [v] rest := by
  obtain ⟨hlt, hvalue⟩ := hv
  refine ⟨Nat.lt_trans (length_lt_of_skipBlank hafter) hlt, ?_⟩
  rw [items, hvalue]
  simp only [bind, Except.bind]
  split
  · next h =>
    cases hafter.symm.trans h
    rfl
  · next h => cases hafter.symm.trans h
  · next hend _ => exact (hend rest hafter).elim

/-- Behind any other one a comma leads on to the next. -/
theorem reads_items_comma {more : List Char} (hv : Reads (value cs) v after)
    (hafter : skipBlank after = ',' :: more) (hvs : Reads (items (skipBlank more)) vs rest) :
    Reads (items cs) (v :: vs) rest := by
  obtain ⟨hlt, hvalue⟩ := hv
  obtain ⟨hlt', hitems⟩ := hvs
  have hmore := length_lt_of_skipBlank hafter
  have hskip := length_skipBlank_le more
  refine ⟨by omega, ?_⟩
  rw [items, hvalue]
  simp only [bind, Except.bind]
  split
  · next h => cases hafter.symm.trans h
  · next h =>
    cases hafter.symm.trans h
    rw [hitems]
    rfl
  · next hcomma => exact (hcomma more hafter).elim

theorem reads_arr_nil : Reads (value ('[' :: ']' :: rest)) (.arr []) rest := by
  refine ⟨by simp only [List.length_cons]; omega, ?_⟩
  rw [value]
  rfl

/-- No item starts with a bracket. -/
theorem not_reads_items_bracket {r : List Char} : ¬ Reads (items (']' :: r)) vs rest := by
  rintro ⟨hlt, hitems⟩
  have hvalue : value (']' :: r) = .error (.malformed .value (r.length + 1)) := by
    rw [value]
    · rfl
    all_goals simp
  rw [items, hvalue] at hitems
  cases hitems

/-- A list that is not empty is read item by item. -/
theorem reads_arr (hvs : Reads (items (skipBlank cs)) vs rest) :
    Reads (value ('[' :: cs)) (.arr vs) rest := by
  have hstart : ∀ r, skipBlank cs ≠ ']' :: r := fun r h =>
    not_reads_items_bracket (h ▸ hvs)
  obtain ⟨hlt, hitems⟩ := hvs
  have hskip := length_skipBlank_le cs
  refine ⟨by simp only [List.length_cons]; omega, ?_⟩
  rw [value]
  split
  · next r h => exact absurd h (hstart r)
  · rw [hitems]
    rfl

/-! ### Fields -/

/-- The last field of an object has a brace behind it. -/
theorem reads_fields_last {text behind : List Char} (hname : Reads (string text) name cs)
    (hcolon : skipBlank cs = ':' :: behind) (hv : Reads (value (skipBlank behind)) v after)
    (hafter : skipBlank after = '}' :: rest) :
    Reads (fields ('"' :: text)) [(name, v)] rest := by
  obtain ⟨hlt, hstring⟩ := hname
  obtain ⟨hlt', hvalue⟩ := hv
  have hbehind := length_lt_of_skipBlank hcolon
  have hskip := length_skipBlank_le behind
  have hrest := length_lt_of_skipBlank hafter
  refine ⟨by simp only [List.length_cons]; omega, ?_⟩
  rw [fields, hstring]
  simp only [bind, Except.bind]
  split
  · next h =>
    cases hcolon.symm.trans h
    rw [hvalue]
    simp only
    split
    · next h =>
      cases hafter.symm.trans h
      rfl
    · next h => cases hafter.symm.trans h
    · next hend _ => exact (hend rest hafter).elim
  · next hnone => exact (hnone behind hcolon).elim

/-- Behind any other one a comma leads on to the next. -/
theorem reads_fields_comma {text behind more : List Char} (hname : Reads (string text) name cs)
    (hcolon : skipBlank cs = ':' :: behind) (hv : Reads (value (skipBlank behind)) v after)
    (hafter : skipBlank after = ',' :: more) (hfs : Reads (fields (skipBlank more)) fs rest) :
    Reads (fields ('"' :: text)) ((name, v) :: fs) rest := by
  obtain ⟨hlt, hstring⟩ := hname
  obtain ⟨hlt', hvalue⟩ := hv
  obtain ⟨hlt'', hfields⟩ := hfs
  have hbehind := length_lt_of_skipBlank hcolon
  have hskip := length_skipBlank_le behind
  have hmore := length_lt_of_skipBlank hafter
  have hskip' := length_skipBlank_le more
  refine ⟨by simp only [List.length_cons]; omega, ?_⟩
  rw [fields, hstring]
  simp only [bind, Except.bind]
  split
  · next h =>
    cases hcolon.symm.trans h
    rw [hvalue]
    simp only
    split
    · next h => cases hafter.symm.trans h
    · next h =>
      cases hafter.symm.trans h
      rw [hfields]
      rfl
    · next hcomma => exact (hcomma more hafter).elim
  · next hnone => exact (hnone behind hcolon).elim

theorem reads_obj_nil : Reads (value ('{' :: '}' :: rest)) (.obj []) rest := by
  refine ⟨by simp only [List.length_cons]; omega, ?_⟩
  rw [value]
  rfl

/-- No name starts with a brace. -/
theorem not_reads_fields_brace {r : List Char} : ¬ Reads (fields ('}' :: r)) fs rest := by
  rintro ⟨hlt, hfields⟩
  rw [fields] at hfields
  · cases hfields
  · simp

/-- An object that is not empty is read field by field; of fields with one name the last counts. -/
theorem reads_obj (hfs : Reads (fields (skipBlank cs)) fs rest) :
    Reads (value ('{' :: cs)) (.obj (fs.foldl (fun ps f => Pairs.put f.1 f.2 ps) [])) rest := by
  have hstart : ∀ r, skipBlank cs ≠ '}' :: r := fun r h =>
    not_reads_fields_brace (h ▸ hfs)
  obtain ⟨hlt, hfields⟩ := hfs
  have hskip := length_skipBlank_le cs
  refine ⟨by simp only [List.length_cons]; omega, ?_⟩
  rw [value]
  split
  · next r h => exact absurd h (hstart r)
  · rw [hfields]
    rfl

/-! ### Scalars -/

/-- What begins with neither bracket nor brace is read as a scalar. -/
theorem reads_scalar {c : Char} (hlist : c ≠ '[') (hobject : c ≠ '{')
    (h : Reads (scalar (c :: cs)) v rest) : Reads (value (c :: cs)) v rest := by
  obtain ⟨hlt, hscalar⟩ := h
  refine ⟨hlt, ?_⟩
  rw [value]
  · exact hscalar
  · simp [hlist]
  · simp [hobject]

theorem reads_null : Reads (value ('n' :: 'u' :: 'l' :: 'l' :: rest)) .null rest :=
  reads_scalar (by decide) (by decide) ⟨by simp only [List.length_cons]; omega, rfl⟩

theorem reads_true : Reads (value ('t' :: 'r' :: 'u' :: 'e' :: rest)) (.bool true) rest :=
  reads_scalar (by decide) (by decide) ⟨by simp only [List.length_cons]; omega, rfl⟩

theorem reads_false : Reads (value ('f' :: 'a' :: 'l' :: 's' :: 'e' :: rest)) (.bool false) rest :=
  reads_scalar (by decide) (by decide) ⟨by simp only [List.length_cons]; omega, rfl⟩

/-- A string is read back. -/
theorem reads_str (s : String) : Reads (value ((quote false s).toList ++ rest)) (.str s) rest := by
  obtain ⟨hlt, hstring⟩ := reads_string s rest
  rw [toList_quote]
  refine reads_scalar (by decide) (by decide) ⟨Nat.lt_succ_of_lt hlt, ?_⟩
  show (string _ >>= _) = _
  rw [hstring]
  rfl

end Values

/-! ### What is written -/

/-- A value without numbers, whose objects name each of their fields once. -/
inductive Wordy : Value → Prop
  | null : Wordy .null
  | bool (b : Bool) : Wordy (.bool b)
  | str (s : String) : Wordy (.str s)
  | arr {vs : List Value} : (∀ v ∈ vs, Wordy v) → Wordy (.arr vs)
  | obj {fs : List (String × Value)} : (fs.map Prod.fst).Nodup → (∀ f ∈ fs, Wordy f.2) →
      Wordy (.obj fs)

/-- A text starts with what is neither blank nor a byte order mark. -/
def Begins (text : List Char) : Prop :=
  ∃ c cs, text = c :: cs ∧ isBlank c = false ∧ c ≠ byteOrderMark

/-- Nothing is skipped before a text that begins with a character of its own. -/
theorem Begins.skipBlank_append {text : List Char} (h : Begins text) (rest : List Char) :
    skipBlank (text ++ rest) = text ++ rest := by
  obtain ⟨c, cs, rfl, hc, -⟩ := h
  exact skipBlank_of_not_blank hc (cs ++ rest)

/-- A value that is written begins with a character of its own. -/
theorem begins_prettyAt {v : Value} (h : Wordy v) (level : Nat) :
    Begins (prettyAt level v).toList := by
  cases h with
  | null => exact ⟨'n', ['u', 'l', 'l'], by simp [prettyAt, scalarText], rfl, by decide⟩
  | bool b =>
    cases b with
    | true => exact ⟨'t', ['r', 'u', 'e'], by simp [prettyAt, scalarText], rfl, by decide⟩
    | false => exact ⟨'f', ['a', 'l', 's', 'e'], by simp [prettyAt, scalarText], rfl, by decide⟩
  | str s => exact ⟨'"', _, by simp [prettyAt, scalarText, quote]; rfl, rfl, by decide⟩
  | @arr vs _ =>
    cases vs with
    | nil => exact ⟨'[', [']'], by simp [prettyAt], rfl, by decide⟩
    | cons v rest => exact ⟨'[', _, by simp [prettyAt]; rfl, rfl, by decide⟩
  | @obj fs _ _ =>
    cases fs with
    | nil => exact ⟨'{', ['}'], by simp [prettyAt], rfl, by decide⟩
    | cons f rest => exact ⟨'{', _, by simp [prettyAt]; rfl, rfl, by decide⟩

/-- What is written for a value is read back, and what follows it is left. -/
def ReadBack (v : Value) : Prop :=
  ∀ level rest, Reads (value ((prettyAt level v).toList ++ rest)) v rest

section Written

variable {level : Nat} {after rest : List Char}

/-- The items of a list are read back if each of them is. -/
theorem reads_prettyItems {vs : List Value} (hne : vs ≠ [])
    (hwordy : ∀ v ∈ vs, Wordy v) (hread : ∀ v ∈ vs, ReadBack v)
    (hafter : skipBlank after = ']' :: rest) :
    Reads (items (skipBlank ((prettyItems level vs).toList ++ after))) vs rest := by
  induction vs with
  | nil => exact absurd rfl hne
  | cons v more ih =>
    obtain ⟨hv, hmore⟩ := List.forall_mem_cons.mp hwordy
    obtain ⟨hreadv, hreadmore⟩ := List.forall_mem_cons.mp hread
    cases more with
    | nil =>
      rw [prettyItems, String.toList_append, List.append_assoc, skipBlank_newLine,
        (begins_prettyAt hv level).skipBlank_append]
      exact reads_items_last (hreadv level after) hafter
    | cons w more =>
      rw [prettyItems, String.toList_append, String.toList_append, String.toList_append,
        List.append_assoc, List.append_assoc, List.append_assoc, skipBlank_newLine,
        (begins_prettyAt hv level).skipBlank_append]
      exact reads_items_comma (hreadv level _) (skipBlank_of_not_blank rfl _)
        (ih (List.cons_ne_nil _ _) hmore hreadmore)

/-- The fields of an object are read back if the value of each is. -/
theorem reads_prettyFields {fs : List (String × Value)} (hne : fs ≠ [])
    (hwordy : ∀ f ∈ fs, Wordy f.2) (hread : ∀ f ∈ fs, ReadBack f.2)
    (hafter : skipBlank after = '}' :: rest) :
    Reads (fields (skipBlank ((prettyFields level fs).toList ++ after))) fs rest := by
  induction fs with
  | nil => exact absurd rfl hne
  | cons f more ih =>
    obtain ⟨name, v⟩ := f
    obtain ⟨hv, hmore⟩ := List.forall_mem_cons.mp hwordy
    obtain ⟨hreadv, hreadmore⟩ := List.forall_mem_cons.mp hread
    have hbehind : ∀ more, skipBlank (' ' :: ((prettyAt level v).toList ++ more)) =
        (prettyAt level v).toList ++ more :=
      fun more => (begins_prettyAt hv level).skipBlank_append more
    have hvalue : ∀ more, Reads (value (skipBlank (' ' :: ((prettyAt level v).toList ++ more)))) v
        more := fun more => by
      rw [hbehind more]
      exact hreadv level more
    cases more with
    | nil =>
      have htext : (prettyFields level [(name, v)]).toList ++ after = (newLine level).toList ++
          '"' :: (name.toList.flatMap (stringChar false) ++ '"' ::
            (':' :: ' ' :: ((prettyAt level v).toList ++ after))) := by
        simp [prettyFields, quote]
      rw [htext, skipBlank_newLine, skipBlank_of_not_blank rfl]
      exact reads_fields_last (reads_string name _) (skipBlank_of_not_blank rfl _) (hvalue after)
        hafter
    | cons w more =>
      have htext : (prettyFields level ((name, v) :: w :: more)).toList ++ after =
          (newLine level).toList ++ '"' :: (name.toList.flatMap (stringChar false) ++ '"' ::
            (':' :: ' ' :: ((prettyAt level v).toList ++
              ',' :: ((prettyFields level (w :: more)).toList ++ after)))) := by
        simp [prettyFields, quote]
      rw [htext, skipBlank_newLine, skipBlank_of_not_blank rfl]
      exact reads_fields_comma (reads_string name _) (skipBlank_of_not_blank rfl _) (hvalue _)
        (skipBlank_of_not_blank rfl _) (ih (List.cons_ne_nil _ _) hmore hreadmore)

/-- The closing character of a list or an object is next where the line for it starts. -/
theorem skipBlank_closing {c : Char} (hc : isBlank c = false) :
    skipBlank ((newLine level).toList ++ c :: rest) = c :: rest := by
  rw [skipBlank_newLine, skipBlank_of_not_blank hc]

end Written

/-- A list is read back if its items are. -/
theorem readBack_arr {vs : List Value} (hwordy : ∀ v ∈ vs, Wordy v)
    (hread : ∀ v ∈ vs, ReadBack v) : ReadBack (.arr vs) := by
  intro level rest
  cases vs with
  | nil =>
    have htext : (prettyAt level (.arr [])).toList ++ rest = '[' :: ']' :: rest := by
      simp [prettyAt]
    rw [htext]
    exact reads_arr_nil
  | cons v more =>
    have htext : (prettyAt level (.arr (v :: more))).toList ++ rest =
        '[' :: ((prettyItems (level + 1) (v :: more)).toList ++
          ((newLine level).toList ++ ']' :: rest)) := by simp [prettyAt]
    rw [htext]
    apply reads_arr
    exact reads_prettyItems (List.cons_ne_nil v more) hwordy hread (skipBlank_closing rfl)

/-- An object that names each of its fields once is read back if their values are. -/
theorem readBack_obj {fs : List (String × Value)} (hnodup : (fs.map Prod.fst).Nodup)
    (hwordy : ∀ f ∈ fs, Wordy f.2) (hread : ∀ f ∈ fs, ReadBack f.2) : ReadBack (.obj fs) := by
  intro level rest
  cases fs with
  | nil =>
    have htext : (prettyAt level (.obj [])).toList ++ rest = '{' :: '}' :: rest := by
      simp [prettyAt]
    rw [htext]
    exact reads_obj_nil
  | cons f more =>
    have htext : (prettyAt level (.obj (f :: more))).toList ++ rest =
        '{' :: ((prettyFields (level + 1) (f :: more)).toList ++
          ((newLine level).toList ++ '}' :: rest)) := by simp [prettyAt]
    have hend : skipBlank ((newLine level).toList ++ '}' :: rest) = '}' :: rest :=
      skipBlank_closing rfl
    have hobj := reads_obj
      (@reads_prettyFields (level + 1) _ _ _ (List.cons_ne_nil f more) hwordy hread hend)
    -- the fields that were read are put together as they were written
    rw [Pairs.foldl_put_of_nodup hnodup, List.nil_append] at hobj
    rw [htext]
    exact hobj

/-- A value without numbers, in which no field is named twice, is read back. -/
theorem readBack_of_wordy {v : Value} (h : Wordy v) : ReadBack v := by
  induction h with
  | null =>
    intro level rest
    have htext : (prettyAt level .null).toList ++ rest = 'n' :: 'u' :: 'l' :: 'l' :: rest := by
      simp [prettyAt, scalarText]
    rw [htext]
    exact reads_null
  | bool b =>
    intro level rest
    cases b with
    | true =>
      have htext : (prettyAt level (.bool true)).toList ++ rest =
          't' :: 'r' :: 'u' :: 'e' :: rest := by simp [prettyAt, scalarText]
      rw [htext]
      exact reads_true
    | false =>
      have htext : (prettyAt level (.bool false)).toList ++ rest =
          'f' :: 'a' :: 'l' :: 's' :: 'e' :: rest := by simp [prettyAt, scalarText]
      rw [htext]
      exact reads_false
  | str s => exact fun level rest => reads_str s
  | arr hwordy ih => exact readBack_arr hwordy ih
  | obj hnodup hwordy ih => exact readBack_obj hnodup hwordy ih

/-- A document is a value with nothing but white space behind it. -/
theorem document_of_reads {text rest : List Char} {v : Value} (hbegins : Begins text)
    (hv : Reads (value text) v rest) (hrest : skipBlank rest = []) : document text = .ok v := by
  obtain ⟨c, cs, rfl, hblank, hmark⟩ := hbegins
  have hhead : ((c :: cs).head? == some byteOrderMark) = false := by simpa using hmark
  have hskip : Reads (value (skipBlank (c :: cs))) v rest := by
    rw [skipBlank_of_not_blank hblank]
    exact hv
  obtain ⟨hlt, hvalue⟩ := hskip
  rw [document, hvalue, hhead]
  simp only [Bool.false_eq_true, if_false, bind, Except.bind, hrest]
  rfl

/-- **Documents are read back.** What is written for a value without numbers, with a line break
behind it, is a document that holds this value. -/
theorem parse_pretty {v : Value} (h : Wordy v) : parse (pretty v ++ "\n").toList = .ok v := by
  have htext : (pretty v ++ "\n").toList = (prettyAt 0 v).toList ++ ['\n'] := by simp [pretty]
  have hbegins : Begins ((prettyAt 0 v).toList ++ ['\n']) := by
    obtain ⟨c, cs, hc, hneither⟩ := begins_prettyAt h 0
    exact ⟨c, cs ++ ['\n'], by rw [hc, List.cons_append], hneither⟩
  rw [htext, parse, document_of_reads hbegins (readBack_of_wordy h 0 ['\n']) rfl]
  rfl

example : pretty (.obj [("valid", .bool false), ("errors", .arr [.str "a\"b"]), ("info", .arr [])]) =
    "\x7b\n  \"valid\": false,\n  \"errors\": [\n    \"a\\\"b\"\n  ],\n  \"info\": []\n\x7d" := rfl

end PlotGraph.Json
