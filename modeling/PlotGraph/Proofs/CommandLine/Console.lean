import PlotGraph.CommandLine.Run
import PlotGraph.Proofs.Text.Strip
import Mathlib.Data.List.TakeWhile

/-!
# Texts on a console

A text without a bracket has no tags in it, and a console shows it (`Console.plain_of_not_mem`). A
text in a style is shown if the console knows the style (`Console.exists_plain_styled`). A tag that
closes a style in a text that opens none is at fault, whatever the console
(`Console.feedAll_closing`).
-/

namespace PlotGraph.CommandLine

/-! ### Tags -/

section Tags

variable {cs before inside after : List Char}

theorem tagAt?_eq_none (h : '[' ∉ cs) : tagAt? cs = none := by
  unfold tagAt?
  split
  · exact absurd List.mem_cons_self h
  · rfl

/-- Without a bracket there is no tag. -/
theorem firstTag?_eq_none (h : '[' ∉ cs) : firstTag? cs = none := by
  induction cs with
  | nil => rfl
  | cons c cs ih =>
    have hdrop : '[' ∉ (c :: cs).drop ((c :: cs).takeWhile (· == '\\')).length :=
      fun hmem => h (List.mem_of_mem_drop hmem)
    rw [firstTag?]
    simp only [tagAt?_eq_none hdrop, ih fun hmem => h (List.mem_cons_of_mem c hmem)]
    rfl

/-- A text without brackets is one part. -/
theorem partsOf_of_not_mem (h : '[' ∉ cs) : partsOf cs = textPart cs := by
  rw [partsOf]
  split
  · rfl
  · next site hsite =>
    rw [firstTag?_eq_none h] at hsite
    cases hsite

/-- What can stand between the brackets of a tag. -/
def IsInside (inside : List Char) : Prop :=
  (∃ c ∈ inside.head?, startsTag c = true) ∧ ∀ c ∈ inside, isBracket c = false

/-- What stands between brackets and begins as a tag does is one. -/
theorem tagAt?_bracketed (h : IsInside inside) :
    tagAt? ('[' :: (inside ++ ']' :: after)) = some (inside, after) := by
  obtain ⟨⟨c, hc, hstarts⟩, hinside⟩ := h
  cases inside with
  | nil => cases hc
  | cons d rest =>
    cases hc
    have hrest : ∀ x ∈ rest, (!isBracket x) = true := fun x hx => by
      simp [hinside x (List.mem_cons_of_mem _ hx)]
    rw [List.cons_append, tagAt?, List.dropWhile_append_of_pos hrest,
      List.takeWhile_append_of_pos hrest]
    simp [hstarts, isBracket]

/-- A tag is found behind what has neither a bracket nor a backslash. -/
theorem firstTag?_append (hbefore : ∀ c ∈ before, c ≠ '[' ∧ c ≠ '\\') (h : IsInside inside) :
    firstTag? (before ++ '[' :: (inside ++ ']' :: after)) = some ⟨before, 0, inside, after⟩ := by
  induction before with
  | nil =>
    rw [List.nil_append, firstTag?]
    simp only [List.takeWhile_cons, show ('[' == '\\') = false from rfl, Bool.false_eq_true, if_false,
      List.length_nil, List.drop_zero, tagAt?_bracketed h]
  | cons c before ih =>
    obtain ⟨⟨hbracket, hbackslash⟩, hrest⟩ := List.forall_mem_cons.mp hbefore
    have hnone : tagAt? (c :: (before ++ '[' :: (inside ++ ']' :: after))) = none := by
      unfold tagAt?
      split
      · next heq => exact absurd (List.cons.inj heq).1 hbracket
      · rfl
    rw [List.cons_append, firstTag?]
    simp only [List.takeWhile_cons, beq_eq_false_iff_ne.mpr hbackslash, Bool.false_eq_true, if_false,
      List.length_nil, List.drop_zero, hnone, ih hrest]
    rfl

/-- A tag behind a plain text is the first tag of the whole. -/
theorem partsOf_append (hbefore : ∀ c ∈ before, c ≠ '[' ∧ c ≠ '\\') (h : IsInside inside) :
    partsOf (before ++ '[' :: (inside ++ ']' :: after)) =
      textPart before ++ .tag (.ofChars inside) :: partsOf after := by
  rw [partsOf]
  split
  · next hnone =>
    rw [firstTag?_append hbefore h] at hnone
    cases hnone
  · next site hsite =>
    rw [firstTag?_append hbefore h] at hsite
    cases hsite
    simp [TagSite.parts, textPart]

end Tags

/-! ### Texts that are shown -/

namespace Console

variable (c : Console)

/-- Parts are fed one after the other. -/
theorem feedAll_append (opened : List Tag) (parts more : List Part) :
    c.feedAll opened (parts ++ more) = c.feedAll opened parts >>= (c.feedAll · more) := by
  induction parts generalizing opened with
  | nil => rfl
  | cons part rest ih =>
    cases part with
    | text cs => exact ih opened
    | tag t =>
      show (c.feed opened t >>= (c.feedAll · (rest ++ more))) = (c.feed opened t >>= _) >>= _
      cases c.feed opened t with
      | error e => rfl
      | ok opened' => exact ih opened'

/-- Texts open and close nothing. -/
theorem feedAll_textPart (opened : List Tag) (cs : List Char) :
    c.feedAll opened (textPart cs) = .ok opened := by
  unfold textPart
  split
  · rfl
  · rfl

/-- A text without a bracket is shown. -/
theorem plain_of_not_mem {text : String} (h : '[' ∉ text.toList) :
    ∃ shown, c.plain text = .ok shown := by
  rw [plain, partsOf_of_not_mem h, feedAll_textPart]
  exact ⟨_, rfl⟩

/-- A text is shown exactly if its tags are in order. -/
theorem exists_plain_iff {text : String} :
    (∃ shown, c.plain text = .ok shown) ↔ ∃ opened, c.feedAll [] (partsOf text.toList) = .ok opened := by
  rw [plain]
  cases c.feedAll [] (partsOf text.toList) with
  | error f => simp [Except.map]
  | ok opened => simp [Except.map]

/-- The name of a style that can be opened and closed. -/
structure IsStyle (style : String) : Prop where
  inside : IsInside style.toList
  opens : style.toList.head? ≠ some '/'
  plain : '=' ∉ style.toList
  strip : Text.strip style.toList = style.toList

/-- A word of small letters is the name of a style. -/
theorem isStyle_of_letters {style : String} (hne : style ≠ "")
    (h : ∀ ch ∈ style.toList, 'a' ≤ ch ∧ ch ≤ 'z') : IsStyle style := by
  -- no mark of a tag is a small letter
  have hmark : ∀ ch ∈ style.toList, ∀ mark, ¬ ('a' ≤ mark ∧ mark ≤ 'z') → ch ≠ mark := by
    rintro ch hch mark hmark rfl
    exact hmark (h ch hch)
  obtain ⟨first, rest, htext⟩ := List.exists_cons_of_ne_nil (String.toList_eq_nil_iff.not.mpr hne)
  have hfirst : first ∈ style.toList := htext ▸ List.mem_cons_self
  refine ⟨⟨⟨first, by rw [htext]; rfl, ?_⟩, fun ch hch => ?_⟩, ?_, ?_, ?_⟩
  · simp [startsTag, h first hfirst]
  · simp [isBracket, hmark ch hch '[' (by decide), hmark ch hch ']' (by decide)]
  · rw [htext, List.head?_cons, ne_eq, Option.some.injEq]
    exact hmark first hfirst '/' (by decide)
  · exact fun hmem => hmark '=' hmem '=' (by decide) rfl
  · apply Text.trimBoth_of_forall_not
    intro ch hch
    have halpha : ch.isAlpha = true := Text.isAlpha_iff.mpr (.inr (h ch hch))
    apply Text.isBlank_eq_false_of_isAlphanum
    show (ch.isAlpha || ch.isDigit) = true
    rw [halpha, Bool.true_or]

/-- A tag that only names something. -/
theorem ofChars_of_not_mem {cs : List Char} (h : '=' ∉ cs) :
    Tag.ofChars cs = { name := String.ofList cs } := by
  have hall : ∀ ch ∈ cs, (ch != '=') = true := by
    intro ch hch
    rw [bne_iff_ne]
    rintro rfl
    exact h hch
  rw [Tag.ofChars, List.takeWhile_eq_self_iff.mpr hall, List.dropWhile_eq_nil_iff.mpr hall]

/-- To open a style that is known and to close it again leaves open what was open. -/
theorem feed_style {style name : String} (h : IsStyle style)
    (hknown : c.styleOf? { name := style } = some name) (opened : List Tag) :
    c.feed opened (.ofChars style.toList) = .ok ({ name := name } :: opened) ∧
      c.feed ({ name := name } :: opened) (.ofChars ('/' :: style.toList)) = .ok opened := by
  have hclosing : '=' ∉ '/' :: style.toList := by
    simpa using h.plain
  rw [ofChars_of_not_mem h.plain, ofChars_of_not_mem hclosing, String.ofList_toList]
  constructor
  · unfold feed
    split
    · next rest heq => exact absurd (congrArg List.head? heq) h.opens
    · rw [hknown]
  · unfold feed
    rw [String.toList_ofList]
    simp [h.strip, hknown, close]

/-- The parts of a text in a style: it opens the style, and closes it again. -/
theorem partsOf_styled {style text : String} (h : IsStyle style)
    (htext : ∀ ch ∈ text.toList, ch ≠ '[' ∧ ch ≠ '\\') (rest : String) :
    partsOf (styled style text ++ rest).toList =
      .tag (.ofChars style.toList) :: (textPart text.toList ++
        .tag (.ofChars ('/' :: style.toList)) :: partsOf rest.toList) := by
  have hclosing : IsInside ('/' :: style.toList) :=
    ⟨⟨'/', rfl, rfl⟩, List.forall_mem_cons.mpr ⟨rfl, h.inside.2⟩⟩
  have hsplit : (styled style text ++ rest).toList = [] ++ '[' :: (style.toList ++ ']' ::
      (text.toList ++ '[' :: ('/' :: style.toList ++ ']' :: rest.toList))) := by
    simp [styled]
  rw [hsplit, partsOf_append (List.forall_mem_nil _) h.inside, partsOf_append htext hclosing]
  rfl

/-- A text in a style that is known leaves open what stays open behind it. -/
theorem feedAll_styled {style text : String} (h : IsStyle style)
    (hknown : (c.styleOf? { name := style }).isSome = true)
    (htext : ∀ ch ∈ text.toList, ch ≠ '[' ∧ ch ≠ '\\') (rest : String) :
    c.feedAll [] (partsOf (styled style text ++ rest).toList) =
      c.feedAll [] (partsOf rest.toList) := by
  obtain ⟨name, hname⟩ := Option.isSome_iff_exists.mp hknown
  obtain ⟨hopen, hclose⟩ := c.feed_style h hname []
  rw [partsOf_styled h htext]
  show (c.feed [] _ >>= fun opened => c.feedAll opened _) = _
  rw [hopen]
  show c.feedAll _ _ = _
  rw [feedAll_append, feedAll_textPart]
  show (c.feed _ _ >>= fun opened => c.feedAll opened _) = _
  rw [hclose]
  rfl

/-- A text in a style that cannot be made sense of is not shown. -/
theorem feedAll_styled_of_eq_none {style text : String} (h : IsStyle style)
    (hunknown : c.styleOf? { name := style } = none)
    (htext : ∀ ch ∈ text.toList, ch ≠ '[' ∧ ch ≠ '\\') (rest : String) :
    ∃ f, c.feedAll [] (partsOf (styled style text ++ rest).toList) = .error f := by
  have hfeed : c.feed [] (.ofChars style.toList) = .error (.senseless { name := style }) := by
    rw [ofChars_of_not_mem h.plain, String.ofList_toList]
    unfold feed
    split
    · next rest heq => exact absurd (congrArg List.head? heq) h.opens
    · rw [hunknown]
  rw [partsOf_styled h htext]
  show ∃ f, (c.feed [] _ >>= fun opened => c.feedAll opened _) = .error f
  rw [hfeed]
  exact ⟨_, rfl⟩

/-- A text in a style that is known is shown, with another text behind it. -/
theorem exists_plain_styled {style text rest : String} (h : IsStyle style)
    (hknown : (c.styleOf? { name := style }).isSome = true)
    (htext : ∀ ch ∈ text.toList, ch ≠ '[' ∧ ch ≠ '\\') (hrest : '[' ∉ rest.toList) :
    ∃ shown, c.plain (styled style text ++ rest) = .ok shown := by
  rw [exists_plain_iff, c.feedAll_styled h hknown htext]
  exact (c.exists_plain_iff).mp (c.plain_of_not_mem hrest)

example : terminal.plain "[b]one[/b] \\[two] [3]" = .ok "one [two] [3]" := by decide +kernel

/-! ### What is printed -/

theorem exists_unmarked_markup {line : String} (h : ∃ shown, c.plain line = .ok shown) :
    ∃ p, c.unmarked (.markup line) = .ok p := by
  obtain ⟨shown, hshown⟩ := h
  refine ⟨.markup shown, ?_⟩
  rw [unmarked, hshown]
  rfl

theorem exists_mapM_of_forall {α β : Type} {f : α → Except ShowFault β} {xs : List α}
    (h : ∀ x ∈ xs, ∃ y, f x = .ok y) : ∃ ys, xs.mapM f = .ok ys := by
  induction xs with
  | nil => exact ⟨[], rfl⟩
  | cons x rest ih =>
    obtain ⟨⟨y, hy⟩, hrest⟩ := List.forall_mem_cons.mp h
    obtain ⟨ys, hys⟩ := ih hrest
    refine ⟨y :: ys, ?_⟩
    rw [List.mapM_cons, hy, hys]
    rfl

/-- A table is shown if all its texts are. -/
theorem exists_unmarked_table {t : Table} (htitle : ∃ shown, c.plain t.title = .ok shown)
    (hcolumns : ∀ head ∈ t.columns, ∃ shown, c.plain head = .ok shown)
    (hrows : ∀ cells ∈ t.rows, ∀ cell ∈ cells, ∃ shown, c.plain cell = .ok shown) :
    ∃ p, c.unmarked (.table t) = .ok p := by
  obtain ⟨title, htitle⟩ := htitle
  obtain ⟨columns, hcolumns⟩ := exists_mapM_of_forall hcolumns
  obtain ⟨rows, hrows⟩ := exists_mapM_of_forall fun cells hcells =>
    exists_mapM_of_forall (hrows cells hcells)
  refine ⟨.table { title, columns, rows }, ?_⟩
  rw [unmarked, htitle, hcolumns, hrows]
  rfl

/-- To show one thing is to show it as the only one. -/
theorem displayAll_singleton (p : Printed) : c.displayAll [p] =
    match c.display p with
    | .ok shown => (shown, none)
    | .error f => ("", some f) := by
  rw [displayAll]
  cases c.display p with
  | ok shown => simp [displayAll]
  | error f => rfl

/-- Where the markup is in order, only a character that the console cannot write is in the way. -/
theorem exists_unwritable {ps : List Printed} (h : ∀ p ∈ ps, ∃ p', c.unmarked p = .ok p')
    {f : ShowFault} (hf : (c.displayAll ps).2 = some f) :
    ∃ ch, c.writes ch = false ∧ f = .unwritable ch := by
  induction ps with
  | nil => cases hf
  | cons p rest ih =>
    obtain ⟨⟨p', hp⟩, hrest⟩ := List.forall_mem_cons.mp h
    have hdisplay : c.display p = c.write (c.layout p') := by
      rw [display, hp]
      rfl
    rw [displayAll, hdisplay, write] at hf
    cases hfind : (c.layout p').toList.find? (!c.writes ·) with
    | none =>
      rw [hfind] at hf
      exact ih hrest hf
    | some ch =>
      rw [hfind] at hf
      cases hf
      exact ⟨ch, by simpa using List.find?_some hfind, rfl⟩

/-! ### Texts that are not shown -/

/-- Where no style is open, no console can close one. -/
theorem exists_feed_nil_eq_error {t : Tag} {name : List Char} (h : t.name.toList = '/' :: name) :
    ∃ f, c.feed [] t = .error f := by
  rw [feed]
  split
  · next rest heq =>
    cases h.symm.trans heq
    split
    · exact ⟨_, rfl⟩
    · cases c.styleOf? { name := String.ofList (Text.strip name) } with
      | none => exact ⟨_, rfl⟩
      | some style => exact ⟨_, rfl⟩
  · next hnone => exact absurd h (hnone name)

/-- A text is not shown if the first tag in it closes a style. -/
theorem feedAll_closing {before inside after : List Char}
    (hbefore : ∀ ch ∈ before, ch ≠ '[' ∧ ch ≠ '\\') (hinside : ∀ ch ∈ inside, isBracket ch = false) :
    ∃ f, c.feedAll [] (partsOf (before ++ '[' :: ('/' :: inside ++ ']' :: after))) = .error f := by
  have hclosing : IsInside ('/' :: inside) :=
    ⟨⟨'/', rfl, rfl⟩, List.forall_mem_cons.mpr ⟨rfl, hinside⟩⟩
  have hname : (Tag.ofChars ('/' :: inside)).name.toList =
      '/' :: inside.takeWhile (· != '=') := by simp [Tag.ofChars]
  obtain ⟨f, hf⟩ := c.exists_feed_nil_eq_error hname
  rw [partsOf_append hbefore hclosing, feedAll_append, feedAll_textPart]
  show ∃ f, (c.feed [] _ >>= fun opened => c.feedAll opened _) = .error f
  rw [hf]
  exact ⟨f, rfl⟩

theorem exists_mapM_eq_error {α β : Type} {f : α → Except ShowFault β} {xs : List α} {x : α}
    (hx : x ∈ xs) (h : ∃ e, f x = .error e) : ∃ e, xs.mapM f = .error e := by
  induction xs with
  | nil => cases hx
  | cons y rest ih =>
    rw [List.mapM_cons]
    cases hy : f y with
    | error e => exact ⟨e, rfl⟩
    | ok z =>
      obtain ⟨e, he⟩ := h
      rcases List.mem_cons.mp hx with rfl | hx
      · cases he.symm.trans hy
      · obtain ⟨e', he'⟩ := ih hx
        rw [he']
        exact ⟨e', rfl⟩

/-- A table is not shown if one of its cells is not. -/
theorem exists_unmarked_table_eq_error {t : Table} {cells : List String} {cell : String}
    (hcells : cells ∈ t.rows) (hcell : cell ∈ cells) (h : ∃ f, c.plain cell = .error f) :
    ∃ f, c.unmarked (.table t) = .error f := by
  obtain ⟨f, hf⟩ := exists_mapM_eq_error hcells (exists_mapM_eq_error hcell h)
  rw [unmarked]
  cases c.plain t.title with
  | error f => exact ⟨f, rfl⟩
  | ok title =>
    cases t.columns.mapM c.plain with
    | error f => exact ⟨f, rfl⟩
    | ok columns =>
      rw [hf]
      exact ⟨f, rfl⟩

end Console

/-! ### How commands end -/

namespace Outcome

variable {out : Outcome}

/-- A command that only prints ends with its exit code, if all of it can be shown. -/
theorem ending_of_printed (hfault : out.fault = none) (hdocument : out.document = none)
    (c : Console) : out.ending c = {
      status := if (c.displayAll out.printed).2 = none then out.exitCode else 1
      written := (c.displayAll out.printed).1
      fault := (c.displayAll out.printed).2.map .display } := by
  rw [ending, hfault, hdocument]
  obtain ⟨shown, fault⟩ := c.displayAll out.printed
  cases fault with
  | some f => rfl
  | none => simp [Console.writeAny]

/-- A command that only gives a document ends with its exit code, if all of it can be written. -/
theorem ending_of_document {text : String} (hfault : out.fault = none) (hprinted : out.printed = [])
    (hdocument : out.document = some text) (c : Console) : out.ending c =
      match text.toList.find? (!c.writes ·) with
      | none => { status := out.exitCode, written := text }
      | some ch => { status := 1, fault := some (.display (.unwritable ch)) } := by
  rw [ending, hfault, hprinted, hdocument]
  simp only [Console.displayAll, Console.writeAny, Console.write]
  cases text.toList.find? (!c.writes ·) with
  | none => simp
  | some ch => rfl

end Outcome

end PlotGraph.CommandLine
