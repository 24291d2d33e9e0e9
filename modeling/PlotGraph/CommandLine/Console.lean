import PlotGraph.Text.Blank
import PlotGraph.Text.Surrogate

/-!
# Consoles

A console takes a text apart before it shows it. A tag in square brackets opens a style; one that
starts with a slash closes the style of that name, or the last one if it gives no name. A backslash
before a tag makes it a part of the text. What stands in brackets and does not start with a small
letter or one of `#`, `/` and `@` is no tag.

A text is at fault if it closes what is not open (`Console.feed`). What the console makes of the
name of a style, and which characters it can write, is its own: a `Console` leaves that open.
-/

namespace PlotGraph.CommandLine

/-! ### Tags -/

/-- A tag: a name, and what stands behind an equals sign. -/
structure Tag where
  name : String
  argument : Option String := none
  deriving DecidableEq, Repr

def Tag.ofChars (cs : List Char) : Tag where
  name := String.ofList (cs.takeWhile (· != '='))
  argument := match cs.dropWhile (· != '=') with
    | [] => none
    | _ :: argument => some (String.ofList argument)

/-- Whether a character can stand at the start of a tag. -/
def startsTag (c : Char) : Bool := ('a' ≤ c && c ≤ 'z') || c == '#' || c == '/' || c == '@'

def isBracket (c : Char) : Bool := c == '[' || c == ']'

/-- What stands between the brackets of a tag at the start of a text, and what follows it. -/
def tagAt? : List Char → Option (List Char × List Char)
  | '[' :: c :: cs =>
    match cs.dropWhile (!isBracket ·) with
    | ']' :: after => if startsTag c then some (c :: cs.takeWhile (!isBracket ·), after) else none
    | _ => none
  | _ => none

/-- A tag in a text: what stands before it, the number of backslashes in front of it, what stands
between its brackets, and what follows. -/
structure TagSite where
  before : List Char
  backslashes : Nat
  inside : List Char
  after : List Char

/-- The first tag of a text. All backslashes in front of it belong to it. -/
def firstTag? : List Char → Option TagSite
  | [] => none
  | c :: cs =>
    let backslashes := ((c :: cs).takeWhile (· == '\\')).length
    match tagAt? ((c :: cs).drop backslashes) with
    | some (inside, after) => some ⟨[], backslashes, inside, after⟩
    | none => (firstTag? cs).map fun site => { site with before := c :: site.before }

theorem length_after_lt_of_tagAt? {cs inside after : List Char}
    (h : tagAt? cs = some (inside, after)) : after.length < cs.length := by
  unfold tagAt? at h
  split at h
  · next c cs =>
      split at h
      · next rest hrest =>
          split at h
          · cases h
            have hle := (List.dropWhile_sublist (!isBracket ·) (l := cs)).length_le
            rw [hrest, List.length_cons] at hle
            simp only [List.length_cons]
            omega
          · cases h
      · cases h
  · cases h

/-- What follows a tag is shorter than the text. -/
theorem length_after_lt_of_firstTag? {cs : List Char} {site : TagSite}
    (h : firstTag? cs = some site) : site.after.length < cs.length := by
  induction cs generalizing site with
  | nil => cases h
  | cons c cs ih =>
      rw [firstTag?] at h
      split at h
      · next inside after htag =>
          cases h
          have hlt := length_after_lt_of_tagAt? htag
          rw [List.length_drop] at hlt
          exact Nat.lt_of_lt_of_le hlt (Nat.sub_le _ _)
      · obtain ⟨site', hsite', rfl⟩ := Option.map_eq_some_iff.mp h
        have hlt := ih hsite'
        exact Nat.lt_succ_of_lt hlt

/-! ### The parts of a text -/

/-- A part of a text with markup. -/
inductive Part where
  | text (cs : List Char)
  | tag (t : Tag)
  deriving DecidableEq, Repr

/-- Characters as a part, if there are any. -/
def textPart (cs : List Char) : List Part := if cs.isEmpty then [] else [.text cs]

/-- The tag of a site as a part. Two backslashes in front of it stand for one, and if one is left
over the tag belongs to the text. -/
def TagSite.parts (site : TagSite) : List Part :=
  textPart (List.replicate (site.backslashes / 2) '\\') ++
    if site.backslashes % 2 = 0 then [.tag (.ofChars site.inside)]
    else [.text ('[' :: site.inside ++ [']'])]

def partsOf (cs : List Char) : List Part :=
  match hsite : firstTag? cs with
  | none => textPart cs
  | some site =>
    have := length_after_lt_of_firstTag? hsite
    textPart site.before ++ site.parts ++ partsOf site.after
termination_by cs.length

/-- A part of a text without the backslashes before brackets. -/
def unescape : List Char → List Char
  | '\\' :: '[' :: cs => '[' :: unescape cs
  | c :: cs => c :: unescape cs
  | [] => []

/-! ### Consoles -/

/-- Why a text cannot be shown. -/
inductive ShowFault where
  /-- A tag closes a style that is not open. -/
  | unmatched (t : Tag)
  /-- A tag closes the last style, and none is open. -/
  | nothingToClose
  /-- A tag cannot be made sense of. -/
  | senseless (t : Tag)
  /-- What an action is given cannot be read. -/
  | argument (text : String)
  /-- A character cannot be written. -/
  | unwritable (c : Char)
  deriving DecidableEq, Repr

structure Table where
  title : String
  columns : List String
  rows : List (List String)
  deriving DecidableEq, Repr

/-- What is printed: a line with markup, or a table. -/
inductive Printed where
  | markup (line : String)
  | table (t : Table)
  deriving DecidableEq, Repr

/-- What a console makes of what it is given. -/
structure Console where
  /-- The name under which the style of a tag is open, unless it cannot be made sense of. -/
  styleOf? : Tag → Option String
  /-- Whether it can read what an action is given. -/
  reads : String → Bool
  /-- A text with its symbols in the place of their names. -/
  symbols : String → String
  /-- The lines for what is printed, once its texts have no markup left. -/
  layout : Printed → String
  /-- The characters that it can write. -/
  writes : Char → Bool

namespace Console

/-- Close a style. An action has to be read then. -/
def close (c : Console) (closed : Tag) (stillOpen : List Tag) : Except ShowFault (List Tag) :=
  match closed.argument with
  | none => .ok stillOpen
  | some argument =>
    if closed.name.startsWith "@" && !argument.isEmpty && !c.reads argument then
      .error (.argument argument)
    else .ok stillOpen

/-- The styles that are open after a tag, the last one first. -/
def feed (c : Console) (opened : List Tag) (t : Tag) : Except ShowFault (List Tag) :=
  match t.name.toList with
  | '/' :: name =>
    if (Text.strip name).isEmpty then
      match opened with
      | [] => .error .nothingToClose
      | last :: rest => c.close last rest
    else
      match c.styleOf? { name := String.ofList (Text.strip name) } with
      | none => .error (.senseless t)
      | some style =>
        match opened.find? (·.name == style) with
        | none => .error (.unmatched t)
        | some closed => c.close closed (opened.eraseP (·.name == style))
  | _ =>
    match c.styleOf? t with
    | none => .error (.senseless t)
    | some style => .ok ({ t with name := style } :: opened)

/-- The styles that are open after some parts of a text. -/
def feedAll (c : Console) (opened : List Tag) : List Part → Except ShowFault (List Tag)
  | [] => .ok opened
  | .text _ :: rest => c.feedAll opened rest
  | .tag t :: rest => do c.feedAll (← c.feed opened t) rest

def textOf (c : Console) : Part → String
  | .text cs => c.symbols (String.ofList (unescape cs))
  | .tag _ => ""

/-- A text without its markup. Styles may be left open. -/
def plain (c : Console) (text : String) : Except ShowFault String :=
  let parts := partsOf text.toList
  (c.feedAll [] parts).map fun _ => String.join (parts.map c.textOf)

/-- What is printed, without markup. -/
def unmarked (c : Console) : Printed → Except ShowFault Printed
  | .markup line => do return .markup (← c.plain line)
  | .table t => do return .table {
      title := ← c.plain t.title
      columns := ← t.columns.mapM c.plain
      rows := ← t.rows.mapM (·.mapM c.plain) }

/-- Write a text, which is done as a whole or not at all. -/
def write (c : Console) (text : String) : Except ShowFault String :=
  match text.toList.find? (!c.writes ·) with
  | some ch => .error (.unwritable ch)
  | none => .ok text

def display (c : Console) (p : Printed) : Except ShowFault String := do
  c.write (c.layout (← c.unmarked p))

end Console

def Printed.lines : Printed → List String
  | .markup line => [line]
  | .table t => t.title :: (t.columns :: t.rows).map fun cells => "  ".intercalate cells

/-- A console that takes any name for that of a style and leaves the styles out. It writes all
characters but halves of surrogate pairs. -/
def Console.terminal : Console where
  styleOf? t := some (String.ofList ((Text.strip t.name.toList).map Char.toLower))
  reads _ := true
  symbols := id
  layout p := String.join (p.lines.map (· ++ "\n"))
  writes c := !Text.isHalf (Text.codeOf c)

end PlotGraph.CommandLine
