import PlotGraph.Json.Reader
import PlotGraph.Text.Utf8
import PlotGraph.Yaml.Cursor
import PlotGraph.Yaml.Format

/-!
# Tags

A tag says what kind a node is of. It is written in full between angle brackets, or as a
handle and the rest of its name; a document may declare what a handle stands for, and two
handles always stand for something. The tag `!` leaves the kind open.

Percent signs start escapes of two hexadecimal digits. Together they have to make up text,
but in the name of a tag each of them stands for a character.
-/

namespace PlotGraph.Yaml

/-- A tag by its full name, and whether it was written with a handle. -/
structure Tag where
  name : String
  hasHandle : Bool
  deriving DecidableEq, Repr

def standardStart : String := "tag:yaml.org,2002:"

def Tag.isOpen (t : Tag) : Bool := t.name == "!"

/-- The name of a standard tag without the start that all of them share. -/
def Tag.standardName? (t : Tag) : Option String :=
  let start := standardStart.toList
  if start.isPrefixOf t.name.toList then some (String.ofList (t.name.toList.drop start.length))
  else none

/-! ### Handles -/

/-- What handles stand for. -/
abbrev Handles := List (String × String)

def defaultHandles : Handles := [("!", "!"), ("!!", standardStart)]

/-- What a handle stands for; declarations come before what needs none. -/
def Handles.expand? (declared : Handles) (handle : String) : Option String :=
  (declared ++ defaultHandles).lookup handle

/-! ### Names -/

def isWordChar (c : Char) : Bool := c.isAlphanum || c == '-' || c == '_'

/-- The characters of the names of tags. In the older version the number sign is not one
of them. -/
def isTagChar (v : Version) (c : Char) : Bool :=
  c.isAlphanum || "-;/?:@&=+$,_.!~*'()[]%".toList.contains c || (c == '#' && v == .newer)

def isText (octets : List UInt8) : Bool :=
  match Text.Utf8.decode octets with
  | .ok _ => true
  | .error _ => false

/-- Whether the escapes of a name are complete, and neighbouring ones are text; the octets
before the name are given, the last one first. -/
def hasValidEscapes (octets : List UInt8) : List Char → Bool
  | [] => isText octets.reverse
  | '%' :: a :: b :: rest =>
    match Json.hexValue? a, Json.hexValue? b with
    | some a, some b => hasValidEscapes (UInt8.ofNat (16 * a + b) :: octets) rest
    | _, _ => false
  | '%' :: _ => false
  | _ :: rest => isText octets.reverse && hasValidEscapes [] rest

/-- A name with each escape replaced by the character that it stands for. -/
def unescape : List Char → List Char
  | '%' :: a :: b :: rest =>
    Char.ofNat (16 * (Json.hexValue? a).getD 0 + (Json.hexValue? b).getD 0) :: unescape rest
  | c :: rest => c :: unescape rest
  | [] => []

def readTagName (v : Version) (c : Cursor) : Option (List Char × Cursor) :=
  let name := c.run (isTagChar v)
  if name.isEmpty || !hasValidEscapes [] name then none
  else some (name, c.skipWhile (isTagChar v))

/-- Read a handle: exclamation marks around a word, or a single one before a space. -/
def readHandle (c : Cursor) : Option (String × Cursor) :=
  if !c.isAt '!' then none
  else if c.next.isAt ' ' then some ("!", c.next)
  else
    let word := c.next.run isWordChar
    let after := c.next.skipWhile isWordChar
    if after.isAt '!' then some (String.ofList ('!' :: word ++ ['!']), after.next) else none

/-! ### Reading -/

def Tag.ofHandle? (declared : Handles) (handle : String) (name : List Char) : Option Tag :=
  (declared.expand? handle).map fun start =>
    { name := start ++ String.ofList (unescape name), hasHandle := true }

/-- Read a tag from its last leading exclamation mark on, given the handle that all of these
make up. -/
def readTagBody (v : Version) (declared : Handles) (short : String) (c : Cursor) :
    Option (Tag × Cursor) := do
  if c.next.isAt '<' then
    let (name, after) ← readTagName v c.next.next
    if !after.isAt '>' then failure
    return ({ name := String.ofList (unescape name), hasHandle := false }, after.next)
  else if endsWord c.next.head? then
    return ({ name := short, hasHandle := false }, c.next)
  else
    let (handle, after) ←
      if (c.next.run fun char => !endsPart (some char)).contains '!' then readHandle c
      else some (short, c.next)
    let (name, after) ← readTagName v after
    return (← Tag.ofHandle? declared handle name, after)

def readTag (v : Version) (declared : Handles) (c : Cursor) : Option (Tag × Cursor) := do
  let (t, after) ←
    if c.next.isAt '!' then readTagBody v declared "!!" c.next
    else readTagBody v declared "!" c
  if endsPart after.head? then some (t, after) else none

end PlotGraph.Yaml
