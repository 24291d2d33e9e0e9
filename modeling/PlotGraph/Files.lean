import PlotGraph.Mapping
import PlotGraph.Number.Decimal
import PlotGraph.Text.Quoted
import PlotGraph.Text.Utf8

/-!
# Files and their paths

The part of a file system that the library reads and writes, as a value: a mapping from
paths below the working directory to the bytes of files, and to directories that hold
nothing yet. A directory also exists wherever a path leads through it.

A path is kept in its simplest spelling: repeated separators, `.` and a separator at the
end are dropped, and `..` is kept for the look-up to follow. Exactly two separators at the
start are no repetition; they make a root of their own. Nothing is known of what lies
outside of the working directory, except that the directories above it are there.
-/

namespace PlotGraph

/-! ### Paths -/

/-- Where a path starts: in the working directory, at the root, or at the root with two
separators. -/
inductive PathStart where
  | here
  | root
  | doubleRoot
  deriving DecidableEq, Repr, Inhabited

/-- The separators that stand for a start. -/
def PathStart.text : PathStart → String
  | .here => ""
  | .root => "/"
  | .doubleRoot => "//"

def PathStart.ofText (s : String) : PathStart :=
  match (s.toList.takeWhile (· == '/')).length with
  | 0 => .here
  | 2 => .doubleRoot
  | _ => .root

/-- A path: where it starts, and the names on the way. -/
structure Path where
  start : PathStart := .here
  names : List String := []
  deriving DecidableEq, Repr, Inhabited

namespace Path

def splitNames (current : List Char) : List Char → List (List Char)
  | [] => [current.reverse]
  | c :: rest =>
    if c = '/' then current.reverse :: splitNames [] rest else splitNames (c :: current) rest

def ofText (s : String) : Path where
  start := .ofText s
  names := ((splitNames [] s.toList).map String.ofList).filter fun n => n != "" && n != "."

/-- The simplest spelling of a path; the working directory is a point. -/
def text (p : Path) : String :=
  match p.start.text ++ "/".intercalate p.names with
  | "" => "."
  | s => s

def child (p : Path) (name : String) : Path := { p with names := p.names ++ [name] }

def dropLast (p : Path) : Path := { p with names := p.names.dropLast }

/-- Whether a path goes nowhere from its start, or only up. -/
def isAbove (p : Path) : Bool := p.names.all (· == "..")

/-- The directory that holds what a path denotes. The root is its own parent. -/
def parent (p : Path) : Path :=
  if p.start = .here && p.isAbove then p.child ".." else p.dropLast

/-- Where a name leads from a directory. -/
def step (here : Path) (name : String) : Path :=
  if name = ".." then here.parent else here.child name

/-- The places that names lead to, one after the other, from a directory. -/
def placesFrom (here : Path) : List String → List Path
  | [] => []
  | name :: rest => here.step name :: placesFrom (here.step name) rest

/-- The places on the way to what a path denotes, and the last of them that itself. -/
def places (p : Path) : List Path := placesFrom { p with names := [] } p.names

end Path

/-! ### Files -/

/-- What stands at a path. -/
inductive FileEntry where
  | file (bytes : List UInt8)
  | directory
  deriving DecidableEq, Repr

/-- The files below the working directory. -/
structure Files where
  entries : Mapping Path FileEntry := {}
  deriving DecidableEq, Inhabited

namespace Files

/-- Whether a path is that of a directory: one above the start, a listed one, or one on the
way to an entry. -/
def isDirectory (files : Files) (p : Path) : Bool :=
  p.isAbove || files.entries.entries.any fun (q, entry) =>
    q.start == p.start &&
      ((q == p && entry == .directory) ||
        (p.names.isPrefixOf q.names && p.names.length < q.names.length))

/-! ### Following paths -/

/-- Why nothing can be done at a path. -/
inductive Problem where
  | missing
  | notADirectory
  | nameTooLong
  /-- A name holds a character that no name may hold. -/
  | nullCharacter
  | directory
  | present
  deriving DecidableEq, Repr

/-- A path at which something cannot be done. -/
structure Failure where
  problem : Problem
  path : Path
  deriving DecidableEq, Repr

def Problem.words : Problem → Nat × String
  | .missing => (2, "No such file or directory")
  | .present => (17, "File exists")
  | .notADirectory => (20, "Not a directory")
  | .directory => (21, "Is a directory")
  | .nameTooLong => (36, "File name too long")
  | .nullCharacter => (0, "embedded null byte")

/-- The message for a path at which something cannot be done. -/
def Failure.message (f : Failure) : String :=
  let (number, words) := f.problem.words
  if f.problem = .nullCharacter then words
  else "[Errno " ++ Decimal.ofNat number ++ "] " ++ words ++ ": " ++ Text.quoted f.path.text

def maxName : Nat := 255

def maxPath : Nat := 4095

/-- Follow names from a directory. All but the last have to be those of directories; whether
anything is at the last one is left open. -/
def walk (files : Files) (here : Path) : List String → Except Problem Path
  | [] => .ok here
  | name :: rest =>
    if !files.isDirectory here then
      .error (if files.entries.contains here then .notADirectory else .missing)
    else if maxName < name.utf8ByteSize then .error .nameTooLong
    else walk files (here.step name) rest

/-- The place that a path leads to. -/
def locate (files : Files) (p : Path) : Except Problem Path :=
  if p.text.contains '\x00' then .error .nullCharacter
  else if maxPath < p.text.utf8ByteSize then .error .nameTooLong
  else files.walk { p with names := [] } p.names

def entryAt? (files : Files) (q : Path) : Option FileEntry :=
  if files.isDirectory q then some .directory else files.entries.get? q

def get (files : Files) (p : Path) : Except Problem FileEntry :=
  match files.locate p with
  | .error e => .error e
  | .ok q =>
    match files.entryAt? q with
    | some entry => .ok entry
    | none => .error .missing

/-- Whether anything stands at a path; a name that is too long is no answer. -/
def contains (files : Files) (p : Path) : Except Failure Bool :=
  match files.get p with
  | .ok _ => .ok true
  | .error .nameTooLong => .error ⟨.nameTooLong, p⟩
  | .error _ => .ok false

/-! ### Writing -/

def put (files : Files) (p : Path) (entry : FileEntry) : Files :=
  { entries := files.entries.put p entry }

/-- Make the directory at a path, whose parents have to be there. -/
def makeOne (files : Files) (p : Path) : Except Problem Files := do
  let q ← files.locate p
  match files.entryAt? q with
  | some _ => throw .present
  | none => return files.put q .directory

/-- Make the directory at a path, unless it is there. -/
def ensureOne (files : Files) (p : Path) : Except Problem Files :=
  match files.makeOne p with
  | .ok made => .ok made
  | .error e =>
    match files.get p with
    | .ok .directory => .ok files
    | _ => .error e

/-- Make the directory at a path with its parents, unless it is there. -/
def ensure (files : Files) (p : Path) : Except Failure Files :=
  match files.ensureOne p with
  | .ok made => .ok made
  | .error e =>
    if _h : e = .missing ∧ p.names ≠ [] then do
      let made ← files.ensure p.dropLast
      (made.ensureOne p).mapError (⟨·, p⟩)
    else .error ⟨e, p⟩
termination_by p.names.length
decreasing_by
  have := List.length_pos_iff.mpr _h.2
  simp only [Path.dropLast, List.length_dropLast]
  omega

/-- Store the bytes of a file, whose parents have to be there. -/
def write (files : Files) (p : Path) (bytes : List UInt8) : Except Failure Files :=
  match files.locate p with
  | .error e => .error ⟨e, p⟩
  | .ok q =>
    if files.isDirectory q then .error ⟨.directory, p⟩ else .ok (files.put q (.file bytes))

/-- Store the text of a file, and make the directories on the way to it. -/
def writeText (files : Files) (p : Path) (text : String) : Except Failure Files := do
  (← files.ensure p.dropLast).write p (Text.Utf8.encode text)

/-- Open a file to add to its end: the place where it is, and the files with an empty one
there if there was none. -/
def openEnd (files : Files) (p : Path) : Except Failure (Path × Files) :=
  match files.locate p with
  | .error e => .error ⟨e, p⟩
  | .ok q =>
    match files.entryAt? q with
    | some .directory => .error ⟨.directory, p⟩
    | some (.file _) => .ok (q, files)
    | none => .ok (q, files.put q (.file []))

/-! ### Reading -/

/-- Why there is no file to open at a path. -/
inductive OpenError where
  | missing
  | directory
  deriving DecidableEq, Repr

/-- The words for a path at which there is no file to open. -/
def OpenError.message (p : Path) : OpenError → String
  | .missing => "File not found"
  | .directory => Failure.message ⟨.directory, p⟩

/-- The bytes of the file at a path, if there is one to open. -/
def read (files : Files) (p : Path) : Except Failure (Except OpenError (List UInt8)) :=
  match files.get p with
  | .ok (.file bytes) => .ok (.ok bytes)
  | .ok .directory => .ok (.error .directory)
  | .error .nameTooLong => .error ⟨.nameTooLong, p⟩
  | .error _ => .ok (.error .missing)

end Files
end PlotGraph
