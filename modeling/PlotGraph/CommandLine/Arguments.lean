/-!
# Arguments of a command

The words after a command are options and operands. A long option may carry its value
after an equals sign. Several options of one letter may share a hyphen, and the last of them
may carry its value in the same word. After two hyphens there are only operands.
-/

namespace PlotGraph.CommandLine

/-- An option that a command knows: what it stands for, its names, and whether a value
follows it. -/
structure OptionForm (κ : Type) where
  key : κ
  names : List String
  takesValue : Bool := false

/-- What is given to a command: options with their values, and operands. The value of an
option that takes none is empty. -/
structure Arguments (κ : Type) where
  options : List (κ × String) := []
  operands : List String := []
  deriving DecidableEq

namespace Arguments

variable {κ : Type}

/-- Whether a word names options: a hyphen and something after it. -/
def namesOptions (word : String) : Bool := "-".toList.isPrefixOf word.toList && word != "-"

def isLong (name : String) : Bool := "--".toList.isPrefixOf name.toList

def find? (forms : List (OptionForm κ)) (name : String) : Option (OptionForm κ) :=
  forms.find? fun f => f.names.contains name

/-- A word up to its first equals sign, and what follows that. -/
def splitValue (word : String) : String × Option String :=
  match word.toList.span (· != '=') with
  | (name, []) => (String.ofList name, none)
  | (name, _ :: value) => (String.ofList name, some (String.ofList value))

/-- What one word gives, and whether the word after it is its value. -/
structure Reading (κ : Type) where
  options : List (κ × String)
  takesNext : Bool := false

def readLetters (forms : List (OptionForm κ)) (next : Option String) :
    List Char → Option (Reading κ)
  | [] => some ⟨[], false⟩
  | letter :: rest => do
    let form ← find? forms (String.ofList ['-', letter])
    if !form.takesValue then
      let more ← readLetters forms next rest
      return { more with options := (form.key, "") :: more.options }
    else if rest.isEmpty then
      return ⟨[(form.key, ← next)], true⟩
    else return ⟨[(form.key, String.ofList rest)], false⟩

def readWord (forms : List (OptionForm κ)) (word : String) (next : Option String) :
    Option (Reading κ) :=
  let (name, value) := splitValue word
  match (find? forms name).filter fun _ => isLong name with
  | some form =>
    match form.takesValue, value with
    | true, some v => some ⟨[(form.key, v)], false⟩
    | true, none => next.map fun v => ⟨[(form.key, v)], true⟩
    | false, some _ => none
    | false, none => some ⟨[(form.key, "")], false⟩
  | none => if isLong word then none else readLetters forms next word.toList.tail

/-- Read words. Unless options may follow operands, everything from the first operand on is
an operand. None if an option is not known, or its value is missing or not wanted. -/
def read (forms : List (OptionForm κ)) (mixed : Bool) :
    List String → Option (Arguments κ)
  | [] => some {}
  | word :: rest =>
    if word = "--" then some { operands := rest }
    else if namesOptions word then do
      let r ← readWord forms word rest.head?
      let more ← read forms mixed (if r.takesNext then rest.tail else rest)
      return { more with options := r.options ++ more.options }
    else if mixed then
      (read forms mixed rest).map fun more => { more with operands := word :: more.operands }
    else some { operands := word :: rest }
termination_by words => words.length
decreasing_by
  · split <;> simp only [List.length_tail, List.length_cons] <;> omega
  · exact Nat.lt_succ_self _

variable [DecidableEq κ]

def has (a : Arguments κ) (key : κ) : Bool := a.options.any fun o => o.1 == key

def count (a : Arguments κ) (key : κ) : Nat := a.options.countP fun o => o.1 == key

/-- The value of an option; of several the last. -/
def last? (a : Arguments κ) (key : κ) : Option String :=
  (a.options.reverse.find? fun o => o.1 == key).map Prod.snd

end Arguments
end PlotGraph.CommandLine
