import PlotGraph.Number.Decimal

/-!
# Reports

What a validation run finds: defects, which make a graph invalid; warnings; neutral notes;
and suggestions. Every finding carries a code. Defects and warnings also carry a plain
message for authors who never see the code.

A check gives a partial report. `merge` puts one after another, and `finalize` decides
validity from the defects; until then the flag says nothing.
-/

namespace PlotGraph

/-- How grave a defect is, as a word. Custom validators may have words of their own. -/
structure Severity where
  word : String
  deriving DecidableEq, Repr

/-- The severity of a defect that leaves a node or a graph without identity. -/
def Severity.critical : Severity := ⟨"critical"⟩

def Severity.error : Severity := ⟨"error"⟩

/-- A remedy for a defect. -/
structure Fix where
  description : String
  autoFixable : Bool := false
  /-- Whether the editor holds an action that applies the fix. It takes no part in
  comparisons and is never written. -/
  hasAction : Bool := false
  deriving DecidableEq, Repr

/-- A defect, which makes the graph invalid. -/
structure Defect where
  code : String
  message : String
  plainMessage : String
  severity : Severity := .error
  nodeId : Option String := none
  connectionId : Option String := none
  fix : Option Fix := none
  deriving DecidableEq, Repr

structure Warning where
  code : String
  message : String
  plainMessage : String
  nodeId : Option String := none
  connectionId : Option String := none
  suggestion : Option String := none
  deriving DecidableEq, Repr

structure Note where
  code : String
  message : String
  nodeId : Option String := none
  deriving DecidableEq, Repr

/-- What a suggestion is good for, as a word. Custom validators may have words of their
own. -/
structure SuggestionKind where
  word : String
  deriving DecidableEq, Repr

/-- The kind of suggestions that make a graph faster. -/
def SuggestionKind.optimization : SuggestionKind := ⟨"optimization"⟩

def SuggestionKind.simplification : SuggestionKind := ⟨"simplification"⟩

def SuggestionKind.bestPractice : SuggestionKind := ⟨"best-practice"⟩

/-- An improvement that the author may make. -/
structure Suggestion where
  kind : SuggestionKind
  message : String
  nodeId : Option String := none
  action : Option String := none
  deriving DecidableEq, Repr

/-- The findings of a run, or of a part of it. -/
structure Report where
  valid : Bool := true
  errors : List Defect := []
  warnings : List Warning := []
  notes : List Note := []
  suggestions : List Suggestion := []
  deriving DecidableEq, Repr, Inhabited

/-- The id that a finding is anchored at; an empty id anchors nothing. -/
def anchor (id : String) : Option String := if id.isEmpty then none else some id

namespace Report

/-! ### Partial reports -/

def ofDefect (d : Defect) : Report := { errors := [d] }

def ofWarning (w : Warning) : Report := { warnings := [w] }

def ofNote (n : Note) : Report := { notes := [n] }

def ofSuggestion (s : Suggestion) : Report := { suggestions := [s] }

/-- Add the findings of another report after those of this one; the flag stays. -/
def merge (r other : Report) : Report where
  valid := r.valid
  errors := r.errors ++ other.errors
  warnings := r.warnings ++ other.warnings
  notes := r.notes ++ other.notes
  suggestions := r.suggestions ++ other.suggestions

def concat (rs : List Report) : Report := rs.foldl merge {}

/-- A report if a condition holds, and otherwise an empty one. -/
def when (condition : Bool) (r : Report) : Report := if condition then r else {}

/-- Decide validity: a graph is valid if it has no defect. -/
def finalize (r : Report) : Report := { r with valid := r.errors.isEmpty }

/-! ### Questions -/

def hasErrors (r : Report) : Bool := !r.errors.isEmpty

def hasWarnings (r : Report) : Bool := !r.warnings.isEmpty

/-- The codes of defects, warnings and notes, in this order. -/
def codes (r : Report) : List String :=
  r.errors.map (·.code) ++ r.warnings.map (·.code) ++ r.notes.map (·.code)

/-- A count with its noun; nothing for zero. -/
def countText (count : Nat) (noun : String) : List String :=
  if count = 0 then [] else [Decimal.ofNat count ++ " " ++ noun]

def summary (r : Report) : String :=
  match countText r.errors.length "errors" ++ countText r.warnings.length "warnings"
      ++ countText r.notes.length "info" ++ countText r.suggestions.length "suggestions" with
  | [] => "no findings"
  | parts => ", ".intercalate parts

/-! ### Comparison -/

def withoutAction (d : Defect) : Defect :=
  { d with fix := d.fix.map fun f => { f with hasAction := false } }

/-- Whether two reports are equal, leaving the actions of fixes aside. -/
def agrees (r other : Report) : Bool :=
  { r with errors := r.errors.map withoutAction }
    == { other with errors := other.errors.map withoutAction }

end Report
end PlotGraph
