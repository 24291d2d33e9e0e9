/-!
# Kinds of nodes

A node carries a tag that says what it does in the story. The tags known here are the
`NodeKind`s; each belongs to one `Category`, and the content that a node needs depends on
its category alone. A tag that is not known has no category.
-/

namespace PlotGraph

/-- What a node does. -/
inductive NodeKind where
  | start
  | finish
  | comment
  | condition
  | variableCheck
  | variableSet
  | mathOperation
  | output
  | loop
  | andGate
  | orGate
  | random
  | timer
  | input
  | switch
  | custom
  deriving DecidableEq, Repr

/-- The families of node kinds whose content is checked alike. -/
inductive Category where
  | terminal
  | comment
  | condition
  | action
  | sequence
  | parallel
  | variable
  | event
  | custom
  deriving DecidableEq, Repr

def Category.name : Category → String
  | .terminal => "terminal"
  | .comment => "comment"
  | .condition => "condition"
  | .action => "action"
  | .sequence => "sequence"
  | .parallel => "parallel"
  | .variable => "variable"
  | .event => "event"
  | .custom => "custom"

def Category.all : List Category :=
  [.terminal, .comment, .condition, .action, .sequence, .parallel, .variable, .event, .custom]

namespace NodeKind

def tag : NodeKind → String
  | start => "start"
  | finish => "end"
  | comment => "comment"
  | condition => "condition"
  | variableCheck => "variable-check"
  | variableSet => "variable-set"
  | mathOperation => "math-operation"
  | output => "output"
  | loop => "loop"
  | andGate => "and-gate"
  | orGate => "or-gate"
  | random => "random"
  | timer => "timer"
  | input => "input"
  | switch => "switch"
  | custom => "custom"

def all : List NodeKind :=
  [start, finish, comment, condition, variableCheck, variableSet, mathOperation, output, loop,
   andGate, orGate, random, timer, input, switch, custom]

def category : NodeKind → Category
  | start | finish => .terminal
  | comment => .comment
  | condition | variableCheck => .condition
  | variableSet | mathOperation | output => .action
  | loop => .sequence
  | andGate | orGate => .parallel
  | random | timer | input => .variable
  | switch => .event
  | custom => .custom

def ofTag? (tag : String) : Option NodeKind := all.find? fun k => k.tag == tag

end NodeKind

def Category.ofTag? (tag : String) : Option Category := (NodeKind.ofTag? tag).map (·.category)

/-- The tags of nodes whose outgoing wires carry the flow of the story only. -/
def flowTags : List String := [NodeKind.output.tag, NodeKind.variableSet.tag]

/-- The wire types that may leave a condition. -/
def conditionWireTypes : List String := ["boolean", "condition"]

end PlotGraph
