import PlotGraph.Graph.Basic
import PlotGraph.Report

/-!
# Custom validators

A caller may add checks of its own. A custom validator is called with the graph or with
each node, and answers with a partial report, with nothing, with something that is no
report, or by failing. It may also act on its surroundings: cancel the run, unregister
validators, or register another one.

What it does may depend on what it is called with and on the calls before. It registers at
most one other in a call, and not for ever: in the end it does the same every time.
-/

namespace PlotGraph

/-- What a custom validator is called with. -/
inductive Subject where
  | graph (g : Graph)
  | node (n : Node)

def Subject.id : Subject → String
  | .graph g => g.id
  | .node n => n.id

/-- What a custom validator answers. -/
inductive Outcome where
  | nothing
  | report (r : Report)
  | otherValue (kind : String)
  | failure (message : String)
  deriving DecidableEq, Repr

/-- Whether a custom validator is called with the graph or with each node. -/
inductive Scope where
  | graph
  | node
  deriving DecidableEq, Repr

/-- What is known of a custom validator: higher priorities run first. -/
structure Card where
  name : String
  priority : Int := 0
  category : Option String := none
  scope : Scope := .graph
  deriving DecidableEq, Repr

/-- Something that a custom validator does to its surroundings. -/
inductive Deed where
  /-- Cancel the run. -/
  | cancel
  /-- Unregister the validators with a name. -/
  | unregister (name : String)
  deriving DecidableEq, Repr

/-- What a custom validator does in a call, and in those that follow. -/
inductive Behaviour where
  /-- Only answer, every time. -/
  | answer (respond : Subject → Outcome)
  /-- Do something and answer, every time. -/
  | always (deeds : Subject → List Deed) (respond : Subject → Outcome)
  /-- Do something and answer, this time. -/
  | once (deeds : Subject → List Deed) (respond : Subject → Outcome) (next : Behaviour)
  /-- Register another custom validator, after some deeds and before others, and answer, this
  time. -/
  | register (before : Subject → List Deed) (card : Card) (behaviour : Behaviour)
      (after : Subject → List Deed) (respond : Subject → Outcome) (next : Behaviour)
  /-- Behave in one of two ways, depending on what the call is about. -/
  | choose (test : Subject → Bool) (yes no : Behaviour)

namespace Behaviour

def respond : Behaviour → Subject → Outcome
  | answer respond, subject => respond subject
  | always _ respond, subject => respond subject
  | once _ respond _, subject => respond subject
  | register _ _ _ _ respond _, subject => respond subject
  | choose test yes no, subject => if test subject then yes.respond subject else no.respond subject

/-- What a call leaves for the next one. -/
def next : Behaviour → Subject → Behaviour
  | answer respond, _ => answer respond
  | always deeds respond, _ => always deeds respond
  | once _ _ next, _ => next
  | register _ _ _ _ _ next, _ => next
  | choose test yes no, subject => if test subject then yes.next subject else no.next subject

end Behaviour

structure CustomValidator where
  card : Card
  behaviour : Behaviour

namespace Outcome

/-- Why an answer counts as a failure, if it does. -/
def failure? : Outcome → Option String
  | .nothing | .report _ => none
  | .otherValue kind => some ("returned " ++ kind ++ ", expected LogicValidationResult")
  | .failure message => some message

def findings : Outcome → Report
  | .report r => r
  | _ => {}

end Outcome

end PlotGraph
