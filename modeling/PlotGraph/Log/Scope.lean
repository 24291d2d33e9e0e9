import PlotGraph.Log.Setup

/-!
# Fields that are bound for a while

While fields are bound, every event has them unless it names them itself. They are bound for the
length of an action, and however that ends, afterwards only those are bound that were before.
-/

namespace PlotGraph.Log

/-- Logging, with the fields that are bound. -/
structure Scope where
  setup : Setup := {}
  bound : List (String × Value) := []
  deriving Inhabited

namespace Scope

def emit (s : Scope) (e : Event) : Scope := { s with setup := s.setup.emit (e.bind s.bound) }

def emitAll (s : Scope) (es : List Event) : Scope := es.foldl emit s

/-- Bind fields for the length of an action. -/
def within {α : Type} (fields : List (String × Value)) (act : Scope → α × Scope) (s : Scope) :
    α × Scope :=
  let (a, t) := act { s with bound := fields.foldl (fun fs f => Pairs.put f.1 f.2 fs) s.bound }
  (a, { t with bound := s.bound })

/-- Within a scope the events are those with what is bound. -/
theorem setup_emitAll (es : List Event) (s : Scope) :
    (s.emitAll es).setup = s.setup.emitAll (es.map (Event.bind s.bound)) := by
  induction es generalizing s with
  | nil => rfl
  | cons e rest ih => exact ih (s.emit e)

end Scope
end PlotGraph.Log
