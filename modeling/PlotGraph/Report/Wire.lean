import PlotGraph.Report
import PlotGraph.Value

/-!
# The wire shape of reports

The value in which the editor receives a report. A field without a value is left out; an
empty text is kept.
-/

namespace PlotGraph

open Value (optionalField optionalText)

def Fix.toValue (f : Fix) : Value :=
  .obj [("description", .str f.description), ("autoFixable", .bool f.autoFixable)]

def Defect.toValue (d : Defect) : Value :=
  .obj ([("code", .str d.code), ("message", .str d.message),
      ("plainMessage", .str d.plainMessage)]
    ++ optionalText "nodeId" d.nodeId
    ++ optionalText "connectionId" d.connectionId
    ++ [("severity", .str d.severity.word)]
    ++ optionalField "fix" (d.fix.map (·.toValue)))

def Warning.toValue (w : Warning) : Value :=
  .obj ([("code", .str w.code), ("message", .str w.message),
      ("plainMessage", .str w.plainMessage)]
    ++ optionalText "nodeId" w.nodeId
    ++ optionalText "connectionId" w.connectionId
    ++ optionalText "suggestion" w.suggestion)

def Note.toValue (n : Note) : Value :=
  .obj ([("code", .str n.code), ("message", .str n.message)] ++ optionalText "nodeId" n.nodeId)

def Suggestion.toValue (s : Suggestion) : Value :=
  .obj ([("type", .str s.kind.word), ("message", .str s.message)]
    ++ optionalText "nodeId" s.nodeId
    ++ optionalText "action" s.action)

def Report.toValue (r : Report) : Value :=
  .obj [
    ("valid", .bool r.valid),
    ("errors", .arr (r.errors.map (·.toValue))),
    ("warnings", .arr (r.warnings.map (·.toValue))),
    ("info", .arr (r.notes.map (·.toValue))),
    ("suggestions", .arr (r.suggestions.map (·.toValue)))]

end PlotGraph
