/-!
# Line ends

A text may end its lines with a line feed, a carriage return, or both in this order. After
`normalize` every line ends with a line feed.
-/

namespace PlotGraph.Text.Lines

/-- Write every line end as one line feed. -/
def normalize : List Char → List Char
  | [] => []
  | '\r' :: '\n' :: rest => '\n' :: normalize rest
  | c :: rest => (if c = '\r' then '\n' else c) :: normalize rest

end PlotGraph.Text.Lines
