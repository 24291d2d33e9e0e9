/-!
# Loops that take turns

A loop takes one turn after another until none is left to take. It is given by a function
`next`, which tells for a state the turn that is taken and the state behind it. `Loop.after`
keeps the turns that have been taken, so that one can speak of what a loop has done as well as of
where it is.

What holds at the start and is kept by every turn holds after any number of turns
(`after_induction`). A loop ends if its turns go down in a well-founded relation
(`exists_ends`); nothing has to be known of how many turns that takes.
-/

namespace PlotGraph
namespace Loop

variable {σ τ : Type} {next : σ → Option (τ × σ)}

/-- Take one more turn, if there is one. -/
def advance (next : σ → Option (τ × σ)) (r : List τ × σ) : List τ × σ :=
  match next r.2 with
  | none => r
  | some (turn, t) => (r.1 ++ [turn], t)

/-- The turns that a loop takes from a state on, and the state that it comes to, up to some
number of turns. A loop that has ended stays where it is. -/
def after (next : σ → Option (τ × σ)) (s : σ) : Nat → List τ × σ
  | 0 => ([], s)
  | n + 1 => advance next (after next s n)

/-- A loop ends in a state, with these turns behind it. -/
structure Ends (next : σ → Option (τ × σ)) (s : σ) (log : List τ) (t : σ) : Prop where
  after_length : after next s log.length = (log, t)
  next_eq_none : next t = none

theorem advance_of_some {r : List τ × σ} {turn : τ} {t : σ} (h : next r.2 = some (turn, t)) :
    advance next r = (r.1 ++ [turn], t) := by
  rw [advance, h]

/-- What is read off the turns of a loop, after one more turn. -/
theorem filterMap_concat {α : Type} (f : τ → Option α) (log : List τ) (turn : τ) :
    (log ++ [turn]).filterMap f = log.filterMap f ++ (f turn).toList := by
  rw [List.filterMap_append, List.filterMap_cons]
  cases f turn with
  | none => rfl
  | some a => rfl

/-- What is read off the turns and kept in a list, the last one first, is kept by one more
turn. -/
theorem filterMap_concat_eq_reverse {α : Type} {f : τ → Option α} {log : List τ} {l : List α}
    (h : log.filterMap f = l.reverse) (turn : τ) :
    (log ++ [turn]).filterMap f = ((f turn).toList ++ l).reverse := by
  rw [filterMap_concat, h, List.reverse_append]
  cases f turn with
  | none => rfl
  | some a => rfl

/-- What holds at the start and is kept by every turn holds after any number of turns. -/
theorem after_induction {p : List τ → σ → Prop} {s : σ} (hstart : p [] s)
    (hturn : ∀ log t turn u, p log t → next t = some (turn, u) → p (log ++ [turn]) u) (n : Nat) :
    p (after next s n).1 (after next s n).2 := by
  induction n with
  | zero => exact hstart
  | succ n ih =>
      rw [after, advance]
      split
      · exact ih
      · next turn u hnext => exact hturn _ _ turn u ih hnext

/-- The first turn stands before the turns that are taken from the state behind it. -/
theorem after_succ_of_some {s t : σ} {turn : τ} (h : next s = some (turn, t)) (n : Nat) :
    after next s (n + 1) = (turn :: (after next t n).1, (after next t n).2) := by
  induction n with
  | zero => exact advance_of_some h
  | succ n ih =>
      rw [after, ih, after, advance, advance]
      cases next (after next t n).2 with
      | none => rfl
      | some last => rfl

/-- A loop that ends after a turn ends. -/
theorem Ends.cons {s t u : σ} {turn : τ} {log : List τ} (hnext : next s = some (turn, t))
    (h : Ends next t log u) : Ends next s (turn :: log) u := by
  refine ⟨?_, h.next_eq_none⟩
  rw [List.length_cons, after_succ_of_some hnext, h.after_length]

/-- A loop ends if every turn leads down in a well-founded relation. -/
theorem exists_ends {r : σ → σ → Prop} (hr : WellFounded r)
    (hdown : ∀ s turn t, next s = some (turn, t) → r t s) (s : σ) :
    ∃ log t, Ends next s log t := by
  induction s using hr.induction with
  | _ s ih =>
      cases hnext : next s with
      | none => exact ⟨[], s, rfl, hnext⟩
      | some last =>
          obtain ⟨turn, t⟩ := last
          obtain ⟨log, u, hends⟩ := ih t (hdown s turn t hnext)
          exact ⟨turn :: log, u, hends.cons hnext⟩

end Loop
end PlotGraph
