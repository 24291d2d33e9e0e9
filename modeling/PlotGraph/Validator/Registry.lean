import PlotGraph.Validator.Custom

/-!
# Registered validators

A validator holds nothing but its registrations. They stand in the order in which they
run: by descending priority, and of equal priorities the earlier registration first. The
same name may be registered several times; to unregister a name removes all of them.

Every registration has a number of its own, by which a run finds it again after the list
has changed.
-/

namespace PlotGraph

structure Registration where
  number : Nat
  validator : CustomValidator

namespace Registration

def name (r : Registration) : String := r.validator.card.name

def priority (r : Registration) : Int := r.validator.card.priority

/-- A registration after a call. -/
def called (r : Registration) (subject : Subject) : Registration :=
  { r with validator := { r.validator with behaviour := r.validator.behaviour.next subject } }

/-- Put a registration behind all those that run no later than it. -/
def insertInOrder (new : Registration) : List Registration → List Registration
  | [] => [new]
  | r :: rest =>
    if new.priority ≤ r.priority then r :: insertInOrder new rest else new :: r :: rest

/-- To insert a registration adds it and keeps all others. -/
theorem perm_insertInOrder (new : Registration) (rs : List Registration) :
    (insertInOrder new rs).Perm (new :: rs) := by
  induction rs with
  | nil => exact List.Perm.refl _
  | cons r rest ih =>
    simp only [insertInOrder]
    split
    · exact (ih.cons r).trans (List.Perm.swap new r rest)
    · exact List.Perm.refl _

end Registration

/-- A validator: its registrations in run order, and the number of the next one. -/
structure Validator where
  registrations : List Registration := []
  next : Nat := 0
  deriving Inhabited

namespace Validator

def register (v : Validator) (c : CustomValidator) : Validator where
  registrations := Registration.insertInOrder ⟨v.next, c⟩ v.registrations
  next := v.next + 1

/-- The validator with the given custom validators, registered one after the other. -/
def ofList (cs : List CustomValidator) : Validator := cs.foldl register {}

def unregister (v : Validator) (name : String) : Validator :=
  { v with registrations := v.registrations.filter fun r => r.name != name }

def isRegistered (v : Validator) (name : String) : Bool :=
  v.registrations.any fun r => r.name == name

def customValidators (v : Validator) : List CustomValidator :=
  v.registrations.map (·.validator)

def count (v : Validator) : Nat := v.registrations.length

end Validator
end PlotGraph
