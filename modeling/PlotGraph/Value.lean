import PlotGraph.Mapping
import PlotGraph.Number.Binary64

/-!
# Values of a document

What a JSON document holds. Whole numbers are unbounded and kept apart from floating-point
numbers; the fields of an object stand in the order in which they were written.
Equality of values is decidable (`same_iff`).
-/

namespace PlotGraph

/-- A value of a JSON document. -/
inductive Value where
  | null
  | bool (b : Bool)
  | int (i : Int)
  | float (x : Binary64)
  | str (s : String)
  | arr (items : List Value)
  | obj (fields : List (String × Value))
  deriving Inhabited

namespace Value

/-! ### Equality -/

mutual

/-- Whether two values are the same, kind by kind and in the same order. -/
def same : Value → Value → Bool
  | null, null => true
  | bool a, bool b => a == b
  | int a, int b => a == b
  | float a, float b => a == b
  | str a, str b => a == b
  | arr as, arr bs => sameItems as bs
  | obj as, obj bs => sameFields as bs
  | _, _ => false

def sameItems : List Value → List Value → Bool
  | [], [] => true
  | a :: as, b :: bs => same a b && sameItems as bs
  | _, _ => false

def sameFields : List (String × Value) → List (String × Value) → Bool
  | [], [] => true
  | (j, a) :: as, (k, b) :: bs => j == k && same a b && sameFields as bs
  | _, _ => false

end

mutual

/-- Values that are the same are equal. -/
theorem eq_of_same : ∀ {a b : Value}, same a b = true → a = b
  | null, b, h => by cases b <;> simp_all [same]
  | bool _, b, h => by cases b <;> simp_all [same]
  | int _, b, h => by cases b <;> simp_all [same]
  | float _, b, h => by cases b <;> simp_all [same]
  | str _, b, h => by cases b <;> simp_all [same]
  | arr as, b, h => by
    cases b with
    | arr bs =>
      have e : as = bs := eq_of_sameItems (by simpa [same] using h)
      rw [e]
    | _ => simp [same] at h
  | obj as, b, h => by
    cases b with
    | obj bs =>
      have e : as = bs := eq_of_sameFields (by simpa [same] using h)
      rw [e]
    | _ => simp [same] at h

theorem eq_of_sameItems : ∀ {as bs : List Value}, sameItems as bs = true → as = bs
  | [], bs, h => by cases bs <;> simp_all [sameItems]
  | a :: as, bs, h => by
    cases bs with
    | nil => simp [sameItems] at h
    | cons b bs =>
      simp only [sameItems, Bool.and_eq_true] at h
      rw [eq_of_same h.1, eq_of_sameItems h.2]

theorem eq_of_sameFields :
    ∀ {as bs : List (String × Value)}, sameFields as bs = true → as = bs
  | [], bs, h => by cases bs <;> simp_all [sameFields]
  | (j, a) :: as, bs, h => by
    cases bs with
    | nil => simp [sameFields] at h
    | cons b bs =>
      simp only [sameFields, Bool.and_eq_true, beq_iff_eq] at h
      rw [h.1.1, eq_of_same h.1.2, eq_of_sameFields h.2]

end

mutual

/-- A value is the same as itself. -/
theorem same_self : ∀ a : Value, same a a = true
  | null | bool _ | int _ | float _ | str _ => by simp [same]
  | arr as => by simpa [same] using sameItems_self as
  | obj as => by simpa [same] using sameFields_self as

theorem sameItems_self : ∀ as : List Value, sameItems as as = true
  | [] => rfl
  | a :: as => by simp [sameItems, same_self a, sameItems_self as]

theorem sameFields_self : ∀ as : List (String × Value), sameFields as as = true
  | [] => rfl
  | (_, a) :: as => by simp [sameFields, same_self a, sameFields_self as]

end

/-- To be the same is to be equal. -/
theorem same_iff (a b : Value) : same a b = true ↔ a = b :=
  ⟨eq_of_same, fun h => h ▸ same_self a⟩

instance : DecidableEq Value := fun a b => decidable_of_iff _ (same_iff a b)

/-! ### Looking at a value -/

def field? (name : String) : Value → Option Value
  | obj fields => Pairs.lookup name fields
  | _ => none

/-- A value counts as given unless it is null, false, zero or empty. -/
def isGiven : Value → Bool
  | null => false
  | bool b => b
  | int i => i != 0
  | float x => !x.isZero
  | str s => !s.isEmpty
  | arr items => !items.isEmpty
  | obj fields => !fields.isEmpty

def isObject : Value → Bool
  | obj _ => true
  | _ => false

def kindWord : Value → String
  | null => "NoneType"
  | bool _ => "bool"
  | int _ => "int"
  | float _ => "float"
  | str _ => "str"
  | arr _ => "list"
  | obj _ => "dict"

/-! ### Fields without a value -/

/-- A field that is left out where it has no value. -/
def optionalField (name : String) : Option Value → List (String × Value)
  | none => []
  | some v => [(name, v)]

/-- A text field that is left out where it has no value. -/
def optionalText (name : String) (s : Option String) : List (String × Value) :=
  optionalField name (s.map .str)

/-- The fields of an object are looked up by their names. -/
@[simp] theorem field?_obj (name : String) (fields : List (String × Value)) :
    (obj fields).field? name = Pairs.lookup name fields := rfl

/-- An optional field is found under its own name if it has a value. -/
@[simp] theorem lookup_optionalField (name other : String) (value : Option Value) :
    Pairs.lookup other (optionalField name value) = if name = other then value else none := by
  cases value with
  | none => simp [optionalField, Pairs.lookup]
  | some v => simp [optionalField, Pairs.lookup]

/-- A text that may be missing is found under its name if it is there. -/
@[simp] theorem lookup_optionalText (name other : String) (s : Option String) :
    Pairs.lookup other (optionalText name s) = if name = other then s.map str else none :=
  lookup_optionalField name other (s.map str)

end Value
end PlotGraph
