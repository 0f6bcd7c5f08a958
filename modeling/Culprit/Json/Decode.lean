import Culprit.Json.Number
import Culprit.Json.Value

/-!
Reading records out of JSON values. Unknown fields are ignored, a known field may come only once,
and a record may also be written as the list of its fields in order. Numbers keep their range: an
integer is not read from a number with a point, and a real accepts an integer.
-/

namespace Culprit.Json

/-- The fields of a record that are present. -/
abbrev Fields := List (String × Json)

def countKey (fields : Fields) (key : String) : Nat :=
  (fields.filter (·.1 = key)).length

/-- A list must go on at least to the last field that has to be there. -/
def fieldsFrom? (needed : Nat) (known : List String) : Json → Option Fields
  | .object fields => if known.all fun k => countKey fields k ≤ 1 then some fields else none
  | .array items =>
    if needed ≤ items.length ∧ items.length ≤ known.length then some (known.zip items) else none
  | _ => none

def fields? (known : List String) : Json → Option Fields :=
  fieldsFrom? 0 known

def string? : Json → Option String
  | .string s => some s
  | _ => none

def bool? : Json → Option Bool
  | .bool b => some b
  | _ => none

/-- An integer from zero up to but not including `bound`. -/
def natural? (bound : Nat) : Json → Option Nat
  | .integer n => if 0 ≤ n ∧ n < bound then some n.toNat else none
  | _ => none

/-- A number too large for a double was read as an infinity. -/
def real? : Json → Option Float
  | .real x => if x.isInf then none else some x
  | .integer n => Number.ofInteger? n
  | _ => none

def array? {α : Type} (item : Json → Option α) : Json → Option (List α)
  | .array items => items.mapM item
  | _ => none

/-- Null stands for nothing. -/
def optional? {α : Type} (item : Json → Option α) : Json → Option (Option α)
  | .null => some none
  | j => (item j).map some

/-- The text forms of a word among several; an object with that one key and a null is the same. -/
def word? : Json → Option String
  | .string s => some s
  | .object [(s, .null)] => some s
  | _ => none

def oneOf? {α : Type} (values : List α) (name : α → String) (j : Json) : Option α := do
  let s ← word? j
  values.find? fun v => name v = s

namespace Fields

def required? {α : Type} (f : Fields) (key : String) (item : Json → Option α) : Option α :=
  match f.lookup key with
  | some j => item j
  | none => none

/-- A missing field has a value of its own; a field that is present must be read. -/
def withDefault? {α : Type} (f : Fields) (key : String) (standard : α) (item : Json → Option α) :
    Option α :=
  match f.lookup key with
  | some j => item j
  | none => some standard

def optional? {α : Type} (f : Fields) (key : String) (item : Json → Option α) :
    Option (Option α) :=
  f.withDefault? key none (Json.optional? item)

end Fields

/-- The fields with a value. -/
def present (fields : List (String × Option Json)) : Json :=
  .object (fields.filterMap fun p => p.2.map fun j => (p.1, j))

end Culprit.Json
