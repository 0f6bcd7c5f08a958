import Culprit.Toml.Table

/-!
Reading records out of TOML values. A record is a table whose unknown keys are ignored, or the list
of its fields in order; a moment is a record without any known field.
-/

namespace Culprit.Toml

/-- The fields of a record that are present. -/
abbrev Fields := List (String × Toml)

def fields? (known : List String) : Toml → Option Fields
  | .table fields => some fields
  | .array items => some (known.zip items)
  | .moment _ => some []
  | _ => none

def string? : Toml → Option String
  | .string s => some s
  | _ => none

def bool? : Toml → Option Bool
  | .bool b => some b
  | _ => none

def natural? : Toml → Option Nat
  | .integer n => if 0 ≤ n then some n.toNat else none
  | _ => none

/-- An integer is a real too. -/
def real? : Toml → Option Float
  | .real x => some x
  | .integer n => some (if n < 0 then -(Float.ofNat n.natAbs) else Float.ofNat n.natAbs)
  | _ => none

def array? {α : Type} (item : Toml → Option α) : Toml → Option (List α)
  | .array items => items.mapM item
  | _ => none

/-- A word, or a table with that one key and nothing in it. -/
def word? : Toml → Option String
  | .string s => some s
  | .table [(s, .table [])] => some s
  | .table [(s, .array [])] => some s
  | _ => none

def oneOf? {α : Type} (values : List α) (name : α → String) (t : Toml) : Option α := do
  let s ← word? t
  values.find? fun v => name v = s

namespace Fields

def required? {α : Type} (f : Fields) (key : String) (item : Toml → Option α) : Option α :=
  match f.lookup key with
  | some t => item t
  | none => none

/-- A missing field has a value of its own; a field that is present must be read. -/
def withDefault? {α : Type} (f : Fields) (key : String) (standard : α) (item : Toml → Option α) :
    Option α :=
  match f.lookup key with
  | some t => item t
  | none => some standard

/-- A missing record has no fields. -/
def record? (f : Fields) (key : String) (known : List String) : Option Fields :=
  f.withDefault? key [] (fields? known)

end Fields

end Culprit.Toml
