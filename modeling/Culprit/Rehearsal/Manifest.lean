import Culprit.Json.Decode
import Culprit.Partition

/-!
A manifest says what a rehearsed build would have compiled with the variant flags: whole units, or
some symbols of units.
-/

namespace Culprit.Rehearsal

structure Manifest where
  trusted : String
  variant : String
  /-- Ascending, without repetition. -/
  units : List String
  /-- Symbols by unit key; units and symbols ascending, without repetition. -/
  symbols : List (String × List String)
deriving DecidableEq, Repr

namespace Manifest

def fileName : String := "manifest.json"

def of (p : Partition) (trusted variant : String) : Manifest :=
  match p.scope with
  | .units => ⟨trusted, variant, Partition.sortedKeys p.variant, []⟩
  | .symbols unit =>
    ⟨trusted, variant, [], [((SourceUnit.mk unit).key, Partition.sortedKeys p.variant)]⟩

def symbolsOf (m : Manifest) (unit : String) : List String :=
  (m.symbols.lookup unit).getD []

def isVariantUnit (m : Manifest) (unit : String) : Bool :=
  unit ∈ m.units

/-- A symbol is variant through its unit or on its own. -/
def isVariantSymbol (m : Manifest) (unit symbol : String) : Bool :=
  m.isVariantUnit unit || symbol ∈ m.symbolsOf unit

def isAllTrusted (m : Manifest) : Bool :=
  m.units.isEmpty && m.symbols.all fun p => p.2.isEmpty

def toJson (m : Manifest) : Json :=
  .object [
    ("trusted", .string m.trusted),
    ("variant", .string m.variant),
    ("variant_units", .array (m.units.map .string)),
    ("variant_symbols", .object (m.symbols.map fun p => (p.1, .array (p.2.map .string))))]

def sortedTexts? (j : Json) : Option (List String) :=
  (Json.array? Json.string? j).map Partition.sortedKeys

/-- Of two entries for one unit the later counts. -/
def symbols? : Json → Option (List (String × List String))
  | .object fields => do
    let pairs ← fields.mapM fun p => (sortedTexts? p.2).map fun s => (p.1, s)
    pure ((Partition.sortedKeys (pairs.map (·.1))).filterMap fun k =>
      (pairs.reverse.lookup k).map fun s => (k, s))
  | _ => none

def ofJson? (j : Json) : Option Manifest := do
  let f ← j.fields? ["trusted", "variant", "variant_units", "variant_symbols"]
  let trusted ← f.required? "trusted" Json.string?
  let variant ← f.required? "variant" Json.string?
  let units ← f.required? "variant_units" sortedTexts?
  let symbols ← f.required? "variant_symbols" symbols?
  pure ⟨trusted, variant, units, symbols⟩

end Manifest

end Culprit.Rehearsal
