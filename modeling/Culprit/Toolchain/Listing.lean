import Culprit.Candidate
import Culprit.Decimal.Literal
import Culprit.Text.Blank
import Culprit.Text.Lines

/-!
Reading what `nm` lists. A table of defined globals has seven columns between bars; a symbol
listing has one symbol a line, with the address, the class and the name, and after a tab the place
in the source if it is known.
-/

namespace Culprit.Toolchain

/-- A global that an object defines. -/
structure Global where
  name : String
  cls : Char
  value : Nat
  /-- The section it lives in. -/
  place : String
deriving DecidableEq, Repr

namespace Global

def isStrong (g : Global) : Bool :=
  "TDBRGS".toList.contains g.cls

def isWeak (g : Global) : Bool :=
  "WV".toList.contains g.cls

def valueBound : Nat := Nat.pow 2 64

/-- A hexadecimal number of 64 bits; a plus sign may precede it. -/
def value? (cs : List Char) : Option Nat :=
  (Text.Hex.toNat? (match cs with
    | '+' :: r => r
    | _ => cs)).filter (· < valueBound)

/-- A row with another number of columns, without a name or a class, or with a value that is no
number, is no global. -/
def ofRow? (line : List Char) : Option Global :=
  match (Text.splitAtChar '|' line).map Text.trimChars with
  | [name, value, cls, _, _, _, place] => do
    let c ← cls.head?
    let n ← value? value
    if name.isEmpty then none else some ⟨String.ofList name, c, n, String.ofList place⟩
  | _ => none

end Global

/-- The globals of a table, in its order. -/
def readGlobals (listing : String) : List Global :=
  (Text.linesOf listing.toList).filterMap Global.ofRow?

/-- One line of a symbol listing. -/
structure Listed where
  cls : Char
  name : String
  place? : Option (String × Nat)
deriving DecidableEq, Repr

namespace Listed

def lineBound : Nat := Nat.pow 2 32

/-- A file and a line number after the last colon. -/
def placeOf? (cs : List Char) : Option (String × Nat) := do
  let (file, line) ← Text.splitLast? ':' cs
  let n ← Decimal.Literal.natural? lineBound line
  pure (String.ofList file, n)

/-- Address, class and name, separated by one blank each; the name may hold further blanks. -/
def ofHead? (head : List Char) : Option (Char × String) := do
  let (_, rest) ← Text.splitFirst? ' ' (Text.trimChars head)
  let (cls, name) ← Text.splitFirst? ' ' rest
  let c ← cls.head?
  let name := Text.trimChars name
  if name.isEmpty then none else some (c, String.ofList name)

def ofLine? (line : List Char) : Option Listed :=
  match Text.splitFirst? '\t' line with
  | some (head, place) => (ofHead? head).map fun p => ⟨p.1, p.2, placeOf? (Text.trimChars place)⟩
  | none => (ofHead? line).map fun p => ⟨p.1, p.2, none⟩

/-- Code, whether it is defined strongly or weakly. -/
def isFunction (l : Listed) : Bool :=
  l.cls = 'T' || l.cls = 'W'

end Listed

def readListing (listing : String) : List Listed :=
  (Text.linesOf listing.toList).filterMap Listed.ofLine?

def linkSymbol (unit : SourceUnit) (l : Listed) (demangled? : Option Listed) : LinkSymbol where
  unit := unit.path
  name := l.name
  signature := (demangled?.map (·.name)).getD l.name
  file? := l.place?.map (·.1)
  line? := l.place?.map (·.2)

/-- The global functions of a unit. The second listing has the same symbols under their names in
the source language; symbols of equal position belong together. -/
def readSymbols (unit : SourceUnit) (mangled demangled : String) : List LinkSymbol :=
  let names := readListing demangled
  ((readListing mangled).zipIdx.filter fun p => p.1.isFunction).map fun p =>
    linkSymbol unit p.1 names[p.2]?

end Culprit.Toolchain
