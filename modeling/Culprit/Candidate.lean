import Culprit.Sha256

/-!
What a search can blame: a source unit of the project, or a linkable symbol of one unit. Every
candidate has a key, the text by which partitions name it.
-/

namespace Culprit

class Candidate (α : Type) where
  key : α → String
  display : α → String

/-- One source file, named by its path below the source directory. -/
structure SourceUnit where
  path : String
deriving DecidableEq, Repr, Inhabited

namespace SourceUnit

/-- The path with every backslash turned into a slash. -/
def key (u : SourceUnit) : String :=
  String.ofList (u.path.toList.map fun c => if c = '\\' then '/' else c)

def stemChar (c : Char) : Char :=
  if c.isAlphanum then c else '_'

/-- The name of the unit's object file without its ending. Different keys can flatten to the same
text, so the first digits of the key's digest follow. -/
def objectStem (u : SourceUnit) : String :=
  String.ofList
    (u.key.toList.map stemChar ++ '_' :: (Sha256.hexOfText u.key).toList.take 8)

instance : Candidate SourceUnit := ⟨key, path⟩

end SourceUnit

/-- A global function of one unit, under the name that the linker sees. The signature is the name
in the source language. -/
structure LinkSymbol where
  unit : String
  name : String
  signature : String
  file? : Option String
  line? : Option Nat
deriving DecidableEq, Repr, Inhabited

namespace LinkSymbol

def ofName (unit name : String) : LinkSymbol :=
  ⟨unit, name, name, none, none⟩

/-- A line without a file says nothing. -/
def location (s : LinkSymbol) : String :=
  match s.file?, s.line? with
  | some file, some line => file ++ ":" ++ toString line
  | some file, none => file
  | none, _ => s.unit

def display (s : LinkSymbol) : String :=
  s.location ++ " " ++ s.signature

instance : Candidate LinkSymbol := ⟨name, display⟩

end LinkSymbol

def keysOf {α : Type} [Candidate α] (cs : List α) : List String :=
  cs.map Candidate.key

@[simp] theorem key_sourceUnit (u : SourceUnit) : Candidate.key u = u.key := rfl

@[simp] theorem key_linkSymbol (s : LinkSymbol) : Candidate.key s = s.name := rfl

@[simp] theorem length_keysOf {α : Type} [Candidate α] (cs : List α) :
    (keysOf cs).length = cs.length := by
  simp [keysOf]

end Culprit
