import Culprit.Candidate
import Culprit.Error

/-!
A partition says which candidates one build compiles with the variant flags and which with the
trusted ones. Its signature identifies it whatever the order of the keys.
-/

namespace Culprit

/-- What the keys of a partition name: the units of the project, or the symbols of one unit while
all other units stay trusted. -/
inductive Scope where
  | units
  | symbols (unit : String)
deriving DecidableEq, Repr, Inhabited

namespace Scope

def display : Scope → String
  | .units => "files"
  | .symbols unit => "symbols of " ++ unit

/-- The form that enters a signature; the quoted path keeps it on one line. -/
def identity : Scope → String
  | .units => "Units"
  | .symbols unit => "Symbols \x7b unit: " ++ Text.Escaped.quote unit ++ " \x7d"

end Scope

structure Partition where
  scope : Scope
  variant : List String
  trusted : List String
deriving DecidableEq, Repr, Inhabited

namespace Partition

/-- Every key must be a candidate and must not be among `seen` or earlier in the list. -/
def check (scope : Scope) (candidates seen : List String) : List String → Except Error Unit
  | [] => .ok ()
  | key :: rest =>
    if key ∉ candidates then .error (.notACandidate key scope.display)
    else if key ∈ seen then .error (.assignedTwice key)
    else check scope candidates (key :: seen) rest

/-- Exactly `variant` is variant; the other candidates are trusted, in their order. -/
def of (scope : Scope) (candidates variant : List String) : Except Error Partition :=
  match check scope candidates [] variant with
  | .error e => .error e
  | .ok () => .ok ⟨scope, variant, candidates.filter (· ∉ variant)⟩

def allTrusted (scope : Scope) (candidates : List String) : Partition :=
  ⟨scope, [], candidates⟩

def isVariant (p : Partition) (key : String) : Bool :=
  key ∈ p.variant

/-- The distinct keys in ascending order. -/
def sortedKeys (keys : List String) : List String :=
  (keys.mergeSort (· ≤ ·)).eraseDups

def canonicalLine (tag key : String) : String :=
  tag ++ ":" ++ key ++ "\n"

/-- The scope, the variant keys and the trusted keys, one a line. -/
def canonical (p : Partition) : String :=
  String.join (p.scope.identity :: "\n" ::
    (sortedKeys p.variant).map (canonicalLine "v") ++
      (sortedKeys p.trusted).map (canonicalLine "t"))

def signature (p : Partition) : String :=
  Sha256.hexOfText p.canonical

def describe (p : Partition) : String :=
  p.scope.display ++ " variant=[" ++ String.intercalate " " p.variant ++ "] (" ++
    toString p.variant.length ++ "/" ++ toString (p.variant.length + p.trusted.length) ++ ")"

@[simp] theorem of_nil (scope : Scope) (candidates : List String) :
    of scope candidates [] = .ok (allTrusted scope candidates) := by
  simp [of, check, allTrusted]

end Partition

end Culprit
