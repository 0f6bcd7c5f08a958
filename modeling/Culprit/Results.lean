import Culprit.Flags

/-!
Recorded test runs. A run that diverged from the trusted configuration is flagged; only flagged
runs are worth a bisection.
-/

namespace Culprit

structure ResultRow where
  /-- Empty for the default test. -/
  name : String
  precision : String
  compiler : String
  optimization : String
  switches : String
  /-- How far the run was off; nothing when it was not compared. -/
  comparison? : Option Float
deriving DecidableEq, Repr

namespace ResultRow

/-- A comparison that is no number is not zero either. -/
def isFlagged (r : ResultRow) : Bool :=
  match r.comparison? with
  | none => false
  | some c => c != 0

def flags (r : ResultRow) : Flags :=
  ⟨r.compiler, r.optimization, splitSwitches r.switches⟩

def testOr (r : ResultRow) (standard : String) : String :=
  if r.name.isEmpty then standard else r.name

end ResultRow

/-- The flagged rows with their positions. -/
def flaggedRows (rows : List ResultRow) : List (ResultRow × Nat) :=
  rows.zipIdx.filter fun p => p.1.isFlagged

@[simp] theorem flaggedRows_nil : flaggedRows [] = [] := rfl

end Culprit
