import Culprit.Flags
import Culprit.Process
import Culprit.Trial

/-!
Everything outside the search: the build, the programs it starts, the files, the comparison, the
log and the request to stop. Each is an action on a state of which the library knows nothing, so
a statement about every `Lab` is a statement about every behaviour of the outside.

`cancelled` is an action too: the request to stop can arrive between any two looks at it.
-/

namespace Culprit

/-- An action that can fail and keeps the state it has reached. -/
abbrev Attempt (σ α : Type) := ExceptT Error (StateM σ) α

namespace Attempt

def of {σ α : Type} (r : Except Error α) : Attempt σ α :=
  ExceptT.mk (pure r)

/-- The action with its error made a value. -/
def result {σ α : Type} (a : Attempt σ α) : StateM σ (Except Error α) :=
  a.run

@[simp] theorem run_of {σ α : Type} (r : Except Error α) (s : σ) :
    ((of r : Attempt σ α).run).run s = (r, s) := rfl

end Attempt

structure BuildRequest where
  partition : Partition
  trusted : Flags
  variant : Flags
  /-- A directory that belongs to this build alone. -/
  workdir : String
  jobs : Nat
  /-- Seconds for each command; zero sets no limit. -/
  timeout : Nat
deriving DecidableEq, Repr

structure Built where
  executable : String
  ms : Nat
  objects : Nat
deriving DecidableEq, Repr

/-- Runs a program for at most so many milliseconds, where zero sets no limit. An error means that
it was not started. -/
abbrev Runner (σ : Type) := Invocation → Nat → Attempt σ Ended

/-- How executables come about. -/
structure Pipeline (σ : Type) where
  name : String
  units : Attempt σ (List SourceUnit)
  /-- The global functions of a unit compiled with the given flags in a scratch directory. -/
  symbols : SourceUnit → Flags → String → Nat → Attempt σ (List LinkSymbol)
  build : BuildRequest → Attempt σ Built
  compilerOf : Flags → String

structure Comparator where
  name : String
  /-- Zero when the candidate output is as good as the baseline output. -/
  compare : String → String → Except Error Float

structure Lab (σ : Type) where
  cancelled : StateM σ Bool
  pipeline : Pipeline σ
  runner : Runner σ
  comparator : Comparator
  readText : String → StateM σ (Except SystemError String)
  /-- Makes a fresh directory whose name starts with the given text, and tells its path. -/
  makeDirectory : String → Attempt σ String
  removeDirectory : String → Attempt σ Unit
  /-- Whether a directory that is no longer needed is removed. -/
  deletes : Bool
  appendLog : Trial → Attempt σ Unit
  observe : Trial → StateM σ Unit
  /-- The date and time as text. -/
  now : StateM σ String
  /-- Where relative paths start. -/
  cwd : String

end Culprit
