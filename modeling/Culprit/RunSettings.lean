import Culprit.Path
import Culprit.Process
import Culprit.Text.Substitute

/-!
How the test executable is started. Three placeholders in its arguments stand for the precision,
the test and the directory it runs in; they are replaced one after the other.
-/

namespace Culprit

/-- What a bisection runs. -/
structure Target where
  test : String
  precision : String
deriving DecidableEq, Repr, Inhabited

def Target.display (t : Target) : String :=
  t.test ++ "[" ++ t.precision ++ "]"

structure RunSettings where
  args : List String
  launcher : List String
  /-- Seconds; zero sets no limit. -/
  timeout : Nat
  /-- The file that holds the output to compare, instead of what the test prints. -/
  outputFile? : Option String
  /-- Whether several runs of the test may go on at the same time. -/
  reentrant : Bool
deriving DecidableEq, Repr

namespace RunSettings

def precisionMark : String := "\x7bprecision\x7d"

def testMark : String := "\x7btest\x7d"

def workdirMark : String := "\x7bworkdir\x7d"

def standard : RunSettings where
  args := ["--precision", precisionMark, testMark]
  launcher := []
  timeout := 600
  outputFile? := none
  reentrant := true

def fill (target : Target) (workdir template : String) : String :=
  Text.substitute workdirMark workdir
    (Text.substitute testMark target.test
      (Text.substitute precisionMark target.precision template))

/-- The test runs inside `workdir`; its executable is named absolutely. -/
def invocation (s : RunSettings) (cwd executable : String) (target : Target) (workdir : String) :
    Invocation where
  program := Path.absolute cwd executable
  args := s.args.map (fill target workdir)
  cwd? := some workdir
  launcher := s.launcher

end RunSettings

end Culprit
