import Culprit.Text.Lines
import Culprit.Text.ShellWords

/-!
A program call and how it ended.
-/

namespace Culprit

/-- The launcher, such as a wrapper that starts several processes, comes before the program. -/
structure Invocation where
  program : String
  args : List String
  cwd? : Option String
  launcher : List String
deriving DecidableEq, Repr, Inhabited

namespace Invocation

def argv (i : Invocation) : List String :=
  i.launcher ++ i.program :: i.args

def commandLine (i : Invocation) : String :=
  Text.ShellWords.join i.argv

theorem argv_ne_nil (i : Invocation) : i.argv ≠ [] := by
  simp [argv]

end Invocation

inductive Exit where
  | code (code : Int)
  | signaled
  | timedOut
  | cancelled
deriving DecidableEq, Repr

def Exit.display : Exit → String
  | .code n => "exit code " ++ toString n
  | .signaled => "killed by signal"
  | .timedOut => "timed out"
  | .cancelled => "cancelled"

/-- A program that ended, with what it printed and how long it ran. -/
structure Ended where
  exit : Exit
  stdout : String
  stderr : String
  ms : Nat
deriving DecidableEq, Repr

namespace Ended

def success (e : Ended) : Bool :=
  e.exit = .code 0

/-- The last five lines of the error output. -/
def tail (e : Ended) : List String :=
  let all := Text.lines e.stderr
  all.drop (all.length - 5)

def summary (e : Ended) : String :=
  if e.tail.isEmpty then e.exit.display
  else e.exit.display ++ ": " ++ String.intercalate " | " e.tail

theorem length_tail_le (e : Ended) : e.tail.length ≤ 5 := by
  simp [tail]
  omega

end Ended

end Culprit
