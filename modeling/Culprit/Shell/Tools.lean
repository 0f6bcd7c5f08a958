import Culprit.Shell.Test
import Culprit.Shell.Tools.Files
import Culprit.Shell.Tools.Text

/-!
The tools of the machine by name.
-/

namespace Culprit.Shell.Tools

open Act

def environment : Act Unit := do
  let f ← frame
  write 1 (String.join (f.given.map fun v => v.1 ++ "=" ++ v.2 ++ "\n"))

def printenv (args : List String) : Act Nat := do
  match args with
  | [] => do
    environment
    pure 0
  | names => do
    let given := (← frame).given
    names.forM fun n => match given.lookup n with
      | some value => write 1 (value ++ "\n")
      | none => pure ()
    pure (if names.all fun n => (given.lookup n).isSome then 0 else 1)

/-- A condition, as a program of its own. -/
def test (args : List String) : Act Nat := do
  match ← result (Test.holds args) with
  | .ok v => pure (if v then 0 else 1)
  | .error .fault => pure 2
  | .error f => throw f

/-- With the closing bracket. -/
def bracket (args : List String) : Act Nat :=
  if args.getLast? = some "]" then test args.dropLast
  else do
    complainOf "[" ("missing " ++ quote "]")
    pure 2

def uname (args : List String) : Act Nat :=
  withOptions "uname" "s" "" args fun _ => do
    write 1 "Linux\n"
    pure 0

def workingDirectory (args : List String) : Act Nat := do
  if args.any fun a => a.toList.head? ≠ some '-' then
    complainOf "pwd" "ignoring non-option arguments"
  write 1 ((← frame).cwd ++ "\n")
  pure 0

/-- Every tool that is a program. -/
def programs : List (String × (List String → Act Nat)) :=
  [("cat", cat), ("chmod", chmod), ("wc", wc), ("tr", tr), ("head", head), ("tail", tail),
    ("sleep", sleep), ("mkdir", mkdir), ("rm", rm), ("rmdir", rmdir), ("touch", touch),
    ("cp", cpOrMv "cp" false), ("mv", cpOrMv "mv" true), ("ls", ls), ("basename", basename),
    ("dirname", dirname), ("seq", seq), ("yes", yes), ("tee", tee), ("sort", sort), ("echo", echo),
    ("printf", printf), ("true", fun _ => pure 0), ("false", fun _ => pure 1),
    ("test", test), ("[", bracket), ("pwd", workingDirectory), ("printenv", printenv),
    ("uname", uname)]

def program? (name : String) : Option (List String → Act Nat) :=
  programs.lookup name

end Culprit.Shell.Tools
