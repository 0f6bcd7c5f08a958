import Culprit.Shell.Builtin.Basic
import Culprit.Shell.Printf
import Culprit.Shell.Test

/-!
Commands of the shell that print their arguments or look at them.
-/

namespace Culprit.Shell.Builtin

open Act

/-- Arguments with blanks between them. An escape can end the output at once. -/
def echoed (lineEnd : String) : List String → String
  | [] => lineEnd
  | a :: rest =>
    let (cs, stop) := Printf.unescapeText a
    String.ofList cs ++
      (if stop then "" else (if rest.isEmpty then "" else " ") ++ echoed lineEnd rest)

/-- Escapes count everywhere. -/
def echo (args : List String) : Act Nat := do
  let silent := args.head? = some "-n"
  say (if silent then echoed "" (args.drop 1) else echoed "\n" args)
  pure 0

/-- What is wrong with an argument is complained about before anything is printed. -/
def printf (args : List String) : Act Nat := do
  let (_, args) ← readOptions "" args
  match args with
  | [] => fault "usage: printf format [arg ...]"
  | format :: rest => do
    let p := Printf.format format.toList rest
    p.complaints.forM fun c => complain c.message
    match p.failure? with
    | some why => do
      complain why
      say p.output
      discard flush
      setStatus 2
      throw .fault
    | none => do
      say p.output
      pure (if p.complaints.isEmpty then 0 else 1)

def test (args : List String) : Act Nat := do
  pure (if ← Test.holds args then 0 else 1)

/-- With the closing bracket. -/
def bracket (args : List String) : Act Nat :=
  if args.getLast? = some "]" then test args.dropLast else fault "missing ]"

end Culprit.Shell.Builtin
