import Culprit.Shell.Builtin.Basic
import Culprit.Shell.Builtin.Jobs
import Culprit.Shell.Builtin.Names
import Culprit.Shell.Builtin.Places
import Culprit.Shell.Builtin.Printing
import Culprit.Shell.Builtin.Variables

/-!
The commands of the shell by name. Three of them carry out other commands and are found here by
name only. Four leave something out: the rest of the script, of a function or of a loop.
-/

namespace Culprit.Shell.Builtin

open Act

/-- The status that was set aside is the one to end with. -/
def exit (args : List String) : Act Nat := do
  match args with
  | [] => pure ()
  | a :: _ => do
    let n ← number a
    modify fun f => { f with before? := some n }
  throw (.leave true)

def return_ (args : List String) : Act Nat := do
  match args with
  | [] => throw (.skip (.function false))
  | a :: _ => do
    setStatus (← number a)
    throw (.skip (.function true))

/-- No more loops are left than there are around. -/
def leaveLoops (skip : Nat → Skip) (args : List String) : Act Nat := do
  let n ← match args with
    | [] => pure 1
    | a :: _ => do
      let n ← number a
      if n = 0 then badNumber a else pure n
  let n := min n (← frame).loops
  if n = 0 then pure 0
  else do
    setStatus 0
    throw (.skip (skip n))

/-- Names of commands that carry out others. -/
def carriers : List String :=
  [".", "eval", "exec"]

def plain : List (String × (List String → Act Nat)) :=
  [(":", fun _ => pure 0), ("true", fun _ => pure 0), ("false", fun _ => pure 1),
    ("echo", echo), ("printf", printf), ("test", test), ("[", bracket), ("cd", cd), ("chdir", cd),
    ("pwd", pwd), ("umask", umask), ("export", export_), ("readonly", readonly),
    ("local", local_), ("unset", unset), ("set", set_), ("shift", shift), ("getopts", getopts),
    ("read", read), ("trap", trap), ("kill", kill), ("wait", wait), ("jobs", jobs),
    ("bg", resume), ("fg", resume), ("times", times), ("ulimit", ulimit), ("alias", alias_),
    ("unalias", unalias), ("hash", hash), ("exit", exit), ("return", return_),
    ("break", leaveLoops .loops), ("continue", leaveLoops .round)]

def isName (name : String) : Bool :=
  ["command", "type"].contains name || carriers.contains name || (plain.lookup name).isSome

def find? (name : String) : Option (List String → Act Nat) :=
  match name with
  | "command" => some (command isName)
  | "type" => some (type_ isName)
  | _ => plain.lookup name

/-- An error in one of these ends the script, and variables that are set before them stay set. -/
def isSpecial (name : String) : Bool :=
  Grammar.specialCommands.contains name

/-- Arguments of these that set variables are not split. -/
def declares (name : String) : Bool :=
  ["export", "readonly", "local"].contains name

end Culprit.Shell.Builtin
