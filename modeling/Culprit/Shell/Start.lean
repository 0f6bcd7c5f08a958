import Culprit.Shell.Tools

/-!
What a call starts: a tool of the machine, a shell with a script, or the tool that changes the
environment. A script leads to the interpreter in its first line.
-/

namespace Culprit.Shell

/-- What starts when a program is called. -/
inductive Start where
  | tool (name : String) (args : List String)
  /-- A shell, under the name it was called by. -/
  | shell (zero : String) (args : List String)
  | environment (args : List String)
deriving DecidableEq, Repr

namespace Start

/-- A tool by its path, called by a name. -/
def standard? (path zero : String) (args : List String) : Option Start :=
  match Surroundings.toolAt? path with
  | none => none
  | some name =>
    if Surroundings.shellNames.contains name then some (.shell zero args)
    else if name = "env" then some (.environment args)
    else (Tools.program? name).map fun _ => .tool name args

def isBlank (c : Char) : Bool :=
  c = ' ' || c = '\t'

/-- The longest first line that is looked at. -/
def headLimit : Nat := 255

/-- The interpreter in the first line of a script, with its argument: all that follows it, as one.
A script without an interpreter is no program by itself. -/
def interpreter? (bytes : ByteArray) : Option (String × List String) :=
  match (Bytes.ofArray (bytes.extract 0 (headLimit + 1))).toList with
  | '#' :: '!' :: r =>
    let line := (r.takeWhile (· ≠ '\n')).dropWhile isBlank
    let line := (line.reverse.dropWhile isBlank).reverse
    let name := line.takeWhile fun c => !isBlank c && c ≠ '\x00'
    let rest := (line.drop name.length).dropWhile isBlank
    if name.isEmpty then none
    else some (String.ofList name, if rest.isEmpty then [] else [String.ofList rest])
  | _ => none

/-- What starts for an absolute path. `written` is how a script sees its own path. Scripts lead to
their interpreter, at most `fuel` times. -/
def atPath (files : FileTree) (cwd path written zero : String) (args : List String) :
    Nat → Except SystemFault Start
  | 0 => .error .notProgram
  | fuel + 1 =>
    match files.find (Bytes.gather path) with
    | .ok (_, .directory) => .error .denied
    | .ok (_, .file _ false) => .error .denied
    | .ok (_, .file bytes true) =>
      match interpreter? bytes with
      | none => .error .notProgram
      | some (name, extra) =>
        atPath files cwd (Path.join cwd name) name name (extra ++ written :: args) fuel
    | .error fault =>
      match standard? path zero args with
      | some s => .ok s
      | none =>
        if fault ≠ .missing then .error fault
        else match Surroundings.find files path with
          | .ok .directory => .error .denied
          | .ok _ => .error (if (Surroundings.toolAt? path).isSome then .notProgram else .denied)
          | .error fault => .error fault

/-- The directories in which a program is looked for. -/
def directories (path : String) : List String :=
  (Culprit.Text.splitAtChar ':' path.toList).map String.ofList

/-- The first of some directories with an executable file of a name, as a path. Otherwise, whether
there was a file that is not executable. -/
def search (files : FileTree) (cwd name : String) : List String → Except SystemFault String
  | [] => .error .missing
  | dir :: rest =>
    let written := if dir.isEmpty then name else Path.join dir name
    let path := Path.join cwd written
    let found : Except SystemFault Bool := match files.find (Bytes.gather path) with
      | .ok (_, .file _ executable) => .ok executable
      | .ok _ => .error .isDirectory
      | .error .nameTooLong => .error .nameTooLong
      | .error fault => if (Surroundings.toolAt? path).isSome then .ok true else .error fault
    match found with
    | .ok true => .ok written
    | .ok false => (match search files cwd name rest with
      | .error _ => .error .denied
      | r => r)
    | .error .nameTooLong => (match search files cwd name rest with
      | .error .missing => .error .nameTooLong
      | r => r)
    | .error _ => search files cwd name rest

/-- What starts for a name: a path, or a name that is looked for in some directories. -/
def find (files : FileTree) (cwd path name : String) (args : List String) :
    Except SystemFault Start :=
  if name.isEmpty then .error .missing
  else if name.toList.contains '/' then atPath files cwd (Path.join cwd name) name name args 5
  else if FileTree.nameLimit < name.length then .error .nameTooLong
  else match search files cwd name (directories path) with
    | .ok written => atPath files cwd (Path.join cwd written) written name args 5
    | .error fault => .error fault

end Start

end Culprit.Shell
