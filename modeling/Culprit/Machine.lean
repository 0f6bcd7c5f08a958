import Culprit.FileTree
import Culprit.Text.Utf8

/-!
The machine that builds run on: its files, the directory it stands in, the request to stop, and a
counter for names that were never used.
-/

namespace Culprit

structure Machine where
  files : FileTree
  cwd : String
  cancelled : Bool
  fresh : Nat

namespace Machine

def start (cwd : String) (files : FileTree) : Machine :=
  ⟨files, cwd, false, 0⟩

/-- An empty path stays empty, so that nothing is found under it. -/
def absolute (m : Machine) (path : String) : String :=
  if path.isEmpty then "" else Path.join m.cwd path

def fail {α : Type} (fault : SystemFault) : StateM Machine (Except SystemError α) :=
  pure (.error { fault := fault })

/-- A change of the files that can be refused. -/
def change (f : FileTree → Except SystemFault FileTree) :
    StateM Machine (Except SystemError Unit) := fun m =>
  match f m.files with
  | .error fault => (.error { fault := fault }, m)
  | .ok files => (.ok (), { m with files := files })

/-- A question about the files. -/
def ask {α : Type} (f : FileTree → Except SystemFault α) :
    StateM Machine (Except SystemError α) := fun m =>
  ((f m.files).mapError fun fault => { fault := fault }, m)

def cancel : StateM Machine Unit :=
  modify fun m => { m with cancelled := true }

def isCancelled : StateM Machine Bool := fun m =>
  (m.cancelled, m)

def isThere (path : String) : StateM Machine Bool := fun m =>
  (m.files.isThere (m.absolute path), m)

def read (path : String) : StateM Machine (Except SystemError ByteArray) := do
  let p := (← get).absolute path
  ask (·.read p)

/-- The whole file must be text. -/
def readText (path : String) : StateM Machine (Except SystemError String) := do
  match ← read path with
  | .error e => pure (.error e)
  | .ok bytes =>
    match Text.Utf8.toString? bytes with
    | some s => pure (.ok s)
    | none => fail .notText

def write (path : String) (bytes : ByteArray) : StateM Machine (Except SystemError Unit) := do
  let p := (← get).absolute path
  change (·.write p bytes)

def writeText (path text : String) : StateM Machine (Except SystemError Unit) :=
  write path text.toUTF8

def appendText (path text : String) : StateM Machine (Except SystemError Unit) := do
  let p := (← get).absolute path
  change (·.append p text.toUTF8)

/-- The working directory needs no making. -/
def createDirectories (path : String) : StateM Machine (Except SystemError Unit) := do
  if path.isEmpty then pure (.ok ())
  else
    let m ← get
    let (made, files) := m.files.createDirectories (m.absolute path)
    set { m with files := files }
    pure (made.mapError fun fault => { fault := fault })

/-- Puts a file below directories that are made for it. What cannot be made is left out. -/
def plant (path : String) (bytes : ByteArray) (executable : Bool) : StateM Machine Unit := do
  match Path.directory? path with
  | some dir => discard (createDirectories dir)
  | none => pure ()
  discard (write path bytes)
  if executable then
    let p := (← get).absolute path
    discard (change (·.setExecutable p true))

def canonical (path : String) : StateM Machine (Except SystemError String) := do
  let p := (← get).absolute path
  ask (·.canonical p)

def walk (path : String) : StateM Machine (Except (String × SystemError) (List String)) := do
  let p := (← get).absolute path
  let found ← ask (·.walk p)
  pure (found.mapError fun e => (path, e))

/-- A number in six characters. -/
def nameOf (n : Nat) : String :=
  let digits := Nat.toDigits 10 n
  String.ofList (List.replicate (6 - digits.length) '0' ++ digits)

/-- The first number from `n` on that is not taken, among so many. -/
def firstFree (taken : Nat → Bool) : Nat → Nat → Nat
  | 0, n => n
  | tries + 1, n => if taken n then firstFree taken tries (n + 1) else n

/-- Makes a directory below `root` that was not there, whose name starts with `label`. A refusal
names the path. -/
def makeDirectory (root label : String) : StateM Machine (Except SystemError String) := do
  let m ← get
  let path (n : Nat) : String := Path.join root (label ++ nameOf n)
  let n := firstFree (fun n => m.files.isThere (path n)) m.files.nodes.length m.fresh
  set { m with fresh := n + 1 }
  match ← change (·.createDirectory (path n)) with
  | .error e => pure (.error { e with path? := some (path n) })
  | .ok () => pure (.ok (path n))

/-- Removes a directory with its contents. A refusal names the path. -/
def removeDirectory (path : String) : StateM Machine (Except SystemError Unit) := do
  let p := (← get).absolute path
  match ← change (·.removeDirectory p) with
  | .error e => pure (.error { e with path? := some path })
  | .ok () => pure (.ok ())

def sizeBelow (path : String) : StateM Machine Nat := fun m =>
  (m.files.sizeBelow (m.absolute path), m)

end Machine

/-- The directory under which workspaces are made. -/
structure WorkArea where
  root : String
  deletes : Bool
deriving DecidableEq, Repr

namespace WorkArea

/-- Makes the root if need be, and names it canonically from then on. -/
def prepare (root : String) (deletes : Bool) : ExceptT Error (StateM Machine) WorkArea := do
  match ← ExceptT.lift (Machine.createDirectories root) with
  | .error e => throw (.file (.create root) e)
  | .ok () => do
    match ← ExceptT.lift (Machine.canonical root) with
    | .error e => throw (.file (.resolve root) e)
    | .ok path => pure ⟨path, deletes⟩

def makeDirectory (a : WorkArea) (label : String) : ExceptT Error (StateM Machine) String := do
  match ← ExceptT.lift (Machine.makeDirectory a.root label) with
  | .error e => throw (.file (.createWorkspace a.root) e)
  | .ok path => pure path

def removeDirectory (path : String) : ExceptT Error (StateM Machine) Unit := do
  match ← ExceptT.lift (Machine.removeDirectory path) with
  | .error e => throw (.file (.delete path) e)
  | .ok () => pure ()

end WorkArea

end Culprit
