import Culprit.Error
import Culprit.Path

/-!
A tree of directories and files. A file is known by the names on the way to it from the root, so
two paths mean the same file when they lead through the same names. A path is followed from
directory to directory, and the first step that cannot be taken is what is wrong with it.
-/

namespace Culprit

inductive Node where
  | directory
  | file (bytes : ByteArray) (executable : Bool)

def Node.isDirectory : Node → Bool
  | .directory => true
  | .file .. => false

def Node.size : Node → Nat
  | .directory => 0
  | .file bytes _ => bytes.size

/-- The names on the way from the root. -/
abbrev Route := List String

/-- The root itself is always there. -/
structure FileTree where
  nodes : List (Route × Node)

namespace FileTree

def empty : FileTree := ⟨[]⟩

def node? (t : FileTree) (r : Route) : Option Node :=
  if r.isEmpty then some .directory else t.nodes.lookup r

def put (t : FileTree) (r : Route) (n : Node) : FileTree :=
  if (t.nodes.lookup r).isSome then
    ⟨t.nodes.map fun p => if p.1 = r then (r, n) else p⟩
  else ⟨t.nodes ++ [(r, n)]⟩

def mustBeDirectory (t : FileTree) (r : Route) : Except SystemFault Unit :=
  match t.node? r with
  | none => .error .missing
  | some .directory => .ok ()
  | some (.file ..) => .error .notDirectory

/-- The longest name, in bytes. -/
def nameLimit : Nat := 255

/-- A path takes fewer bytes. -/
def pathLimit : Nat := 4096

/-- One component further; only from a directory. -/
def enter (t : FileTree) (r : Route) (c : Path.Component) : Except SystemFault Route :=
  match t.mustBeDirectory r with
  | .error e => .error e
  | .ok () =>
    match c with
    | .root => .ok []
    | .here => .ok r
    | .up => .ok r.dropLast
    | .name s => if nameLimit < s.utf8ByteSize then .error .nameTooLong else .ok (r ++ [s])

/-- The route of an absolute path. All but its last name must be there. -/
def route (t : FileTree) (path : String) : Except SystemFault Route :=
  if path.toList.contains '\x00' then .error .zeroInName
  else if path.isEmpty then .error .missing
  else if pathLimit ≤ path.utf8ByteSize then .error .nameTooLong
  else (Path.steps path).foldlM t.enter []

def endsInSlash (path : String) : Bool :=
  path.toList.getLast? = some '/'

def find (t : FileTree) (path : String) : Except SystemFault (Route × Node) :=
  match t.route path with
  | .error e => .error e
  | .ok r =>
    match t.node? r with
    | none => .error .missing
    | some n =>
      if endsInSlash path && !n.isDirectory then .error .notDirectory else .ok (r, n)

def isThere (t : FileTree) (path : String) : Bool :=
  match t.find path with
  | .ok _ => true
  | .error _ => false

def isDirectory (t : FileTree) (path : String) : Bool :=
  match t.find path with
  | .ok (_, n) => n.isDirectory
  | .error _ => false

def text (r : Route) : String :=
  "/" ++ String.intercalate "/" r

/-- The path without dots and double slashes. -/
def canonical (t : FileTree) (path : String) : Except SystemFault String :=
  (t.find path).map fun p => text p.1

def read (t : FileTree) (path : String) : Except SystemFault ByteArray :=
  match t.find path with
  | .error e => .error e
  | .ok (_, .directory) => .error .isDirectory
  | .ok (_, .file bytes _) => .ok bytes

/-- The route at which a file can be written. A file that is there keeps its permissions. -/
def writable (t : FileTree) (path : String) : Except SystemFault (Route × Option Node) :=
  match t.route path with
  | .error e => .error e
  | .ok r =>
    match t.node? r with
    | some .directory => .error .isDirectory
    | some n => if endsInSlash path then .error .notDirectory else .ok (r, some n)
    | none => if endsInSlash path then .error .isDirectory else .ok (r, none)

def write (t : FileTree) (path : String) (bytes : ByteArray) : Except SystemFault FileTree :=
  match t.writable path with
  | .error e => .error e
  | .ok (r, some (.file _ executable)) => .ok (t.put r (.file bytes executable))
  | .ok (r, _) => .ok (t.put r (.file bytes false))

def append (t : FileTree) (path : String) (bytes : ByteArray) : Except SystemFault FileTree :=
  match t.writable path with
  | .error e => .error e
  | .ok (r, some (.file old executable)) => .ok (t.put r (.file (old ++ bytes) executable))
  | .ok (r, _) => .ok (t.put r (.file bytes false))

def setExecutable (t : FileTree) (path : String) (executable : Bool) :
    Except SystemFault FileTree :=
  match t.find path with
  | .error e => .error e
  | .ok (_, .directory) => .ok t
  | .ok (r, .file bytes _) => .ok (t.put r (.file bytes executable))

def createDirectory (t : FileTree) (path : String) : Except SystemFault FileTree :=
  match t.route path with
  | .error e => .error e
  | .ok r => if (t.node? r).isSome then .error .exists else .ok (t.put r .directory)

/-- What came of a change, and the tree after it. -/
abbrev Change := Except SystemFault Unit × FileTree

/-- A directory that is there already is as good as a new one. -/
def ensureDirectory (t : FileTree) (path : String) : Change :=
  match t.createDirectory path with
  | .ok made => (.ok (), made)
  | .error .exists => (if t.isDirectory path then .ok () else .error .exists, t)
  | .error e => (.error e, t)

/-- Tries the path, then each path above it while something is missing, and goes on downwards from
the first that can be made or is there. -/
def createAlong (t : FileTree) : List String → Change
  | [] => (.ok (), t)
  | path :: above =>
    match t.ensureDirectory path with
    | (.error .missing, _) =>
      match createAlong t above with
      | (.ok (), made) => made.ensureDirectory path
      | failed => failed
    | done => done

def createDirectories (t : FileTree) (path : String) : Change :=
  createAlong t (Path.ancestors path)

/-- Removes a directory and everything below it. -/
def removeDirectory (t : FileTree) (path : String) : Except SystemFault FileTree :=
  match t.find path with
  | .error e => .error e
  | .ok (_, .file ..) => .error .notDirectory
  | .ok (r, .directory) => .ok ⟨t.nodes.filter fun p => !r.isPrefixOf p.1⟩

def removeFile (t : FileTree) (path : String) : Except SystemFault FileTree :=
  match t.find path with
  | .error e => .error e
  | .ok (_, .directory) => .error .isDirectory
  | .ok (r, .file ..) => .ok ⟨t.nodes.filter fun p => p.1 ≠ r⟩

/-- Everything below a route, seen from it. -/
def below (t : FileTree) (r : Route) : List (Route × Node) :=
  t.nodes.filterMap fun p =>
    if r.isPrefixOf p.1 && p.1.length > r.length then some (p.1.drop r.length, p.2) else none

/-- Every file below a directory, seen from it. -/
def walk (t : FileTree) (path : String) : Except SystemFault (List String) :=
  match t.find path with
  | .error e => .error e
  | .ok (_, .file ..) => .error .notDirectory
  | .ok (r, .directory) =>
    .ok ((t.below r).filterMap fun p =>
      if p.2.isDirectory then none else some (String.intercalate "/" p.1))

/-- The names directly in a directory, with what they are. -/
def list (t : FileTree) (path : String) : Except SystemFault (List (String × Node)) :=
  match t.find path with
  | .error e => .error e
  | .ok (_, .file ..) => .error .notDirectory
  | .ok (r, .directory) =>
    .ok ((t.below r).filterMap fun p =>
      match p.1 with
      | [name] => some (name, p.2)
      | _ => none)

/-- The bytes of all files below a directory; zero when there is none. -/
def sizeBelow (t : FileTree) (path : String) : Nat :=
  match t.find path with
  | .ok (r, .directory) => ((t.below r).map (·.2.size)).foldr (· + ·) 0
  | _ => 0

@[simp] theorem node?_root (t : FileTree) : t.node? [] = some .directory := rfl

@[simp] theorem route_empty (t : FileTree) : t.route "" = .error .missing := by
  simp [route]

end FileTree

end Culprit
