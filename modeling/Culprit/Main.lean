import Culprit.Commands.Program
import Culprit.Timestamp

/-!
The command line. The files below the working directory are read into memory, the command works on
them there, and what it changed is written back. A file that names an interpreter counts as
executable.
-/

namespace Culprit.Main

def namesInterpreter (bytes : ByteArray) : Bool :=
  bytes.toList.take 2 = [35, 33]

/-- An entry of a directory with everything below it. -/
partial def load (route : Route) (files : FileTree) (entry : IO.FS.DirEntry) : IO FileTree := do
  let route := route ++ [entry.fileName]
  if ← entry.path.isDir then
    let entries ← entry.path.readDir
    entries.foldlM (load route) (files.put route .directory)
  else
    let bytes ← IO.FS.readBinFile entry.path
    pure (files.put route (.file bytes (namesInterpreter bytes)))

/-- The directories on the way to a route. -/
def withParents (route : Route) (files : FileTree) : FileTree :=
  (List.range route.length).foldl (fun t n => t.put (route.take (n + 1)) .directory) files

def sameNode : Node → Node → Bool
  | .directory, .directory => true
  | .file a x, .file b y => a.toList == b.toList && x == y
  | _, _ => false

def unchanged (old : FileTree) (route : Route) (node : Node) : Bool :=
  match old.node? route with
  | some before => sameNode before node
  | none => false

def saveNode (route : Route) (node : Node) : IO Unit := do
  let path := FileTree.text route
  match node with
  | .directory => IO.FS.createDirAll path
  | .file bytes executable => do
    IO.FS.writeBinFile path bytes
    if executable then
      IO.setAccessRights path
        ⟨⟨true, true, true⟩, ⟨true, false, true⟩, ⟨true, false, true⟩⟩

/-- Writes what is new or different, and removes what is gone, the deepest first. -/
def save (old new : FileTree) : IO Unit := do
  for (route, node) in new.nodes do
    unless unchanged old route node do saveNode route node
  for (route, node) in old.nodes.reverse do
    if (new.node? route).isNone then
      if node.isDirectory then IO.FS.removeDirAll (FileTree.text route)
      else IO.FS.removeFile (FileTree.text route)

/-- The time at which a file that is made now was changed. -/
def moment : IO String := do
  let (_, path) ← IO.FS.createTempFile
  let changed := (← path.metadata).modified
  IO.FS.removeFile path
  pure (Timestamp.text ⟨changed.sec, changed.nsec.toNat⟩)

end Culprit.Main

open Culprit in
def main (args : List String) : IO UInt32 := do
  let here ← IO.currentDir
  let route := (here.toString.splitOn "/").filter (!·.isEmpty)
  let entries ← here.readDir
  let old ← entries.foldlM (Main.load route) (Main.withParents route .empty)
  let terminal := Commands.Terminal.start (.start here.toString old) (← Main.moment) (.bare "linux")
  let (finish, terminal) := (Commands.program args).run terminal
  Main.save old terminal.machine.files
  IO.print finish.stdout
  IO.eprint finish.stderr
  pure finish.code.toUInt32
