import Culprit.FileTree

/-!
What every machine has besides the files that a run is given: the directories of the system, its
tools, its devices and a few files. A script can look at these places, but what is in them is not
known.
-/

namespace Culprit.Shell.Surroundings

/-- Where the tools are. -/
def toolDirectories : List String :=
  ["/usr/local/sbin", "/usr/local/bin", "/usr/sbin", "/usr/bin", "/sbin", "/bin"]

/-- Those of them in which the tools really are. -/
def toolHomes : List String :=
  ["/usr/bin", "/bin"]

def shellNames : List String :=
  ["sh", "dash", "bash"]

def toolNames : List String :=
  shellNames ++ ["[", "basename", "cat", "chmod", "cp", "cut", "date", "dd", "dirname", "echo",
    "env", "expr", "false", "grep", "head", "ln", "ls", "mkdir", "mv", "printenv", "printf",
    "pwd", "rm", "rmdir", "sed", "seq", "sleep", "sort", "tail", "tee", "test", "touch", "tr",
    "true", "uname", "uniq", "wc", "yes"]

def directories : List String :=
  toolDirectories ++ ["/dev", "/etc", "/home", "/lib", "/media", "/mnt", "/opt", "/proc", "/root",
    "/run", "/srv", "/sys", "/tmp", "/usr", "/usr/include", "/usr/lib", "/usr/local",
    "/usr/local/lib", "/usr/share", "/var", "/var/log", "/var/tmp"]

def files : List String :=
  ["/etc/group", "/etc/hostname", "/etc/hosts", "/etc/passwd", "/etc/resolv.conf"]

def nullDevice : String := "/dev/null"

def devices : List String :=
  [nullDevice, "/dev/zero", "/dev/full", "/dev/random", "/dev/urandom"]

/-- A path from the root without dots and double slashes. -/
def tidy (path : String) : String :=
  let names := (Text.splitAtChar '/' path.toList).filter fun n => !n.isEmpty && n ≠ ['.']
  let kept := names.foldl (fun ns n => if n = ['.', '.'] then ns.dropLast else ns ++ [n]) []
  "/" ++ String.intercalate "/" (kept.map String.ofList)

/-- The path of a tool, and its name. -/
def toolAt? (path : String) : Option String := do
  let path := tidy path
  let dir ← Path.parent? path
  let name ← Path.fileName? path
  if toolHomes.contains dir && toolNames.contains name then some name else none

/-- A file whose contents are not known; it is not empty. -/
def unknownFile (executable : Bool) : Node :=
  .file "\n".toUTF8 executable

def node? (path : String) : Option Node :=
  let place := tidy path
  if directories.contains place then some .directory
  else if FileTree.endsInSlash path then none
  else if (toolAt? place).isSome then some (unknownFile true)
  else if (files ++ devices).contains place then some (unknownFile false)
  else none

/-- The files that are given come first. -/
def find (t : FileTree) (path : String) : Except SystemFault Node :=
  match t.find path with
  | .ok (_, n) => .ok n
  | .error fault =>
    match node? path, (Path.parent? path).bind node? with
    | some n, _ => .ok n
    | none, some (.file ..) => .error .notDirectory
    | none, _ => .error fault

/-- A directory that every machine has is there before something is put into it. -/
def withParent (t : FileTree) (path : String) : FileTree :=
  match Path.parent? path with
  | some dir => if directories.contains dir then (t.createDirectories dir).2 else t
  | none => t

end Culprit.Shell.Surroundings
