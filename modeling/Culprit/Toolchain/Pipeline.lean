import Culprit.Lab
import Culprit.Pool
import Culprit.Toolchain.Plan

/-!
Building with a compiler, `nm` and `objcopy`. All of them run in the project directory, and every
file is named to them by an absolute path.
-/

namespace Culprit

namespace Toolchain

structure Settings where
  /-- The directory that unit paths start from. -/
  sourceDir : String
  /-- The units; when there are none, every source file below the source directory is one. -/
  sources : List SourceUnit
  cflags : List String
  ldflags : List String
  /-- The programs of the compilers that are not called by their own name. Of two entries for one
  compiler the later counts. -/
  compilers : List (String × String)
  nm : String
  objcopy : String
  executableName : String
  /-- Where the tools run; relative paths in flags start there. -/
  projectDir : String
deriving DecidableEq, Repr

/-- What a build needs of the outside. -/
structure Host (σ : Type) where
  runner : Runner σ
  cancelled : StateM σ Bool
  /-- Milliseconds since some moment. -/
  clock : StateM σ Nat
  createDirectories : String → StateM σ (Except SystemError Unit)
  /-- Every file below a directory, seen from it, or the directory that cannot be read. -/
  walk : String → StateM σ (Except (String × SystemError) (List String))
  cwd : String

def Settings.absolute (s : Settings) (cwd : String) : Settings :=
  { s with
    sourceDir := Path.absolute cwd s.sourceDir
    projectDir := Path.absolute cwd s.projectDir }

namespace Settings

def compilerOf (s : Settings) (f : Flags) : String :=
  ((s.compilers.reverse.lookup f.compiler)).getD f.compiler

def sourcePath (s : Settings) (unit : SourceUnit) : String :=
  Path.join s.sourceDir unit.path

def compileCall (s : Settings) (job : CompileJob) : Invocation where
  program := s.compilerOf job.flags
  args := job.flags.args ++ s.cflags ++ (if job.pic then ["-fPIC"] else []) ++
    ["-c", s.sourcePath job.unit, "-o", job.object]
  cwd? := some s.projectDir
  launcher := []

def nmCall (s : Settings) (object : String) (args : List String) : Invocation where
  program := s.nm
  args := args ++ [object]
  cwd? := some s.projectDir
  launcher := []

def objcopyCall (s : Settings) (object : String) (args : List String) : Invocation where
  program := s.objcopy
  args := args ++ [object]
  cwd? := some s.projectDir
  launcher := []

def linkCall (s : Settings) (flags : Flags) (objects : List String) (executable : String) :
    Invocation where
  program := s.compilerOf flags
  args := objects ++ ["-o", executable] ++ s.ldflags
  cwd? := some s.projectDir
  launcher := []

end Settings

def globalListing : List String := ["--format=sysv", "--defined-only", "-g"]

def symbolListing : List String := ["-p", "--defined-only", "--line-numbers"]

def sourceEndings : List String := ["c", "cc", "cpp", "cxx", "C"]

def isSource (path : String) : Bool :=
  match Path.extension? path with
  | some ext => sourceEndings.contains ext
  | none => false

variable {σ : Type} (h : Host σ) (s : Settings)

/-- Runs a tool; unless it ends well, the build fails for the reason that `fault` makes of the
summary. -/
def call (i : Invocation) (timeout : Nat) (fault : String → BuildFault) : Attempt σ Ended := do
  let ended ← h.runner i (1000 * timeout)
  if ended.success then pure ended else throw (.build (fault ended.summary))

def runNm (object : String) (args : List String) (timeout : Nat) : Attempt σ String := do
  let ended ← call h (s.nmCall object args) timeout (.listing object)
  pure ended.stdout

/-- Leaves an object strongly defining only what it owns. -/
def restrict (object : String) (splice : Splice) (timeout : Nat) : Attempt σ Unit := do
  let listing ← runNm h s object globalListing timeout
  let args := splice.args (readGlobals listing)
  if args.isEmpty then pure ()
  else discard (call h (s.objcopyCall object args) timeout (.restricting object))

def compile (job : CompileJob) (timeout : Nat) : Attempt σ Unit := do
  discard (call h (s.compileCall job) timeout (.compile job.unit.path job.flags.display))
  match job.splice? with
  | some splice => restrict h s job.object splice timeout
  | none => pure ()

def failed : Except Error Unit → Bool
  | .error _ => true
  | .ok () => false

/-- A compilation that fails stops the pool, and so does a cancellation. -/
def compileShift (timeout : Nat) : Shift CompileJob σ (Except Error Unit) where
  work job := (compile h s job timeout).result
  stop := h.cancelled
  fails := failed

def compileWorkers (jobs count : Nat) : Nat :=
  min (max jobs 1) (max count 1)

/-- The first error that was handed in is the error of all. -/
def verdict (results : List (Except Error Unit)) (stop : Bool) : Except Error Unit :=
  match results.find? failed with
  | some (.error e) => .error e
  | _ => if stop then .error (.build .cancelled) else .ok ()

def compileAll (jobs : List CompileJob) (parallel timeout : Nat) : Attempt σ Unit :=
  ExceptT.mk do
    let workers := compileWorkers parallel jobs.length
    let pool := Pool.drain (compileShift h s timeout) jobs workers (← get)
    set pool.state
    let stop ← h.cancelled
    pure (verdict pool.results stop)

def units : Attempt σ (List SourceUnit) := do
  if !s.sources.isEmpty then pure s.sources
  else
    match ← ExceptT.lift (h.walk s.sourceDir) with
    | .error (dir, cause) => throw (.file (.read dir) cause)
    | .ok files =>
      let found := (files.filter isSource).mergeSort Path.le
      if found.isEmpty then throw (.noSources s.sourceDir)
      else pure (found.map SourceUnit.mk)

def symbols (unit : SourceUnit) (flags : Flags) (workdir : String) (timeout : Nat) :
    Attempt σ (List LinkSymbol) := do
  let object := Path.join (Path.absolute h.cwd workdir) (unit.objectStem ++ "_symbols.o")
  compile h s ⟨unit, flags, object, true, none⟩ timeout
  let mangled ← runNm h s object symbolListing timeout
  let demangled ← runNm h s object ("-C" :: symbolListing) timeout
  pure (readSymbols unit mangled demangled)

def build (q : BuildRequest) : Attempt σ Built := do
  let start ← ExceptT.lift h.clock
  let units ← units h s
  let workdir := Path.absolute h.cwd q.workdir
  let objectDir := Path.join workdir "obj"
  match ← ExceptT.lift (h.createDirectories objectDir) with
  | .error cause => throw (.file (.create objectDir) cause)
  | .ok () => do
    let jobs := plan units q.partition q.trusted q.variant objectDir
    compileAll h s jobs q.jobs q.timeout
    let executable := Path.join workdir s.executableName
    discard (call h (s.linkCall q.trusted (jobs.map (·.object)) executable) q.timeout .link)
    let now ← ExceptT.lift h.clock
    pure ⟨executable, now - start, jobs.length⟩

/-- The pipeline; the directories of its settings are made absolute first. -/
def pipeline : Pipeline σ :=
  let s := s.absolute h.cwd
  { name := "shell"
    units := units h s
    symbols := symbols h s
    build := build h s
    compilerOf := s.compilerOf }

end Toolchain

end Culprit
