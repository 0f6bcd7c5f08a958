import Culprit.Comparison
import Culprit.Machine
import Culprit.RunSettings
import Culprit.Toml.Decode
import Culprit.Toml.Reader
import Culprit.Toolchain.Pipeline

/-!
The description of a project: its sources, the trusted flags, how its test is run and compared, and
where workspaces go. Every key has a default, and relative paths start at the directory of the
description.
-/

namespace Culprit

structure ProjectFile where
  name : String
  sourceDir : String
  sources : List SourceUnit
  cflags : List String
  ldflags : List String
  trusted : Flags
  /-- The programs of compilers by the names that results use. -/
  compilers : List (String × String)
  run : RunSettings
  compare : CompareKind
  tolerance : Float
  nm : String
  objcopy : String
  artifacts : String
  /-- Where relative paths start. -/
  baseDir : String
deriving DecidableEq, Repr

def CompareKind.word : CompareKind → String
  | .numeric => "numeric"
  | .exact => "exact"

namespace ProjectFile

def fileName : String := "fp-bisect.toml"

def executableName : String := "test-bin"

/-- The description with nothing in it. -/
def standard : ProjectFile where
  name := "project"
  sourceDir := "."
  sources := []
  cflags := []
  ldflags := []
  trusted := ⟨"g++", "-O0", []⟩
  compilers := []
  run := .standard
  compare := .numeric
  tolerance := 0
  nm := "nm"
  objcopy := "objcopy"
  artifacts := "bisect-work"
  baseDir := ""

section Reading

open Toml

def texts? : Toml → Option (List String) :=
  array? string?

def withProject? (p : ProjectFile) (f : Fields) : Option ProjectFile := do
  let name ← f.withDefault? "name" p.name string?
  let sourceDir ← f.withDefault? "source_dir" p.sourceDir string?
  let sources ← f.withDefault? "sources" [] texts?
  let cflags ← f.withDefault? "cflags" p.cflags texts?
  let ldflags ← f.withDefault? "ldflags" p.ldflags texts?
  pure { p with
    name := name, sourceDir := sourceDir, sources := sources.map SourceUnit.mk, cflags := cflags,
    ldflags := ldflags }

def withTrusted? (p : ProjectFile) (f : Fields) : Option ProjectFile := do
  let compiler ← f.withDefault? "compiler" p.trusted.compiler string?
  let optimization ← f.withDefault? "optimization" p.trusted.optimization string?
  let switches ← f.withDefault? "switches" "" string?
  pure { p with trusted := ⟨compiler, optimization, splitSwitches switches⟩ }

def compiler? (t : Toml) : Option (String × String) := do
  let f ← t.fields? ["name", "binary"]
  let name ← f.required? "name" string?
  let binary ← f.required? "binary" string?
  pure (name, binary)

def withRun? (p : ProjectFile) (f : Fields) : Option ProjectFile := do
  let args ← f.withDefault? "args" p.run.args texts?
  let launcher ← f.withDefault? "launcher" p.run.launcher texts?
  let timeout ← f.withDefault? "timeout_secs" p.run.timeout natural?
  let outputFile? ← f.withDefault? "output_file" p.run.outputFile? fun t => t.string?.map some
  let reentrant ← f.withDefault? "reentrant" p.run.reentrant bool?
  pure { p with run := ⟨args, launcher, timeout, outputFile?, reentrant⟩ }

def withCompare? (p : ProjectFile) (f : Fields) : Option ProjectFile := do
  let kind ← f.withDefault? "kind" p.compare (oneOf? [.numeric, .exact] CompareKind.word)
  let tolerance ← f.withDefault? "tolerance" p.tolerance real?
  pure { p with compare := kind, tolerance := tolerance }

def withTools? (p : ProjectFile) (f : Fields) : Option ProjectFile := do
  let nm ← f.withDefault? "nm" p.nm string?
  let objcopy ← f.withDefault? "objcopy" p.objcopy string?
  pure { p with nm := nm, objcopy := objcopy }

def withArtifacts? (p : ProjectFile) (f : Fields) : Option ProjectFile := do
  let root ← f.withDefault? "root" p.artifacts string?
  pure { p with artifacts := root }

def ofFields? (f : Fields) : Option ProjectFile := do
  let p ← standard.withProject?
    (← f.record? "project" ["name", "source_dir", "sources", "cflags", "ldflags"])
  let p ← p.withTrusted? (← f.record? "ground_truth" ["compiler", "optimization", "switches"])
  let compilers ← f.withDefault? "compiler" [] (array? compiler?)
  let p ← p.withRun?
    (← f.record? "run" ["args", "launcher", "timeout_secs", "output_file", "reentrant"])
  let p ← p.withCompare? (← f.record? "compare" ["kind", "tolerance"])
  let p ← p.withTools? (← f.record? "tools" ["nm", "objcopy"])
  let p ← p.withArtifacts? (← f.record? "artifacts" ["root"])
  pure { p with compilers := compilers }

end Reading

/-- What is wrong with a description that could be read, if anything. -/
def fault? (p : ProjectFile) : Option ProjectFault :=
  if (Text.trim p.trusted.compiler).isEmpty then some .emptyCompiler
  else if p.tolerance < 0 || p.tolerance.isNaN then some (.badTolerance p.tolerance)
  else if (p.run.args ++ p.run.launcher).any (·.isEmpty) then some .emptyArgument
  else none

def read (text : String) : Except ProjectFault ProjectFile :=
  match (Toml.parse? text).bind ofFields? with
  | none => .error .format
  | some p =>
    match p.fault? with
    | some fault => .error fault
    | none => .ok p

/-- Reads the description in a file; its directory becomes the base of relative paths. -/
def load (path : String) : ExceptT Error (StateM Machine) ProjectFile := do
  match ← ExceptT.lift (Machine.readText path) with
  | .error cause => throw (.file (.read path) cause)
  | .ok text =>
    match read text with
    | .error fault => throw (.project (some path) fault)
    | .ok p => do
      let dir := (Path.directory? path).getD "."
      match ← ExceptT.lift (Machine.canonical dir) with
      | .error cause => throw (.file (.resolve dir) cause)
      | .ok dir => pure { p with baseDir := dir }

def resolve (p : ProjectFile) (cwd path : String) : String :=
  Path.absolute cwd (Path.join p.baseDir path)

def artifactsRoot (p : ProjectFile) (cwd : String) : String :=
  p.resolve cwd p.artifacts

def toolchain (p : ProjectFile) (cwd : String) : Toolchain.Settings where
  sourceDir := p.resolve cwd p.sourceDir
  sources := p.sources
  cflags := p.cflags
  ldflags := p.ldflags
  compilers := p.compilers
  nm := p.nm
  objcopy := p.objcopy
  executableName := executableName
  projectDir := Path.absolute cwd p.baseDir

def comparator (p : ProjectFile) : Comparator :=
  .ofKind p.tolerance p.compare

end ProjectFile

end Culprit
