import Culprit.Bisection
import Culprit.Commands.Form
import Culprit.ProjectFile
import Culprit.Report.Codec
import Culprit.Shell.Launch
import Culprit.TrialLog

/-!
What a command works with: the machine, what it has printed so far, and what it was told about its
surroundings.
-/

namespace Culprit.Commands

structure Terminal where
  machine : Machine
  /-- What was printed. -/
  printed : String
  /-- The date and time of the call. -/
  moment : String
  environment : Environment

namespace Terminal

def start (machine : Machine) (moment : String) (environment : Environment) : Terminal :=
  ⟨machine, "", moment, environment⟩

def onMachine {α : Type} (a : StateM Machine α) : StateM Terminal α := fun t =>
  let (r, machine) := a t.machine
  (r, { t with machine := machine })

def attempt {α : Type} (a : ExceptT Error (StateM Machine) α) : Attempt Terminal α :=
  ExceptT.mk (onMachine a.run)

def print (text : String) : StateM Terminal Unit :=
  modify fun t => { t with printed := t.printed ++ text }

def printLine (text : String) : StateM Terminal Unit :=
  print (text ++ "\n")

/-- The number takes three places at least. -/
def trialLine (t : Trial) : String :=
  let number := toString t.seq
  "[" ++ String.ofList (List.replicate (3 - number.length) ' ') ++ number ++ "] " ++
    t.description ++ " -> " ++ t.label ++ (if t.cached then " (cached)" else "")

/-- The tools are run on the machine, which also tells how long a build took. -/
def host (cwd : String) : Toolchain.Host Terminal where
  runner i limit := attempt (Shell.runner i limit)
  cancelled := onMachine Machine.isCancelled
  clock := pure 0
  createDirectories path := onMachine (Machine.createDirectories path)
  walk path := onMachine (Machine.walk path)
  cwd := cwd

def lab (area : WorkArea) (project : ProjectFile) (log? : Option String) (cwd : String) :
    Lab Terminal where
  cancelled := onMachine Machine.isCancelled
  pipeline := Toolchain.pipeline (host cwd) (project.toolchain cwd)
  runner i limit := attempt (Shell.runner i limit)
  comparator := project.comparator
  readText path := onMachine (Machine.readText path)
  makeDirectory label := attempt (area.makeDirectory label)
  removeDirectory path := attempt (WorkArea.removeDirectory path)
  deletes := area.deletes
  appendLog t :=
    match log? with
    | some path => attempt (TrialLog.append path t)
    | none => pure ()
  observe t := printLine (trialLine t)
  now := return (← get).moment
  cwd := cwd

/-- An action on an archive that is new and is not kept. -/
def inArchive {α : Type} (a : StateM (Archive Terminal) α) : StateM Terminal α := fun t =>
  let (r, archive) := a ⟨⟨t, .empty⟩, .empty⟩
  (r, archive.site.world)

/-- Writes a report below directories that are made for it. `fault` tells what an error is. -/
def writeReport (fault : FileTask → SystemError → Error) (path text : String) :
    Attempt Terminal Unit := do
  match Path.directory? path with
  | none => pure ()
  | some dir =>
    match ← ExceptT.lift (onMachine (Machine.createDirectories dir)) with
    | .error cause => throw (fault (.create dir) cause)
    | .ok () => pure ()
  match ← ExceptT.lift (onMachine (Machine.writeText path text)) with
  | .error cause => throw (fault (.write path) cause)
  | .ok () => pure ()

end Terminal

/-- What both commands are told about the search. -/
structure SearchOptions where
  /-- The project description. -/
  config : String
  jobs : Nat
  deletes : Bool
  artifacts? : Option String
  trialLog? : Option String
  /-- Seconds for each command of a build; zero sets no limit. -/
  buildTimeout : Nat
  symbols : Bool
deriving DecidableEq, Repr

namespace SearchOptions

def forms : List OptionForm :=
  [⟨"config", none, .path⟩, ⟨"jobs", some 'j', .number⟩, ⟨"delete", none, .switch⟩,
    ⟨"artifacts", none, .path⟩, ⟨"trial-log", none, .path⟩, ⟨"build-timeout", none, .number⟩,
    ⟨"no-symbols", none, .switch⟩]

def ofGiven (g : Given) : SearchOptions where
  config := g.text "config" ProjectFile.fileName
  jobs := g.number "jobs" 1
  deletes := g.has "delete"
  artifacts? := g.text? "artifacts"
  trialLog? := g.text? "trial-log"
  buildTimeout := g.number "build-timeout" 0
  symbols := !g.has "no-symbols"

/-- The description that was asked for. Without a file of the usual name every key has its
default. -/
def project (o : SearchOptions) : Attempt Terminal ProjectFile := do
  let usual := Path.components o.config = Path.components ProjectFile.fileName
  let found ← ExceptT.lift (Terminal.onMachine (Machine.isThere o.config))
  if usual && !found then pure .standard
  else Terminal.attempt (ProjectFile.load o.config)

/-- The engine for a project; the directory of its workspaces is made. -/
def engine (o : SearchOptions) (p : ProjectFile) : Attempt Terminal (Engine Terminal) := do
  let cwd := (← get).machine.cwd
  let root := o.artifacts?.getD (p.artifactsRoot cwd)
  let area ← Terminal.attempt (WorkArea.prepare root o.deletes)
  pure { lab := Terminal.lab area p o.trialLog? cwd
         run := p.run
         trusted := p.trusted
         buildTimeout := o.buildTimeout
         verify := true
         symbols := o.symbols }

end SearchOptions

end Culprit.Commands
