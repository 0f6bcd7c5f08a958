import Culprit.RunSettings
import Culprit.Workspace

/-!
Building one partition and running what was built. What goes wrong becomes a failure of the stage
it happened in.
-/

namespace Culprit

/-- What every trial of a bisection shares. -/
structure Setup (σ : Type) where
  lab : Lab σ
  run : RunSettings
  /-- Compilations at one time within a build. -/
  jobs : Nat
  /-- Seconds for each command of a build; zero sets no limit. -/
  buildTimeout : Nat

namespace Setup

variable {σ : Type}

def build (s : Setup σ) (p : Partition) (trusted variant : Flags) (workdir : String) :
    ExceptT Failure (StateM σ) Built :=
  ExceptT.adapt (fun e => ⟨.build, e.message⟩) <| s.lab.pipeline.build
    { partition := p, trusted := trusted, variant := variant, workdir := workdir,
      jobs := max s.jobs 1, timeout := s.buildTimeout }

/-- The text to compare: what the test printed, or the file it wrote. -/
def outputText (s : Setup σ) (workdir : String) (e : Ended) :
    ExceptT Failure (StateM σ) String :=
  match s.run.outputFile? with
  | none => pure e.stdout
  | some file =>
    let path := Path.join workdir file
    ExceptT.adapt (fun cause => ⟨.run, (Error.file (.read path) cause).message⟩)
      (ExceptT.mk (s.lab.readText path))

/-- Runs an executable; anything but a clean exit is a failure. Gives the output and the
milliseconds that it took. -/
def execute (s : Setup σ) (executable : String) (target : Target) (workdir : String) :
    ExceptT Failure (StateM σ) (String × Nat) := do
  let call := s.run.invocation s.lab.cwd executable target workdir
  let ended ← ExceptT.adapt (fun e => ⟨.run, e.message⟩)
    (s.lab.runner call (1000 * s.run.timeout))
  if ended.success then
    let text ← s.outputText workdir ended
    pure (text, ended.ms)
  else throw ⟨.run, ended.summary⟩

end Setup

end Culprit
