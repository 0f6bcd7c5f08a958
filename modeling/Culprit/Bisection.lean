import Culprit.Search
import Culprit.Session

/-!
The bisection of one configuration. With a baseline at hand, the build with every unit variant has
to diverge; then the units are searched, and in each suspect unit its symbols. Each search ends
with a trial of exactly its suspects, which shows whether they account for the divergence.

An error ends a bisection only when the units cannot be listed, are none, cannot be told apart, or
when there is no baseline. Everything else that goes wrong is an issue of the report.
-/

namespace Culprit

/-- What all bisections have in common. -/
structure Engine (σ : Type) where
  lab : Lab σ
  run : RunSettings
  trusted : Flags
  /-- Seconds for each command of a build; zero sets no limit. -/
  buildTimeout : Nat
  /-- Whether the suspects are tried together at the end of a search. -/
  verify : Bool
  /-- Whether the symbols of suspect units are searched. -/
  symbols : Bool

/-- One configuration to bisect. -/
structure Request where
  test : String
  precision : String
  variant : Flags
  jobs : Nat
deriving DecidableEq, Repr

def Request.target (q : Request) : Target :=
  ⟨q.test, q.precision⟩

def Experiment.bench {σ : Type} (x : Experiment σ) : Bench (Session σ) where
  cancelled := Session.onWorld x.lab.cancelled
  batch := x.batch

/-- The first symbol of each name, among those whose name is not in `seen`. -/
def LinkSymbol.distinct (seen : List String) : List LinkSymbol → List LinkSymbol
  | [] => []
  | s :: rest =>
    if s.name ∈ seen then distinct seen rest else s :: distinct (s.name :: seen) rest

namespace Engine

variable {σ : Type} (e : Engine σ)

def setup (jobs : Nat) : Setup σ where
  lab := e.lab
  run := e.run
  jobs := max jobs 1
  buildTimeout := e.buildTimeout

def blank (q : Request) (now : String) : Report :=
  .blank q.test q.precision e.trusted.display q.variant.display now

/-- The score of a verification, and an issue when its trial failed. -/
def noteVerification (r : Report) (context : String) : Outcome → Option Score × Report
  | .ok s => (some s, r)
  | .error f => (none, r.addIssue (.ofFailure context f))

/-- Adds what a search found besides its suspects. -/
def noteSearch {α : Type} (r : Report) (found : SearchResult α) : Report :=
  { r with
    interactions := r.interactions ++ found.interactions
    issues := r.issues ++ found.issues
    status := if found.cancelled then .aborted else r.status }

/-- A trial of exactly the suspects, unless there are none or none is wanted. -/
def verifySuspects {α : Type} [Candidate α] (x : Experiment σ) (space : Space α)
    (suspects : List (Suspect α)) (context : String) (r : Report) :
    Attempt (Session σ) (Option Score × Report) := do
  if e.verify && !suspects.isEmpty then do
    let o ← Search.verify x.bench space (suspects.map (·.candidate))
    pure (noteVerification r context o)
  else pure (none, r)

/-- The symbols of a unit from a build with trusted flags, one for each name. -/
def listSymbols (x : Experiment σ) (unit : SourceUnit) :
    StateM (Session σ) (Except Error (List LinkSymbol)) := do
  let listed ← Session.onSite <| ExceptT.run <|
    Site.within e.lab ("symbols-" ++ unit.objectStem) fun workdir =>
      e.lab.pipeline.symbols unit e.trusted workdir x.buildTimeout
  pure (listed.map (LinkSymbol.distinct []))

/-- Searches the symbols of a suspect unit. -/
def symbolPhase (x : Experiment σ) (finding : FileFinding) (r : Report) :
    Attempt (Session σ) (FileFinding × Report) := do
  let unit := finding.unit
  let context := "symbols of " ++ unit.path
  match ← ExceptT.lift (e.listSymbols x unit) with
  | .error fault => pure (finding, r.addIssue ⟨.noSymbols, context, fault.message⟩)
  | .ok [] => pure (finding, r.addIssue ⟨.noSymbols, context, "no global function symbols"⟩)
  | .ok symbols => do
    let space : Space LinkSymbol := ⟨.symbols unit.path, symbols⟩
    match ← Search.confirm x.bench space with
    | .error f => pure (finding, r.addIssue (.ofFailure context f))
    | .ok whole =>
      if whole.isDivergent then do
        let found ← Search.search x.bench space whole
        let (verified, r) ← e.verifySuspects x space found.suspects
          ("suspect symbols of " ++ unit.path ++ " variant") (noteSearch r found)
        let symbols := found.suspects.map fun s => (⟨s.candidate, s.score⟩ : SymbolFinding)
        pure ({ finding with symbols := symbols, verification? := verified }, r)
      else
        pure (finding, r.addIssue ⟨.symbolsAgree, context, unit.path ++ " diverges but its " ++
          toString symbols.length ++ " symbols do not when swapped together"⟩)

/-- The finding for one suspect unit is added to the report. -/
def suspectPhase (x : Experiment σ) (s : Suspect SourceUnit) (r : Report) :
    Attempt (Session σ) Report := do
  let finding : FileFinding := ⟨s.candidate, s.score, [], none⟩
  let (finding, r) ←
    if e.symbols then do
      let stop ← ExceptT.lift x.bench.cancelled
      if stop then
        pure (finding, r.addIssue
          ⟨.cancelled, "symbols of " ++ finding.unit.path, "symbol search skipped"⟩)
      else e.symbolPhase x finding r
    else pure (finding, r)
  pure { r with files := r.files ++ [finding] }

def suspectPhases (x : Experiment σ) : List (Suspect SourceUnit) → Report →
    Attempt (Session σ) Report
  | [], r => pure r
  | s :: rest, r => do
    let r ← e.suspectPhase x s r
    suspectPhases x rest r

/-- Everything after the baseline. -/
def phases (x : Experiment σ) (units : List SourceUnit) (r : Report) :
    Attempt (Session σ) Report := do
  let space : Space SourceUnit := ⟨.units, units⟩
  match ← Search.confirm x.bench space with
  | .error f => pure ({ r with status := .aborted }.addIssue (.ofFailure "all files variant" f))
  | .ok whole =>
    let r := { r with whole? := some whole }
    if whole.isDivergent then do
      let found ← Search.search x.bench space whole
      let (verified, r) ← e.verifySuspects x space found.suspects "suspect files variant"
        (noteSearch r found)
      e.suspectPhases x found.suspects { r with verification? := verified }
    else pure { r with status := .noDivergence }

/-- A search that ended early did not complete. -/
def closeReport (stop : Bool) (s : Session σ) (r : Report) : Report :=
  { r with
    status := if stop && r.status = .completed then .aborted else r.status
    trials := s.trials
    executed := s.executed }

/-- A fresh series of trials on the directories of the archive. -/
def inSession {α : Type} (a : Attempt (Session σ) α) :
    StateM (Archive σ) (Except Error α × Session σ) := fun s =>
  let (r, session) := a.run (Session.start s.site)
  ((r, session), { s with site := session.site })

def listUnits : Attempt (Archive σ) (List SourceUnit) := do
  let units ← ExceptT.mk (Archive.onSite (Site.lift e.lab.pipeline.units.result))
  if units.isEmpty then throw (.noUnits e.lab.pipeline.name) else pure units

def bisect (q : Request) : Attempt (Archive σ) Report := do
  let now ← ExceptT.lift (Archive.onSite (Site.lift e.lab.now))
  let units ← e.listUnits
  let baseline ← Archive.establish (e.setup q.jobs) e.trusted q.target
  let x : Experiment σ :=
    { e.setup q.jobs with
      baseline := baseline, trusted := e.trusted, variant := q.variant, target := q.target }
  let (done, session) ← ExceptT.lift (inSession (e.phases x units (e.blank q now)))
  let r ← Attempt.of done
  -- No look may have come after the last trials.
  let stop ← ExceptT.lift (Archive.onSite (Site.lift e.lab.cancelled))
  pure (closeReport stop session r)

end Engine

end Culprit
