import Culprit.Baseline

/-!
Trials of one configuration against its baseline. A batch goes in passes: what is remembered is
answered at once; everything else is built; then everything built is run; at last a repetition
within the batch takes the outcome of its first occurrence. So no build overlaps a run. An outcome
is remembered under the partition's signature unless a cancellation was under way.
-/

namespace Culprit

/-- One configuration under test. -/
structure Experiment (σ : Type) extends Setup σ where
  baseline : Baseline
  trusted : Flags
  variant : Flags
  target : Target

/-- What a series of trials leaves behind. -/
structure Session (σ : Type) where
  site : Site σ
  memory : List (String × Outcome)
  /-- Trials that were built, or tried to be. -/
  executed : Nat
  trials : List Trial

namespace Session

variable {σ : Type}

def start (site : Site σ) : Session σ := ⟨site, [], 0, []⟩

def onSite {α : Type} (a : StateM (Site σ) α) : StateM (Session σ) α := fun s =>
  let (r, site) := a s.site
  (r, { s with site := site })

def onWorld {α : Type} (a : StateM σ α) : StateM (Session σ) α :=
  onSite (Site.lift a)

def remembered? (s : Session σ) (signature : String) : Option Outcome :=
  s.memory.lookup signature

def remember (s : Session σ) (signature : String) (o : Outcome) : Session σ :=
  { s with memory := (signature, o) :: s.memory }

end Session

/-- How far a task of a batch has come. -/
inductive Progress where
  | settled (outcome : Outcome)
  /-- To be built. -/
  | waiting
  /-- Its signature came earlier in the batch. -/
  | repeated
  | built (workspace : Workspace) (made : Built)

structure Task where
  partition : Partition
  signature : String
  progress : Progress

namespace Experiment

variable {σ : Type} (x : Experiment σ)

/-- Numbers the trial, logs it and shows it. A log that cannot be written stops nothing. -/
def record (p : Partition) (o : Outcome) (buildMs? runMs? : Option Nat) (cached : Bool) :
    StateM (Session σ) Unit := do
  let t := Trial.ofOutcome ((← get).trials.length + 1) p o buildMs? runMs? cached
  discard (Session.onWorld (x.lab.appendLog t).result)
  Session.onWorld (x.lab.observe t)
  modify fun s => { s with trials := s.trials ++ [t] }

/-- The end of a trial that was not remembered. -/
def finish (t : Task) (o : Outcome) (buildMs? runMs? : Option Nat) :
    StateM (Session σ) Task := do
  let stop ← Session.onWorld x.lab.cancelled
  if !stop then modify (·.remember t.signature o)
  x.record t.partition o buildMs? runMs? false
  pure { t with progress := .settled o }

/-- The first pass. `seen` holds the signatures that are waiting already. -/
def recallAll (seen : List String) : List Partition → StateM (Session σ) (List Task)
  | [] => pure []
  | p :: rest => do
    let signature := p.signature
    match (← get).remembered? signature with
    | some o => do
      x.record p o none none true
      let others ← recallAll seen rest
      pure (⟨p, signature, .settled o⟩ :: others)
    | none =>
      if signature ∈ seen then do
        let others ← recallAll seen rest
        pure (⟨p, signature, .repeated⟩ :: others)
      else do
        let others ← recallAll (signature :: seen) rest
        pure (⟨p, signature, .waiting⟩ :: others)

def workspaceLabel (signature : String) : String :=
  "trial-" ++ String.ofList (signature.toList.take 12)

/-- Builds one partition in a fresh directory, which is given back when the build fails. -/
def buildTask (t : Task) : StateM (Session σ) Task := do
  match t.progress with
  | .waiting => do
    -- Counted first, so a trial for which there is no directory counts, too.
    modify fun s => { s with executed := s.executed + 1 }
    let acquired ← Session.onSite (Site.acquire x.lab (workspaceLabel t.signature)).run
    match acquired with
    | .error e => x.finish t (.error ⟨.build, e.message⟩) none none
    | .ok w => do
      let made ← Session.onWorld (x.build t.partition x.trusted x.variant w.path).run
      match made with
      | .error f => do
        Session.onSite (Site.drop x.lab w)
        x.finish t (.error f) none none
      | .ok made => pure { t with progress := .built w made }
  | _ => pure t

/-- The comparison is part of the run; an error in it is a failure of the run. -/
def compare (output : String) : Outcome :=
  match x.lab.comparator.compare x.baseline.output output with
  | .ok value => .ok (Score.ofComparison value)
  | .error e => .error ⟨.run, "comparison failed: " ++ e.message⟩

/-- The outcome of a run, and its milliseconds when there is a score. -/
def judge : Except Failure (String × Nat) → Outcome × Option Nat
  | .error f => (.error f, none)
  | .ok (output, ms) =>
    match x.compare output with
    | .ok score => (.ok score, some ms)
    | .error f => (.error f, none)

/-- Runs what was built for one partition and gives its directory back. -/
def runTask (t : Task) : StateM (Session σ) Task := do
  match t.progress with
  | .built w made => do
    let ran ← Session.onWorld (x.execute made.executable x.target w.path).run
    let (o, runMs?) := x.judge ran
    Session.onSite (Site.drop x.lab w)
    x.finish t o (some made.ms) runMs?
  | _ => pure t

/-- The last pass. -/
def settleTask (t : Task) : StateM (Session σ) Outcome := do
  match t.progress with
  | .settled o => pure o
  | _ => do
    -- Nothing is remembered when the first occurrence was cut short.
    let o := ((← get).remembered? t.signature).getD (.error ⟨.run, "cancelled"⟩)
    x.record t.partition o none none true
    pure o

/-- The outcomes come in the order of the partitions. -/
def batch (ps : List Partition) : StateM (Session σ) (List Outcome) := do
  let tasks ← x.recallAll [] ps
  let tasks ← tasks.mapM x.buildTask
  let tasks ← tasks.mapM x.runTask
  tasks.mapM x.settleTask

end Experiment

end Culprit
