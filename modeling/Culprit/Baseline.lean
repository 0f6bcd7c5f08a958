import Culprit.Setup

/-!
A baseline is the output of the build with only trusted flags. There is one for each flag set and
target; it is built when it is first asked for and kept, and so is the reason why it could not be
built. What is found while a cancellation is under way is not kept.
-/

namespace Culprit

structure Baseline where
  target : Target
  flags : Flags
  output : String
  buildMs : Nat
  runMs : Nat
deriving DecidableEq, Repr

/-- A baseline or the reason why there is none. -/
abbrev Verdict := Except String Baseline

/-- A slot is empty from the first request until its verdict is reached. -/
structure Baselines where
  slots : List (String × Option Verdict)
  /-- Baselines that were built, or tried to be. -/
  builds : Nat

namespace Baselines

def empty : Baselines := ⟨[], 0⟩

/-- The text that identifies a configuration. -/
def key (flags : Flags) (target : Target) : String :=
  flags.display ++ "|" ++ target.precision ++ "|" ++ target.test

def slot? (b : Baselines) (key : String) : Option (Option Verdict) :=
  b.slots.lookup key

/-- An empty slot, unless there is one. -/
def reserve (b : Baselines) (key : String) : Baselines :=
  match b.slot? key with
  | some _ => b
  | none => { b with slots := b.slots ++ [(key, none)] }

def store (b : Baselines) (key : String) (v : Verdict) : Baselines :=
  { b with slots := b.slots.map fun s => if s.1 = key then (s.1, some v) else s }

def countBuild (b : Baselines) : Baselines :=
  { b with builds := b.builds + 1 }

def cached (b : Baselines) (flags : Flags) (target : Target) : Option Baseline :=
  match b.slot? (key flags target) with
  | some (some (.ok baseline)) => some baseline
  | _ => none

@[simp] theorem slot?_empty (key : String) : empty.slot? key = none := rfl

end Baselines

/-- What outlives one bisection: the outside, its directories and the baselines. -/
structure Archive (σ : Type) where
  site : Site σ
  baselines : Baselines

namespace Archive

variable {σ : Type}

def onSite {α : Type} (a : StateM (Site σ) α) : StateM (Archive σ) α := fun s =>
  let (r, site) := a s.site
  (r, { s with site := site })

def modifyBaselines (f : Baselines → Baselines) : StateM (Archive σ) Unit :=
  modify fun s => { s with baselines := f s.baselines }

/-- Builds with trusted flags for every unit and runs the target, in a directory of its own. -/
def compute (x : Setup σ) (trusted : Flags) (target : Target) :
    ExceptT String (StateM (Site σ)) Baseline := do
  let units ← ExceptT.adapt Error.message (Site.attempt x.lab.pipeline.units)
  let p := Partition.allTrusted .units (keysOf units)
  let w ← ExceptT.adapt Error.message (Site.acquire x.lab ("truth-" ++ target.precision))
  let made ← ExceptT.lift <| Site.lift <| ExceptT.run <| ExceptT.adapt Failure.display do
    let built ← x.build p trusted trusted w.path
    let (output, runMs) ← x.execute built.executable target w.path
    pure { target := target, flags := trusted, output := output, buildMs := built.ms,
           runMs := runMs : Baseline }
  match made with
  | .error detail => do
    ExceptT.lift (Site.drop x.lab w)
    throw detail
  | .ok baseline => do
    let (released, _) ← ExceptT.lift (Site.release x.lab w)
    -- A baseline whose directory cannot be given back is none.
    match released with
    | .error e => throw e.message
    | .ok () => pure baseline

/-- The work on a slot while nobody else looks at it: a verdict that is there is final, else the
baseline is built, and the verdict is kept unless the run was cancelled meanwhile. -/
def decide (x : Setup σ) (trusted : Flags) (target : Target) : StateM (Archive σ) Verdict := do
  let key := Baselines.key trusted target
  match (← get).baselines.slot? key with
  | some (some v) => pure v
  | _ => do
    modifyBaselines Baselines.countBuild
    let v ← onSite (compute x trusted target).run
    let stop ← onSite (Site.lift x.lab.cancelled)
    if stop then pure v
    else do
      modifyBaselines (·.store key v)
      pure v

def establish (x : Setup σ) (trusted : Flags) (target : Target) :
    Attempt (Archive σ) Baseline := do
  ExceptT.lift (modifyBaselines (·.reserve (Baselines.key trusted target)))
  let v ← ExceptT.lift (decide x trusted target)
  match v with
  | .ok baseline => pure baseline
  | .error detail => throw (.baseline (target.display ++ " with " ++ trusted.display) detail)

end Archive

end Culprit
