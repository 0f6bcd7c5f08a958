import Culprit.Lab

/-!
Each build gets a directory of its own. A ledger counts the directories handed out, those still
held, and the most that were held at one time; every way out of a trial gives its directory back.
-/

namespace Culprit

structure Ledger where
  acquired : Nat
  active : Nat
  peak : Nat
deriving DecidableEq, Repr, Inhabited

namespace Ledger

def empty : Ledger := ⟨0, 0, 0⟩

def countAcquired (l : Ledger) : Ledger :=
  { l with acquired := l.acquired + 1 }

/-- One more is held; the new number is told. -/
def countActive (l : Ledger) : Nat × Ledger :=
  (l.active + 1, { l with active := l.active + 1 })

def raisePeak (l : Ledger) (now : Nat) : Ledger :=
  { l with peak := max l.peak now }

def enter (l : Ledger) : Ledger :=
  let (now, counted) := l.countAcquired.countActive
  counted.raisePeak now

def leave (l : Ledger) : Ledger :=
  { l with active := l.active - 1 }

@[simp] theorem active_enter (l : Ledger) : l.enter.active = l.active + 1 := rfl

@[simp] theorem peak_enter (l : Ledger) : l.enter.peak = max l.peak (l.active + 1) := rfl

@[simp] theorem active_leave (l : Ledger) : l.leave.active = l.active - 1 := rfl

@[simp] theorem peak_leave (l : Ledger) : l.leave.peak = l.peak := rfl

end Ledger

/-- The outside together with the ledger of the directories in it. -/
structure Site (σ : Type) where
  world : σ
  ledger : Ledger

/-- A directory that is held until it is released. -/
structure Workspace where
  path : String
  held : Bool := true
deriving DecidableEq, Repr

namespace Workspace

def labelChar (c : Char) : Char :=
  if c.isAlphanum || c = '-' || c = '_' then c else '_'

/-- Letters, digits, dashes and underscores only, at most sixty of them and at least one. -/
def cleanLabel (label : String) : String :=
  let cs := (label.toList.map labelChar).take 60
  if cs.isEmpty then "trial" else String.ofList cs

end Workspace

namespace Site

variable {σ : Type}

def lift {α : Type} (a : StateM σ α) : StateM (Site σ) α := fun s =>
  let (r, world) := a s.world
  (r, { s with world := world })

def attempt {α : Type} (a : Attempt σ α) : Attempt (Site σ) α :=
  ExceptT.mk (lift a.result)

def modifyLedger (f : Ledger → Ledger) : StateM (Site σ) Unit :=
  modify fun s => { s with ledger := f s.ledger }

/-- A fresh directory whose name starts with `label`. -/
def acquire (lab : Lab σ) (label : String) : Attempt (Site σ) Workspace := do
  let path ← attempt (lab.makeDirectory (Workspace.cleanLabel label ++ "-"))
  ExceptT.lift (modifyLedger Ledger.enter)
  pure { path := path }

/-- Gives the directory back; one that was given back already is left alone. The ledger counts it
even when the removal fails. -/
def release (lab : Lab σ) (w : Workspace) : StateM (Site σ) (Except Error Unit × Workspace) := do
  if w.held then
    modifyLedger Ledger.leave
    let removed ← if lab.deletes then lift (lab.removeDirectory w.path).result else pure (.ok ())
    pure (removed, { w with held := false })
  else pure (.ok (), w)

/-- Release where nobody asks for an error. -/
def drop (lab : Lab σ) (w : Workspace) : StateM (Site σ) Unit :=
  discard (release lab w)

/-- Runs `body` in a fresh directory. The directory is released whether or not `body` fails; an
error of `body` comes before one of the release. -/
def within {α : Type} (lab : Lab σ) (label : String) (body : String → Attempt σ α) :
    Attempt (Site σ) α := do
  let w ← acquire lab label
  let done ← ExceptT.lift (lift (body w.path).result)
  match done with
  | .error e => do
    ExceptT.lift (drop lab w)
    throw e
  | .ok a => do
    let (released, _) ← ExceptT.lift (release lab w)
    Attempt.of (released.map fun _ => a)

end Site

end Culprit
