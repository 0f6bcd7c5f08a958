import Culprit.Decimal.Notation
import Culprit.Partition

/-!
The outcome of trying one partition, and the record that is kept of it. A score tells how far the
output of a trial is from the baseline; only whether it is zero steers a search.
-/

namespace Culprit

structure Score where
  value : Float
deriving DecidableEq, Repr

namespace Score

/-- A comparison that yields no finite number counts as the greatest difference; the sign of the
others is dropped. -/
def ofComparison (value : Float) : Score :=
  if value.isNaN || value.isInf then ⟨Decimal.largest⟩ else ⟨value.abs⟩

def isDivergent (s : Score) : Bool :=
  s.value != 0

def display (s : Score) : String :=
  Decimal.plain s.value

end Score

/-- The step of a trial that failed. -/
inductive Stage where
  | build
  | run
deriving DecidableEq, Repr

structure Failure where
  stage : Stage
  detail : String
deriving DecidableEq, Repr

def Failure.display (f : Failure) : String :=
  match f.stage with
  | .build => "build failure: " ++ f.detail
  | .run => "runtime failure: " ++ f.detail

/-- A failure is never turned into a score. -/
abbrev Outcome := Except Failure Score

/-- The version of the record format. -/
def Trial.formatVersion : Nat := 1

/-- One trial as it is logged and reported. A cached trial repeats an earlier outcome. -/
structure Trial where
  version : Nat
  seq : Nat
  description : String
  signature : String
  variantCount : Nat
  score? : Option Score
  failure? : Option Failure
  buildMs? : Option Nat
  runMs? : Option Nat
  cached : Bool
deriving DecidableEq, Repr

namespace Trial

def score?Of : Outcome → Option Score
  | .ok s => some s
  | .error _ => none

def failure?Of : Outcome → Option Failure
  | .ok _ => none
  | .error f => some f

def ofOutcome (seq : Nat) (p : Partition) (o : Outcome) (buildMs? runMs? : Option Nat)
    (cached : Bool) : Trial where
  version := formatVersion
  seq := seq
  description := p.describe
  signature := p.signature
  variantCount := p.variant.length
  score? := score?Of o
  failure? := failure?Of o
  buildMs? := buildMs?
  runMs? := runMs?
  cached := cached

def label (t : Trial) : String :=
  match t.score?, t.failure? with
  | some s, _ => "score=" ++ s.display
  | none, some f => f.display
  | none, none => "no result"

@[simp] theorem failure?Of_error (f : Failure) : failure?Of (.error f) = some f := rfl

end Trial

end Culprit
