import Culprit.Report
import Culprit.Workspace

/-!
The search for the candidates behind a divergence. A branch is a set of candidates that diverges
when all of it is variant. Branches wait in a queue; the first is halved, larger half first, and
both halves are tried in one batch.

* Each half that diverges becomes a branch.
* A half whose trial failed is reported and given up.
* When neither diverges and neither failed, every member is tried alone; the set is reported as an
  interaction, with the members that diverge alone.

A branch of one candidate is a suspect with the score that made it a branch.
-/

namespace Culprit

/-- Where partitions are tried: an action that tries several in one batch, and a look at whether the
run was cancelled. -/
structure Bench (τ : Type) where
  cancelled : StateM τ Bool
  batch : List Partition → StateM τ (List Outcome)

/-- A batch of one. -/
def Bench.trial {τ : Type} (b : Bench τ) (p : Partition) : StateM τ Outcome := do
  match ← b.batch [p] with
  | o :: _ => pure o
  | [] => pure (.error ⟨.run, "trial produced no outcome"⟩)

structure Suspect (α : Type) where
  candidate : α
  score : Score
deriving DecidableEq, Repr

structure SearchResult (α : Type) where
  /-- In the order of the candidates. -/
  suspects : List (Suspect α)
  interactions : List Interaction
  issues : List Issue
  cancelled : Bool
deriving DecidableEq, Repr

namespace SearchResult

def empty {α : Type} : SearchResult α := ⟨[], [], [], false⟩

end SearchResult

/-- The candidates of one search and what they are. -/
structure Space (α : Type) where
  scope : Scope
  candidates : List α

namespace Search

/-- A candidate with its position. -/
abbrev Member (α : Type) := α × Nat

structure Branch (α : Type) where
  members : List (Member α)
  score : Score

/-- What the search has found so far. -/
structure Tally (α : Type) where
  found : List (Member α × Score)
  interactions : List Interaction
  issues : List Issue
  cancelled : Bool

namespace Tally

variable {α : Type}

def empty : Tally α := ⟨[], [], [], false⟩

def emit (t : Tally α) (m : Member α) (s : Score) : Tally α :=
  { t with found := t.found ++ [(m, s)] }

def addIssues (t : Tally α) (is : List Issue) : Tally α :=
  { t with issues := t.issues ++ is }

/-- The search ends with `left` branches unexplored. -/
def stop (t : Tally α) (scope : Scope) (left : Nat) : Tally α :=
  { t with cancelled := true }.addIssues
    [⟨.cancelled, scope.display, toString left ++ " candidate sets left unexplored"⟩]

/-- The suspects in the order of their positions. -/
def result (t : Tally α) : SearchResult α where
  suspects := (t.found.mergeSort fun a b => a.1.2 ≤ b.1.2).map fun f => ⟨f.1.1, f.2⟩
  interactions := t.interactions
  issues := t.issues
  cancelled := t.cancelled

end Tally

/-- The larger half comes first. -/
def halves {α : Type} (ms : List α) : List α × List α :=
  ms.splitAt ((ms.length + 1) / 2)

/-- The work that a branch can still cause: its halvings and its leaves. -/
def Branch.weight {α : Type} (b : Branch α) : Nat :=
  -- An empty set weighs one, so that dropping it makes the queue lighter, too.
  2 * b.members.length - 1 + (1 - b.members.length)

def weight {α : Type} : List (Branch α) → Nat
  | [] => 0
  | b :: bs => b.weight + weight bs

/-- The sets that diverged, as branches with their scores. -/
def diverging {α : Type} : List (List (Member α)) → List Outcome → List (Branch α)
  | ms :: rest, .ok s :: os =>
    if s.isDivergent then ⟨ms, s⟩ :: diverging rest os else diverging rest os
  | _ :: rest, .error _ :: os => diverging rest os
  | _, _ => []

/-- An issue for each partition whose trial failed. -/
def failures : List Partition → List Outcome → List Issue
  | p :: ps, .error f :: os => .ofFailure p.describe f :: failures ps os
  | _ :: ps, .ok _ :: os => failures ps os
  | _, _ => []

@[simp] theorem weight_nil {α : Type} : weight ([] : List (Branch α)) = 0 := rfl

@[simp] theorem weight_cons {α : Type} (b : Branch α) (bs : List (Branch α)) :
    weight (b :: bs) = b.weight + weight bs := rfl

@[simp] theorem weight_append {α : Type} (bs cs : List (Branch α)) :
    weight (bs ++ cs) = weight bs + weight cs := by
  induction bs with
  | nil => simp
  | cons b bs ih => simp [ih, Nat.add_assoc]

theorem weight_pos {α : Type} (b : Branch α) : 0 < b.weight := by
  simp only [Branch.weight]
  omega

theorem weight_diverging_le {α : Type} (a b : List (Member α)) (os : List Outcome) :
    weight (diverging [a, b] os) ≤ 2 * a.length - 1 + (1 - a.length) +
      (2 * b.length - 1 + (1 - b.length)) := by
  have h1 (c : List (Member α)) (qs : List Outcome) :
      weight (diverging [c] qs) ≤ 2 * c.length - 1 + (1 - c.length) := by
    rcases qs with _ | ⟨_ | s, qs⟩
    · simp [diverging]
    · simp [diverging]
    · simp only [diverging]
      split <;> simp [Branch.weight]
  rcases os with _ | ⟨_ | s, os⟩
  · simp [diverging]
  · simp only [diverging]
    exact Nat.le_trans (h1 b os) (by omega)
  · simp only [diverging]
    split
    · simp only [weight_cons, Branch.weight]
      have := h1 b os
      omega
    · exact Nat.le_trans (h1 b os) (by omega)

theorem halves_lengths {α : Type} (ms : List α) :
    (halves ms).1.length = (ms.length + 1) / 2 ∧ (halves ms).2.length = ms.length / 2 := by
  simp only [halves, List.splitAt_eq, List.length_take, List.length_drop]
  omega

theorem weight_halves_lt {α : Type} (m n : Member α) (ms : List (Member α)) (s : Score)
    (os : List Outcome) :
    weight (diverging [(halves (m :: n :: ms)).1, (halves (m :: n :: ms)).2] os) <
      (Branch.mk (m :: n :: ms) s).weight := by
  refine Nat.lt_of_le_of_lt (weight_diverging_le _ _ os) ?_
  obtain ⟨h1, h2⟩ := halves_lengths (m :: n :: ms)
  simp only [h1, h2, Branch.weight, List.length_cons]
  omega

variable {α τ : Type} [Candidate α]

def keys (space : Space α) : List String :=
  keysOf space.candidates

def memberKeys (ms : List (Member α)) : List String :=
  ms.map fun m => Candidate.key m.1

/-- Exactly the given members variant. -/
def partition (space : Space α) (ms : List (Member α)) : Except Error Partition :=
  Partition.of space.scope (keys space) (memberKeys ms)

def interactionIssue (scope : Scope) (names attributed : List String) : Issue where
  kind := .interaction
  context := scope.display
  detail := "no half of [" ++ String.intercalate " " names ++ "] diverges alone; " ++
    toString attributed.length ++ " of " ++ toString names.length ++ " diverge in isolation"

/-- The members that diverge alone become suspects, and the set an interaction. -/
def Tally.isolate (t : Tally α) (scope : Scope) (ms : List (Member α)) (singles : List Partition)
    (os : List Outcome) : Tally α :=
  let alone := diverging (ms.map fun m => [m]) os
  let attributed := alone.flatMap fun b => memberKeys b.members
  { t with
    found := t.found ++ alone.flatMap fun b => b.members.map fun m => (m, b.score)
    issues := t.issues ++ failures singles os ++
      [interactionIssue scope (memberKeys ms) attributed]
    interactions := t.interactions ++ [⟨scope.display, memberKeys ms, attributed⟩] }

/-- Tries every member alone. -/
def leaveOneOut (bench : Bench τ) (space : Space α) (ms : List (Member α)) (t : Tally α) :
    Attempt τ (Tally α) := do
  let singles ← Attempt.of (ms.mapM fun m => partition space [m])
  let os ← ExceptT.lift (bench.batch singles)
  pure (t.isolate space.scope ms singles os)

/-- What to do next after the halves of `ms` were tried. -/
def conclude (bench : Bench τ) (space : Space α) (ms : List (Member α)) (ps : List Partition)
    (os : List Outcome) (survivors : List (Branch α)) (t : Tally α) : Attempt τ (Tally α) :=
  let failed := failures ps os
  let t := t.addIssues failed
  if survivors.isEmpty && failed.isEmpty then leaveOneOut bench space ms t else pure t

/-- Works the queue off. -/
def explore (bench : Bench τ) (space : Space α) : List (Branch α) → Tally α → Attempt τ (Tally α)
  | [], t => pure t
  | b :: rest, t => do
    let stop ← ExceptT.lift bench.cancelled
    if stop then pure (t.stop space.scope (rest.length + 1))
    else match b with
      | ⟨[], _⟩ => explore bench space rest t
      | ⟨[m], s⟩ => explore bench space rest (t.emit m s)
      | ⟨m :: n :: ms, _⟩ => do
        let parts := halves (m :: n :: ms)
        let ps ← Attempt.of ([parts.1, parts.2].mapM (partition space))
        let os ← ExceptT.lift (bench.batch ps)
        let stop ← ExceptT.lift bench.cancelled
        -- The outcomes may be due to the request to stop, so the branch counts as unexplored.
        if stop then pure (t.stop space.scope (rest.length + 1))
        else do
          let survivors := diverging [parts.1, parts.2] os
          let t ← conclude bench space (m :: n :: ms) ps os survivors t
          explore bench space (rest ++ survivors) t
termination_by queue => weight queue
decreasing_by
  · simp only [weight_cons]
    have := weight_pos (⟨[], ‹Score›⟩ : Branch α)
    omega
  · simp only [weight_cons]
    have := weight_pos (⟨[m], s⟩ : Branch α)
    omega
  · simp only [weight_cons, weight_append]
    have := weight_halves_lt m n ms ‹Score› os
    omega

/-- The trial with every candidate variant, which tells whether there is anything to search for. -/
def confirm (bench : Bench τ) (space : Space α) : Attempt τ Outcome := do
  let p ← Attempt.of (partition space space.candidates.zipIdx)
  ExceptT.lift (bench.trial p)

/-- The trial with exactly `subset` variant. -/
def verify (bench : Bench τ) (space : Space α) (subset : List α) : Attempt τ Outcome := do
  let p ← Attempt.of (Partition.of space.scope (keys space) (keysOf subset))
  ExceptT.lift (bench.trial p)

/-- Searches all candidates, which together gave the score `whole`. -/
def search (bench : Bench τ) (space : Space α) (whole : Score) : Attempt τ (SearchResult α) := do
  if space.candidates.isEmpty then pure .empty
  else
    let t ← explore bench space [⟨space.candidates.zipIdx, whole⟩] .empty
    pure t.result

end Search

end Culprit
