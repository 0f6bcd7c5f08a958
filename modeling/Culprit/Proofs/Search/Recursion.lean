import Culprit.Proofs.Search.Trials

/-!
The search as a recursion over the halves of a set, which knows the outcome of every trial
beforehand. What it finds are members of the set in their order.
-/

namespace Culprit.Search

variable {α : Type}

/-- What a part of a search comes upon. -/
structure Findings (α : Type) where
  found : List (Member α × Score)
  interactions : List Interaction
  issues : List Issue

namespace Findings

def append (f g : Findings α) : Findings α :=
  ⟨f.found ++ g.found, f.interactions ++ g.interactions, f.issues ++ g.issues⟩

instance : Append (Findings α) := ⟨append⟩

/-- Nothing but the given issues. -/
def ofIssues (is : List Issue) : Findings α :=
  ⟨[], [], is⟩

def suspects (f : Findings α) : List (Suspect α) :=
  f.found.map fun x => ⟨x.1.1, x.2⟩

end Findings

/-- A trial that neither diverged nor failed. -/
def isSilent : Outcome → Bool
  | .ok s => !s.isDivergent
  | .error _ => false

variable [Candidate α]

section Recursion

variable (oracle : Partition → Outcome) (space : Space α)

/-- The partition with exactly `ms` variant. -/
def partitionOf (ms : List (Member α)) : Partition :=
  space.bipartition (memberKeys ms)

/-- The outcome with exactly `ms` variant. -/
def outcomeOf (ms : List (Member α)) : Outcome :=
  oracle (partitionOf space ms)

/-- The members that diverge when they alone are variant, with their scores. -/
def divergentAlone (ms : List (Member α)) : List (Member α × Score) :=
  ms.filterMap fun m =>
    match outcomeOf oracle space [m] with
    | .ok s => if s.isDivergent then some (m, s) else none
    | .error _ => none

/-- One issue for each member whose trial alone fails. -/
def failedAlone (ms : List (Member α)) : List Issue :=
  ms.filterMap fun m =>
    match outcomeOf oracle space [m] with
    | .ok _ => none
    | .error f => some (.ofFailure (partitionOf space [m]).describe f)

/-- Every member is tried alone: those that diverge are found, and the set is an interaction. -/
def isolated (failed : List (Member α) → List Issue) (ms : List (Member α)) : Findings α :=
  let alone := divergentAlone oracle space ms
  let attributed := alone.map fun f => Candidate.key f.1.1
  ⟨alone, [⟨space.scope.display, memberKeys ms, attributed⟩],
    failed ms ++ [interactionIssue space.scope (memberKeys ms) attributed]⟩

/-- What the search makes of a half, if `solved` is what it makes of a half that diverges. -/
def followed (solved : Score → Findings α) (half : List (Member α)) : Findings α :=
  match outcomeOf oracle space half with
  | .ok s => if s.isDivergent then solved s else .ofIssues []
  | .error f => .ofIssues [.ofFailure (partitionOf space half).describe f]

/-- The recursion. A single member is found; a larger set is divided, the larger half first, and
each half that diverges is solved in turn; when both are silent, every member is tried alone.
What is reported of single trials that fail is left open. -/
def solve (failed : List (Member α) → List Issue) (ms : List (Member α)) (score : Score) :
    Findings α :=
  if ms.length ≤ 1 then ⟨ms.map (·, score), [], []⟩
  else
    let first := ms.take ((ms.length + 1) / 2)
    let second := ms.drop ((ms.length + 1) / 2)
    if isSilent (outcomeOf oracle space first) && isSilent (outcomeOf oracle space second) then
      isolated oracle space failed ms
    else
      followed oracle space (solve failed first) first ++
        followed oracle space (solve failed second) second
termination_by ms.length
decreasing_by
  · simp only [List.length_take]
    omega
  · simp only [List.length_drop]
    omega

end Recursion

section Branches

variable {oracle : Partition → Outcome} {space : Space α} {failed : List (Member α) → List Issue}
  {ms : List (Member α)} {score : Score}

theorem solve_of_length_le (h : ms.length ≤ 1) :
    solve oracle space failed ms score = ⟨ms.map (·, score), [], []⟩ := by
  rw [solve, if_pos h]

theorem solve_of_large (h : 2 ≤ ms.length) :
    solve oracle space failed ms score =
      if ∀ half ∈ halfSets ms, isSilent (outcomeOf oracle space half) = true then
        isolated oracle space failed ms
      else
        followed oracle space (solve oracle space failed (halves ms).1) (halves ms).1 ++
          followed oracle space (solve oracle space failed (halves ms).2) (halves ms).2 := by
  rw [solve, if_neg (by omega)]
  simp only [halfSets, halves, List.splitAt_eq, List.forall_mem_cons, List.not_mem_nil,
    false_implies, implies_true, and_true, Bool.and_eq_true]

end Branches

/-! ### The order of the findings -/

section Order

variable {oracle : Partition → Outcome} {space : Space α} {failed : List (Member α) → List Issue}

theorem divergentAlone_sublist (ms : List (Member α)) :
    ((divergentAlone oracle space ms).map Prod.fst).Sublist ms := by
  induction ms with
  | nil => exact List.Sublist.refl _
  | cons m ms ih =>
      rw [divergentAlone, List.filterMap_cons, ← divergentAlone]
      cases outcomeOf oracle space [m] with
      | error f => exact ih.cons m
      | ok s =>
          by_cases hs : s.isDivergent
          · simpa [hs] using ih
          · simpa [hs] using ih.cons m

theorem followed_sublist {solved : Score → Findings α} {half : List (Member α)}
    (h : ∀ s, ((solved s).found.map Prod.fst).Sublist half) :
    ((followed oracle space solved half).found.map Prod.fst).Sublist half := by
  rw [followed]
  cases outcomeOf oracle space half with
  | error f => exact List.nil_sublist _
  | ok s =>
      by_cases hs : s.isDivergent
      · simpa [hs] using h s
      · simp [hs, Findings.ofIssues]

/-- The recursion finds members of its set, in their order. -/
theorem solve_sublist (ms : List (Member α)) (score : Score) :
    ((solve oracle space failed ms score).found.map Prod.fst).Sublist ms := by
  fun_induction solve oracle space failed ms score with
  | case1 ms score hsmall => simp [Function.comp_def]
  | case2 ms score hlarge first second hsilent => exact divergentAlone_sublist ms
  | case3 ms score hlarge first second hlead ih₁ ih₂ =>
      have happend : first ++ second = ms := List.take_append_drop _ _
      rw [← happend]
      show (List.map Prod.fst (_ ++ _)).Sublist _
      rw [List.map_append]
      exact (followed_sublist ih₁).append (followed_sublist ih₂)

theorem solve_pairwise {ms : List (Member α)} (hms : ms.Sublist space.candidates.zipIdx)
    (score : Score) : (solve oracle space failed ms score).found.Pairwise Before := by
  have hsub : ((solve oracle space failed ms score).found.map Prod.fst).Sublist
      space.candidates.zipIdx := (solve_sublist ms score).trans hms
  have hpairwise := (zipIdx_pairwise space.candidates).sublist hsub
  rw [List.pairwise_map] at hpairwise
  exact hpairwise

end Order

end Culprit.Search
