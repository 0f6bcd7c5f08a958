import Culprit.Proofs.Search.Recursion
import Culprit.Proofs.Search.Turn
import Mathlib.Algebra.Order.Group.Multiset
import Mathlib.Data.Multiset.AddSub
import Mathlib.Algebra.Group.Prod
import Mathlib.Algebra.BigOperators.Group.List.Basic
import Mathlib.Tactic.Abel

/-!
The loop of a search against the recursion. What the loop finds in the order of its queue, the
recursion finds depth first. The two agree up to that order, for every oracle: a turn puts the
parts of a branch in its place, and so keeps the bag of what has been found together with all that
the recursion will make of the queue.
-/

namespace Culprit.Search

variable {α τ : Type}

/-! ### The bag of findings -/

namespace Findings

/-- The findings regardless of their order. -/
def bag (f : Findings α) : Multiset (Member α × Score) × Multiset Interaction × Multiset Issue :=
  (f.found, f.interactions, f.issues)

@[simp] theorem bag_append (f g : Findings α) : (f ++ g).bag = f.bag + g.bag := rfl

@[simp] theorem bag_ofIssues_nil : (ofIssues [] : Findings α).bag = 0 := rfl

theorem perm_of_bag_eq {f g : Findings α} (h : f.bag = g.bag) :
    f.found.Perm g.found ∧ f.interactions.Perm g.interactions ∧ f.issues.Perm g.issues := by
  simp only [bag, Prod.mk.injEq, Multiset.coe_eq_coe] at h
  exact h

end Findings

/-- What a tally has come upon so far. -/
def Tally.findings (t : Tally α) : Findings α :=
  ⟨t.found, t.interactions, t.issues⟩

theorem bag_emit (t : Tally α) (m : Member α) (s : Score) :
    (t.emit m s).findings.bag = t.findings.bag + (⟨[(m, s)], [], []⟩ : Findings α).bag := by
  simp [Tally.findings, Tally.emit, Findings.bag, ← Multiset.coe_add]

theorem bag_addIssues (t : Tally α) (is : List Issue) :
    (t.addIssues is).findings.bag = t.findings.bag + (Findings.ofIssues is : Findings α).bag := by
  simp [Tally.findings, Tally.addIssues, Findings.bag, Findings.ofIssues]

/-! ### Batches that follow an oracle -/

theorem isSilent_iff {o : Outcome} {ms : List (Member α)} {p : Partition} :
    isSilent o = true ↔ branch? (ms, o) = none ∧ issue? (p, o) = none := by
  cases o with
  | error f => simp [isSilent, issue?]
  | ok s => simp [isSilent, branch?, issue?]

theorem zip_map_self {β γ : Type} (xs : List β) (f : β → γ) :
    xs.zip (xs.map f) = xs.map fun x => (x, f x) := by
  simpa using List.zip_map' (f := id) (g := f) (l := xs)

theorem diverging_map (sets : List (List (Member α))) (f : List (Member α) → Outcome) :
    diverging sets (sets.map f) = sets.filterMap fun ms => branch? (ms, f ms) := by
  rw [diverging_eq_filterMap, zip_map_self, List.filterMap_map]
  rfl

theorem failures_map (ps : List Partition) (f : Partition → Outcome) :
    failures ps (ps.map f) = ps.filterMap fun p => issue? (p, f p) := by
  rw [failures_eq_filterMap, zip_map_self, List.filterMap_map]
  rfl

variable [Candidate α]

section Batches

variable {oracle : Partition → Outcome} {space : Space α} {failed : List (Member α) → List Issue}

theorem trials_map (sets : List (List (Member α))) :
    (trials space sets).map oracle = sets.map (outcomeOf oracle space) := by
  rw [trials, List.map_map]
  rfl

theorem diverging_trials (sets : List (List (Member α))) :
    diverging sets ((trials space sets).map oracle) =
      sets.filterMap fun ms => branch? (ms, outcomeOf oracle space ms) := by
  rw [trials_map, diverging_map]

theorem failures_trials (sets : List (List (Member α))) :
    failures (trials space sets) ((trials space sets).map oracle) =
      sets.filterMap fun ms => issue? (partitionOf space ms, outcomeOf oracle space ms) := by
  rw [failures_map, trials, List.filterMap_map]
  rfl

/-- A batch yields neither a branch nor an issue exactly when all its trials are silent. -/
theorem all_silent_iff {sets : List (List (Member α))} :
    (∀ ms ∈ sets, isSilent (outcomeOf oracle space ms) = true) ↔
      diverging sets ((trials space sets).map oracle) = [] ∧
      failures (trials space sets) ((trials space sets).map oracle) = [] := by
  rw [diverging_trials, failures_trials, List.filterMap_eq_nil_iff, List.filterMap_eq_nil_iff,
    ← forall₂_and]
  exact forall₂_congr fun _ _ => isSilent_iff

theorem found_singles (ms : List (Member α)) :
    (diverging (singleSets ms) ((trials space (singleSets ms)).map oracle)).flatMap
      (fun b => b.members.map fun m => (m, b.score)) = divergentAlone oracle space ms := by
  rw [diverging_trials]
  induction ms with
  | nil => rfl
  | cons m ms ih =>
      rw [singleSets, List.map_cons, ← singleSets, divergentAlone, List.filterMap_cons,
        List.filterMap_cons, ← divergentAlone, ← ih]
      cases outcomeOf oracle space [m] with
      | error f => rfl
      | ok s => by_cases hs : s.isDivergent <;> simp [branch?, hs]

theorem keys_singles (ms : List (Member α)) :
    (diverging (singleSets ms) ((trials space (singleSets ms)).map oracle)).flatMap
      (fun b => memberKeys b.members) =
        (divergentAlone oracle space ms).map fun f => Candidate.key f.1.1 := by
  rw [← found_singles, List.map_flatMap]
  simp only [List.map_map]
  rfl

theorem failures_singles (ms : List (Member α)) :
    failures (trials space (singleSets ms)) ((trials space (singleSets ms)).map oracle) =
      failedAlone oracle space ms := by
  rw [failures_trials, singleSets, List.filterMap_map]
  refine List.filterMap_congr fun m _ => ?_
  rw [Function.comp_apply]
  cases outcomeOf oracle space [m] <;> rfl

theorem bag_isolate (t : Tally α) (ms : List (Member α)) :
    (t.isolate space.scope ms (trials space (singleSets ms))
      ((trials space (singleSets ms)).map oracle)).findings.bag =
        t.findings.bag + (isolated oracle space (failedAlone oracle space) ms).bag := by
  rw [Tally.isolate, ← singleSets, keys_singles, found_singles, failures_singles]
  simp only [Tally.findings, isolated, Findings.bag, ← Multiset.coe_add, Prod.mk_add_mk, add_assoc]

end Batches

/-! ### The bag of a queue -/

section Queue

variable {oracle : Partition → Outcome} {space : Space α} {failed : List (Member α) → List Issue}
  {ms : List (Member α)} {score : Score}

/-- What the recursion makes of the branches of a queue. -/
def queueBag (oracle : Partition → Outcome) (space : Space α)
    (failed : List (Member α) → List Issue) (bs : List (Branch α)) :
    Multiset (Member α × Score) × Multiset Interaction × Multiset Issue :=
  (bs.map fun b => (solve oracle space failed b.members b.score).bag).sum

@[simp] theorem queueBag_nil : queueBag oracle space failed [] = 0 := rfl

@[simp] theorem queueBag_cons (b : Branch α) (bs : List (Branch α)) :
    queueBag oracle space failed (b :: bs) =
      (solve oracle space failed b.members b.score).bag + queueBag oracle space failed bs := by
  simp [queueBag]

@[simp] theorem queueBag_append (bs cs : List (Branch α)) :
    queueBag oracle space failed (bs ++ cs) =
      queueBag oracle space failed bs + queueBag oracle space failed cs := by
  simp [queueBag]

theorem sum_followed (sets : List (List (Member α))) :
    (sets.map fun half =>
        (followed oracle space (solve oracle space failed half) half).bag).sum =
      queueBag oracle space failed (diverging sets ((trials space sets).map oracle)) +
        (Findings.ofIssues (failures (trials space sets)
          ((trials space sets).map oracle)) : Findings α).bag := by
  rw [diverging_trials, failures_trials]
  induction sets with
  | nil => rfl
  | cons half sets ih =>
      rw [List.map_cons, List.sum_cons, ih, List.filterMap_cons, List.filterMap_cons, followed]
      cases outcomeOf oracle space half with
      | error f =>
          rw [branch?_error, issue?_error]
          exact add_left_comm _ _ _
      | ok s =>
          by_cases hs : s.isDivergent
          · simp [branch?, issue?, hs, add_assoc]
          · simp [branch?, issue?, hs]

/-- A set of which a half diverges or fails is replaced by the halves that diverge and the issues
of those that fail. -/
theorem bag_solve_follow (hlarge : 2 ≤ ms.length)
    (hlead : diverging (halfSets ms) ((trials space (halfSets ms)).map oracle) ≠ [] ∨
      failures (trials space (halfSets ms)) ((trials space (halfSets ms)).map oracle) ≠ []) :
    (solve oracle space failed ms score).bag =
      queueBag oracle space failed
          (diverging (halfSets ms) ((trials space (halfSets ms)).map oracle)) +
        (Findings.ofIssues (failures (trials space (halfSets ms))
          ((trials space (halfSets ms)).map oracle)) : Findings α).bag := by
  have hloud : ¬∀ half ∈ halfSets ms, isSilent (outcomeOf oracle space half) = true := by
    rw [all_silent_iff]
    exact fun hsilent => hlead.elim (· hsilent.1) (· hsilent.2)
  rw [solve_of_large hlarge, if_neg hloud, ← sum_followed]
  simp [halfSets]

/-- A set whose halves neither diverge nor fail is an interaction. -/
theorem solve_isolate (hlarge : 2 ≤ ms.length)
    (hsilent : diverging (halfSets ms) ((trials space (halfSets ms)).map oracle) = [])
    (hfailed : failures (trials space (halfSets ms)) ((trials space (halfSets ms)).map oracle) =
      []) : solve oracle space failed ms score = isolated oracle space failed ms := by
  rw [solve_of_large hlarge, if_pos (all_silent_iff.mpr ⟨hsilent, hfailed⟩)]

end Queue

/-! ### A turn keeps the bag -/

section Turns

variable {bench : Bench τ} {space : Space α} {inv : τ → Prop} {oracle : Partition → Outcome}
  {m m' : Moment τ α}

/-- What has been found, and what the recursion will make of the queue. -/
def Moment.bag (oracle : Partition → Outcome) (space : Space α) (m : Moment τ α) :
    Multiset (Member α × Score) × Multiset Interaction × Multiset Issue :=
  m.tally.findings.bag + queueBag oracle space (failedAlone oracle space) m.queue

theorem Turn.bag_eq (hb : bench.Follows inv oracle) (hm : m.Sound space inv)
    (h : Turn bench space m m') : m'.bag oracle space = m.bag oracle space := by
  cases h with
  | stop hstop => exact absurd hstop (hb.not_stop hm.world)
  | @emit c score rest t =>
      rw [Moment.bag, Moment.bag, bag_emit, queueBag_cons, solve_of_length_le (by simp)]
      exact add_assoc _ _ _
  | putBack => rfl
  | @follow b rest t _ os s s₁ s₂ _ hlarge hgo htry _ hlead =>
      -- The recursion solves the first branch by way of the halves that now end the queue.
      have hos := hb.outcomes (hb.of_cancelled hm.world hgo) htry
      subst hos
      rw [Moment.bag, Moment.bag, bag_addIssues, queueBag_append, queueBag_cons,
        bag_solve_follow hlarge hlead]
      abel
  | @isolate b rest t _ os os' s s₁ s₂ s₃ _ hlarge hgo htry hgo' hsilent hfailed halone =>
      have hworld := hb.of_batch (hb.of_cancelled hm.world hgo) htry
      have hos := hb.outcomes (hb.of_cancelled hm.world hgo) htry
      have hos' := hb.outcomes (hb.of_cancelled hworld hgo') halone
      subst hos hos'
      rw [Moment.bag, Moment.bag, bag_isolate, queueBag_cons, solve_isolate hlarge hsilent hfailed]
      exact add_assoc _ _ _

theorem Turns.bag_eq (hb : bench.Follows inv oracle) (hm : m.Sound space inv)
    (h : Turns bench space m m') : m'.bag oracle space = m.bag oracle space := by
  refine Turns.keep (P := fun m₁ => m₁.bag oracle space = m.bag oracle space) hb.toKeeps hm h rfl ?_
  intro m₁ m₂ hm₁ hturn hbag
  exact (hturn.bag_eq hb hm₁).trans hbag

theorem opening_bag (whole : Score) (s : τ) :
    (opening space whole s).bag oracle space =
      (solve oracle space (failedAlone oracle space) space.candidates.zipIdx whole).bag := by
  by_cases hnone : space.candidates.isEmpty
  · obtain hnil : space.candidates = [] := by simpa using hnone
    rw [Moment.bag, opening, if_pos hnone, hnil, solve_of_length_le (by simp)]
    rfl
  · rw [Moment.bag, opening, if_neg hnone, queueBag_cons, queueBag_nil, add_zero]
    exact zero_add _

end Turns

/-! ### The search -/

variable {bench : Bench τ} {space : Space α} {inv : τ → Prop} {oracle : Partition → Outcome}

theorem Turn.cancelled_eq {m m' : Moment τ α} (hb : bench.Uncancelled inv)
    (hm : m.Sound space inv) (h : Turn bench space m m') :
    m'.tally.cancelled = m.tally.cancelled := by
  cases h with
  | stop hstop => exact absurd hstop (hb.not_stop hm.world)
  | emit => rfl
  | putBack => rfl
  | follow => rfl
  | isolate => rfl

theorem Turns.cancelled_eq {m m' : Moment τ α} (hb : bench.Uncancelled inv)
    (hm : m.Sound space inv) (h : Turns bench space m m') :
    m'.tally.cancelled = m.tally.cancelled := by
  refine Turns.keep (P := fun m₁ => m₁.tally.cancelled = m.tally.cancelled) hb.toKeeps hm h rfl ?_
  intro m₁ m₂ hm₁ hturn hgoing
  exact (hturn.cancelled_eq hb hm₁).trans hgoing

/-- A search that is not stopped ends with the bag of the recursion's findings. -/
theorem search_bag (space : Space α) (whole : Score) {s : τ} (hkeys : (keys space).Nodup)
    (hb : bench.Follows inv oracle) (hs : inv s) :
    ∃ (t : Tally α) (s' : τ),
      (search bench space whole).runOn s = (.ok t.result, s') ∧ inv s' ∧ t.cancelled = false ∧
      t.findings.bag =
        (solve oracle space (failedAlone oracle space) space.candidates.zipIdx whole).bag := by
  have hsound := opening_sound space whole hs
  obtain ⟨m, hm, hend⟩ := exists_turns hb.latched hsound
  refine ⟨m.tally, m.world, ?_, (Turns.sound hb.toKeeps hsound hm).world, ?_, ?_⟩
  · rw [runOn_search, Turns.finish_eq hkeys hb.toUncancelled hsound hm, finish_of_queue_nil hend]
    rfl
  · exact Turns.cancelled_eq hb.toUncancelled hsound hm
  · have hbag := Turns.bag_eq hb hsound hm
    rw [opening_bag, Moment.bag, hend, queueBag_nil, add_zero] at hbag
    exact hbag

theorem suspects_of_bag {t : Tally α} {whole : Score}
    (h : t.findings.bag =
      (solve oracle space (failedAlone oracle space) space.candidates.zipIdx whole).bag) :
    t.result.suspects =
      (solve oracle space (failedAlone oracle space) space.candidates.zipIdx whole).suspects := by
  rw [Tally.result_suspects, Tally.sorted_eq_of_perm (Findings.perm_of_bag_eq h).1
    (solve_pairwise (List.Sublist.refl _) whole)]
  rfl

/-- For every oracle, the search reports what the recursion finds: the same suspects in the same
order, and the same interactions and issues in some order. The recursion reports the single trials
that fail as well. -/
theorem search_recursion (bench : Bench τ) (space : Space α) (oracle : Partition → Outcome)
    (whole : Score) (s : τ) (hkeys : (keys space).Nodup) (hb : bench.Follows inv oracle)
    (hs : inv s) :
    ∃ r s', (search bench space whole).runOn s = (.ok r, s') ∧
      r.suspects =
        (solve oracle space (failedAlone oracle space) space.candidates.zipIdx whole).suspects ∧
      r.interactions.Perm (solve oracle space (failedAlone oracle space)
        space.candidates.zipIdx whole).interactions ∧
      r.issues.Perm (solve oracle space (failedAlone oracle space)
        space.candidates.zipIdx whole).issues ∧
      r.cancelled = false := by
  obtain ⟨t, s', hrun, -, hgoing, hbag⟩ := search_bag space whole hkeys hb hs
  obtain ⟨-, hinteractions, hissues⟩ := Findings.perm_of_bag_eq hbag
  exact ⟨t.result, s', hrun, suspects_of_bag hbag, hinteractions, hissues, hgoing⟩

/-! ### Single trials that fail -/

/-- Only the whole set diverges, and the first file does not build alone. -/
def lostAlone (p : Partition) : Outcome :=
  if p.variant = ["a.c"] then .error ⟨.build, "a.c does not build"⟩
  else .ok ⟨if p.trusted = [] then 1 else 0⟩

theorem solve_lostAlone (failed : List (Member SourceUnit) → List Issue) :
    solve lostAlone threeUnits failed threeUnits.candidates.zipIdx ⟨1⟩ =
      isolated lostAlone threeUnits failed threeUnits.candidates.zipIdx := by
  rw [solve_of_large (by decide), if_pos (by decide)]

theorem search_recursion_lostAlone :
    (keys threeUnits).Nodup ∧ ∃ r s',
      (search (Bench.ofOracle lostAlone) threeUnits ⟨1⟩).runOn () = (.ok r, s') ∧
        r.suspects = [] ∧ r.interactions.length = 1 ∧ r.issues.length = 2 := by
  have hkeys : (keys threeUnits).Nodup := by decide
  obtain ⟨r, s', hrun, hsuspects, hinteractions, hissues, -⟩ := search_recursion
    (Bench.ofOracle lostAlone) threeUnits lostAlone ⟨1⟩ () hkeys
    (Bench.ofOracle_follows lostAlone) trivial
  rw [solve_lostAlone] at hsuspects hinteractions hissues
  exact ⟨hkeys, r, s', hrun, hsuspects, hinteractions.length_eq, hissues.length_eq⟩

/-- A recursion that reports no single trial that fails falls short of the search. -/
theorem search_recursion_silent_ne :
    (keys threeUnits).Nodup ∧ (Bench.ofOracle lostAlone).Follows (fun _ => True) lostAlone ∧
      ¬∃ r s', (search (Bench.ofOracle lostAlone) threeUnits ⟨1⟩).runOn () = (.ok r, s') ∧
        r.issues.Perm
          (solve lostAlone threeUnits (fun _ => []) threeUnits.candidates.zipIdx ⟨1⟩).issues := by
  have hkeys : (keys threeUnits).Nodup := by decide
  have hb := Bench.ofOracle_follows lostAlone
  refine ⟨hkeys, hb, fun ⟨r, s', hrun, hperm⟩ => ?_⟩
  obtain ⟨t, _, hrun', -, -, hbag⟩ := search_bag threeUnits ⟨1⟩ hkeys hb trivial
  obtain rfl : r = t.result := by
    rw [hrun'] at hrun
    injection hrun with hr
    injection hr with hr
    exact hr.symm
  have hlength := (Findings.perm_of_bag_eq hbag).2.2.length_eq
  rw [solve_lostAlone] at hlength hperm
  exact absurd (hlength.symm.trans hperm.length_eq) (by decide)

end Culprit.Search
