import Culprit.Proofs.Partition.Canonical
import Culprit.Proofs.Search.Monotone
import Culprit.Proofs.Sha256
import Mathlib.Data.Finset.Dedup
import Mathlib.Data.Finset.Lattice.Lemmas
import Mathlib.Data.List.Sublists

/-!
Searches for a fixed set of culprits. The score of a trial depends on the culprits among its
variant candidates, and nothing is asked of the bench for partitions that the search never tries.
-/

namespace Culprit

/-- A partition that a search of the space can try. -/
def Space.IsTrial {α : Type} [Candidate α] (space : Space α) (p : Partition) : Prop :=
  ∃ V, V ≠ [] ∧ V.Sublist (Search.keys space) ∧ p = space.bipartition V

namespace Bench

variable {τ : Type}

/-- No request to stop comes, and `oracle` tells the outcome of every partition of `domain`. -/
structure FollowsOn (b : Bench τ) (inv : τ → Prop) (domain : Partition → Prop)
    (oracle : Partition → Outcome) : Prop where
  going {s : τ} : inv s → (b.cancelled s).1 = false
  looked {s : τ} : inv s → inv (b.cancelled s).2
  answers {s : τ} {ps : List Partition} : inv s → (∀ p ∈ ps, domain p) →
    (b.batch ps s).1 = ps.map oracle ∧ inv (b.batch ps s).2

open Classical in
/-- The bench on the partitions of `domain`, and the oracle itself on others. -/
noncomputable def fenced (b : Bench τ) (domain : Partition → Prop)
    (oracle : Partition → Outcome) : Bench τ where
  cancelled := b.cancelled
  batch ps := if ∀ p ∈ ps, domain p then b.batch ps else pure (ps.map oracle)

variable {b : Bench τ} {inv : τ → Prop} {domain : Partition → Prop} {oracle : Partition → Outcome}

theorem fenced_batch {ps : List Partition} (h : ∀ p ∈ ps, domain p) :
    (b.fenced domain oracle).batch ps = b.batch ps :=
  if_pos h

theorem fenced_batch_other {ps : List Partition} (h : ¬∀ p ∈ ps, domain p) :
    (b.fenced domain oracle).batch ps = pure (ps.map oracle) :=
  if_neg h

theorem FollowsOn.fenced (hb : b.FollowsOn inv domain oracle) :
    (b.fenced domain oracle).Follows inv oracle where
  cancelled := hb.looked
  going := hb.going
  batch {s} ps hs := by
    by_cases h : ∀ p ∈ ps, domain p
    · rw [fenced_batch h]
      exact (hb.answers hs h).2
    · rw [fenced_batch_other h]
      exact hs
  answers {s} ps hs := by
    by_cases h : ∀ p ∈ ps, domain p
    · rw [fenced_batch h]
      exact (hb.answers hs h).1
    · rw [fenced_batch_other h]
      rfl

/-- One partition of the domain. -/
theorem FollowsOn.trial (hb : b.FollowsOn inv domain oracle) {s : τ} {p : Partition} (hs : inv s)
    (hp : domain p) : ∃ s', b.trial p s = (oracle p, s') ∧ inv s' := by
  obtain ⟨houtcomes, hinv⟩ : (b.batch [p] s).1 = [p].map oracle ∧ inv (b.batch [p] s).2 :=
    hb.answers hs (by simpa using hp)
  exact ⟨(b.batch [p] s).2, bind_of (Prod.ext houtcomes rfl), hinv⟩

end Bench

namespace Search

variable {α τ : Type} [Candidate α] {space : Space α} {b b' : Bench τ}

theorem isTrial_of_mem_trials {sets : List (List (Member α))} {p : Partition}
    (hsets : ∀ ms ∈ sets, ms ≠ [] ∧ ms.Sublist space.candidates.zipIdx)
    (hp : p ∈ trials space sets) : space.IsTrial p := by
  obtain ⟨ms, hms, rfl⟩ := List.mem_map.mp hp
  obtain ⟨hne, hsub⟩ := hsets ms hms
  exact ⟨memberKeys ms, memberKeys_ne_nil hne, memberKeys_sublist_keys hsub, rfl⟩

theorem conclude_congr (hkeys : (keys space).Nodup)
    (hbatch : ∀ ps, (∀ p ∈ ps, space.IsTrial p) → b.batch ps = b'.batch ps)
    {ms : List (Member α)} (hms : ms.Sublist space.candidates.zipIdx) (ps : List Partition)
    (os : List Outcome) (survivors : List (Branch α)) (t : Tally α) (s : τ) :
    (conclude b space ms ps os survivors t).runOn s =
      (conclude b' space ms ps os survivors t).runOn s := by
  rw [conclude, conclude]
  split
  · have hsingles : ∀ set ∈ singleSets ms, set ≠ [] ∧ set.Sublist space.candidates.zipIdx := by
      intro set hset
      obtain ⟨m, hm, rfl⟩ := List.mem_map.mp hset
      exact ⟨List.cons_ne_nil _ _, (List.singleton_sublist.mpr hm).trans hms⟩
    have heq := hbatch _ fun p => isTrial_of_mem_trials hsingles
    rcases halone : b.batch (trials space (singleSets ms)) s with ⟨os', s'⟩
    rw [runOn_leaveOneOut hkeys hms halone, runOn_leaveOneOut hkeys hms (heq ▸ halone)]
  · rfl

/-- The search tries no partition outside its space. -/
theorem explore_congr (hkeys : (keys space).Nodup) (hcancelled : b.cancelled = b'.cancelled)
    (hbatch : ∀ ps, (∀ p ∈ ps, space.IsTrial p) → b.batch ps = b'.batch ps)
    {queue : List (Branch α)} (hq : ∀ c ∈ queue, c.IsSegment space) (t : Tally α) (s : τ) :
    (explore b space queue t).runOn s = (explore b' space queue t).runOn s := by
  induction hw : weight queue using Nat.strong_induction_on generalizing queue t s with
  | _ w ih =>
      rcases queue with _ | ⟨c, rest⟩
      · rw [runOn_explore_nil, runOn_explore_nil]
      obtain ⟨hc, hrest⟩ := List.forall_mem_cons.mp hq
      rcases hgo : b.cancelled s with ⟨_ | _, s₁⟩
      · obtain ⟨_ | ⟨m, _ | ⟨n, ms⟩⟩, score⟩ := c
        · exact absurd rfl hc.1
        · rw [runOn_explore_emit hgo, runOn_explore_emit (hcancelled ▸ hgo)]
          have := weight_pos (⟨[m], score⟩ : Branch α)
          exact ih _ (by rw [← hw, weight_cons]; omega) hrest _ _ rfl
        · have hlarge : 2 ≤ (m :: n :: ms).length := by simp
          have hhalves : ∀ half ∈ halfSets (m :: n :: ms),
              half ≠ [] ∧ half.Sublist space.candidates.zipIdx := fun half hhalf =>
            ⟨ne_nil_of_mem_halfSets hlarge hhalf,
              (infix_of_mem_halfSets hhalf).sublist.trans hc.sublist⟩
          have heq := hbatch _ fun p => isTrial_of_mem_trials hhalves
          rcases htry : b.batch (trials space (halfSets (m :: n :: ms))) s₁ with ⟨os, s₂⟩
          rw [runOn_explore_halve hkeys hc.sublist hlarge hgo htry,
            runOn_explore_halve hkeys hc.sublist hlarge (hcancelled ▸ hgo) (heq ▸ htry), hcancelled]
          split
          · rfl
          · rw [Attempt.runOn_bind, Attempt.runOn_bind, conclude_congr hkeys hbatch hc.sublist]
            rcases Attempt.runOn (conclude b' space _ _ os _ t) _ with ⟨_ | t', s₃⟩
            · rfl
            · refine ih _ ?_ ?_ _ _ rfl
              · have := weight_halfSets_lt (b := ⟨m :: n :: ms, score⟩) os hlarge
                rw [← hw, weight_cons, weight_append]
                omega
              · intro d hd
                rcases List.mem_append.mp hd with hd | hd
                · exact hrest d hd
                · exact isSegment_of_mem_diverging hc hlarge hd
      · rw [runOn_explore_stop hgo, runOn_explore_stop (hcancelled ▸ hgo)]

theorem search_congr (hkeys : (keys space).Nodup) (hcancelled : b.cancelled = b'.cancelled)
    (hbatch : ∀ ps, (∀ p ∈ ps, space.IsTrial p) → b.batch ps = b'.batch ps) (whole : Score)
    (s : τ) : (search b space whole).runOn s = (search b' space whole).runOn s := by
  have hsound : (opening space whole s).Sound space fun _ => True :=
    opening_sound space whole trivial
  have hfinish : (opening space whole s).finish b space = (opening space whole s).finish b' space :=
    explore_congr hkeys hcancelled hbatch hsound.segments _ _
  rw [runOn_search, runOn_search, hfinish]

/-- A search ends with the bag of the recursion's findings when the oracle is known for its trials
only; elsewhere a fenced bench follows the oracle. -/
theorem search_bag_on {inv : τ → Prop} {oracle : Partition → Outcome} (space : Space α)
    (whole : Score) (hkeys : (keys space).Nodup) (hb : b.FollowsOn inv space.IsTrial oracle)
    {s : τ} (hs : inv s) :
    ∃ (t : Tally α) (s' : τ),
      (search b space whole).runOn s = (.ok t.result, s') ∧ inv s' ∧ t.cancelled = false ∧
      t.findings.bag =
        (solve oracle space (failedAlone oracle space) space.candidates.zipIdx whole).bag := by
  have hcongr : (search b space whole).runOn s =
      (search (b.fenced space.IsTrial oracle) space whole).runOn s := by
    refine search_congr hkeys ?_ (fun ps hps => (Bench.fenced_batch hps).symm) _ _
    rfl
  rw [hcongr]
  exact search_bag space whole hkeys hb.fenced hs

/-! ### Scores that count culprits -/

/-- The score of a trial depends on its variant culprits only. -/
def scoring (score : Finset String → Score) (culprits : Finset String) (p : Partition) : Outcome :=
  .ok (score (p.variant.toFinset ∩ culprits))

section Scoring

variable {score : Finset String → Score} {culprits : Finset String}

theorem scoring_diverges (hzero : ∀ A ⊆ culprits, (score A).isDivergent = true ↔ A.Nonempty)
    (V : List String) :
    Diverges (scoring score culprits) space V ↔ ∃ k ∈ V, k ∈ culprits := by
  have hscore : scoring score culprits (space.bipartition V) =
      .ok (score (V.toFinset ∩ culprits)) := rfl
  simp only [Diverges, hscore, Except.ok.injEq, exists_eq_left',
    hzero _ Finset.inter_subset_right, Finset.Nonempty, Finset.mem_inter, List.mem_toFinset]

theorem scoring_blames (hzero : ∀ A ⊆ culprits, (score A).isDivergent = true ↔ A.Nonempty) :
    Blames (scoring score culprits) space culprits.toList := by
  intro V _
  rw [scoring_diverges hzero]
  simp

theorem scoring_monotone (hzero : ∀ A ⊆ culprits, (score A).isDivergent = true ↔ A.Nonempty) :
    Monotone (scoring score culprits) space :=
  (scoring_blames hzero).monotone fun {_} _ => ⟨_, rfl⟩

theorem suspectAlone_scoring (hzero : ∀ A ⊆ culprits, (score A).isDivergent = true ↔ A.Nonempty)
    (c : α) : suspectAlone (scoring score culprits) space c =
      if Candidate.key c ∈ culprits then some ⟨c, score {Candidate.key c}⟩ else none := by
  have hscore : scoring score culprits (space.bipartition [Candidate.key c]) =
      .ok (score ({Candidate.key c} ∩ culprits)) := rfl
  rw [suspectAlone, hscore]
  by_cases hculprit : Candidate.key c ∈ culprits
  · have hinter : {Candidate.key c} ∩ culprits = {Candidate.key c} :=
      Finset.inter_eq_left.mpr (Finset.singleton_subset_iff.mpr hculprit)
    have hdiv : (score {Candidate.key c}).isDivergent = true :=
      (hzero _ (Finset.singleton_subset_iff.mpr hculprit)).mpr (Finset.singleton_nonempty _)
    simp [hinter, hdiv, hculprit]
  · have hinter : {Candidate.key c} ∩ culprits = ∅ :=
      Finset.singleton_inter_of_notMem hculprit
    have hsilent : ¬(score ∅).isDivergent = true :=
      fun hdiv => Finset.not_nonempty_empty ((hzero _ (Finset.empty_subset _)).mp hdiv)
    simp [hinter, hsilent, hculprit]

theorem filterMap_suspectAlone
    (hzero : ∀ A ⊆ culprits, (score A).isDivergent = true ↔ A.Nonempty) (cs : List α) :
    cs.filterMap (suspectAlone (scoring score culprits) space) =
      (cs.filter fun c => Candidate.key c ∈ culprits).map
        fun c => ⟨c, score {Candidate.key c}⟩ := by
  rw [← List.filterMap_eq_map, List.filterMap_filter]
  refine List.filterMap_congr fun c _ => ?_
  rw [suspectAlone_scoring hzero]
  by_cases hculprit : Candidate.key c ∈ culprits <;> simp [hculprit]

variable (space score culprits) in
/-- There are culprits among the candidates, and a score is zero exactly where none is variant. -/
structure Explained : Prop where
  keys : (keys space).Nodup
  nonempty : culprits.Nonempty
  mem : ∀ k ∈ culprits, k ∈ Search.keys space
  zero : ∀ A ⊆ culprits, (score A).isDivergent = true ↔ A.Nonempty

theorem Explained.divergent (h : Explained space score culprits) :
    (score culprits).isDivergent = true :=
  (h.zero _ (Finset.Subset.refl _)).mpr h.nonempty

/-- All culprits together have the score of the whole. -/
theorem inter_culprits {V : List String} (hV : ∀ k ∈ culprits, k ∈ V) :
    V.toFinset ∩ culprits = culprits :=
  Finset.inter_eq_right.mpr fun k hk => List.mem_toFinset.mpr (hV k hk)

theorem solve_culprits (h : Explained space score culprits)
    (failed : List (Member α) → List Issue) :
    solve (scoring score culprits) space failed space.candidates.zipIdx (score culprits) =
      ⟨divergentAlone (scoring score culprits) space space.candidates.zipIdx, [], []⟩ := by
  have hne : space.candidates.zipIdx ≠ [] := by
    intro hnil
    obtain ⟨k, hk⟩ := h.nonempty
    have hmem := h.mem k hk
    rw [← memberKeys_zipIdx, hnil] at hmem
    exact List.not_mem_nil hmem
  have hscore : outcomeOf (scoring score culprits) space space.candidates.zipIdx =
      .ok (score culprits) := by
    rw [outcomeOf, partitionOf, memberKeys_zipIdx]
    exact congrArg (fun A => Except.ok (score A)) (inter_culprits h.mem)
  have hmembers := List.Sublist.refl space.candidates.zipIdx
  have hmono : Monotone (scoring score culprits) space := scoring_monotone h.zero
  have hexact := hmono.solve_exact failed hmembers hne hscore h.divergent
  obtain ⟨hinteractions, hissues⟩ :=
    hmono.solve_quiet (scoring_blames h.zero).splits failed hmembers hscore h.divergent
  rw [← hexact.found, ← hinteractions, ← hissues]

variable (space score culprits) in
/-- The culprits in the order of the candidates, with the scores that they have alone. -/
def blamed : List (Suspect α) :=
  (space.candidates.filter fun c => Candidate.key c ∈ culprits).map
    fun c => ⟨c, score {Candidate.key c}⟩

theorem blamed_candidates : (blamed space score culprits).map (·.candidate) =
    space.candidates.filter fun c => Candidate.key c ∈ culprits := by
  rw [blamed, List.map_map]
  exact List.map_id _

/-- Every culprit is blamed. -/
theorem Explained.mem_blamed (h : Explained space score culprits) :
    ∀ k ∈ culprits, k ∈ keysOf ((blamed space score culprits).map (·.candidate)) := by
  intro k hk
  obtain ⟨c, hc, rfl⟩ := List.mem_map.mp (h.mem k hk)
  rw [blamed_candidates]
  exact List.mem_map_of_mem (List.mem_filter.mpr ⟨hc, decide_eq_true hk⟩)

variable {inv : τ → Prop} {s : τ}

/-- The search finds the culprits and nothing else. -/
theorem search_culprits (h : Explained space score culprits)
    (hb : b.FollowsOn inv space.IsTrial (scoring score culprits)) (hs : inv s) :
    ∃ s', (search b space (score culprits)).runOn s =
        (.ok ⟨blamed space score culprits, [], [], false⟩, s') ∧ inv s' := by
  obtain ⟨t, s', hrun, hs', hgoing, hbag⟩ := search_bag_on space (score culprits) h.keys hb hs
  have hsolve := solve_culprits h (failedAlone (scoring score culprits) space)
  obtain ⟨-, hinteractions, hissues⟩ := Findings.perm_of_bag_eq hbag
  have hsuspects := suspects_of_bag hbag
  rw [hsolve] at hinteractions hissues hsuspects
  rw [Findings.suspects, suspects_divergentAlone, List.zipIdx_map_fst,
    filterMap_suspectAlone h.zero] at hsuspects
  have hnoInteractions : t.interactions = [] := hinteractions.eq_nil
  have hnoIssues : t.issues = [] := hissues.eq_nil
  refine ⟨s', ?_, hs'⟩
  rw [hrun, blamed, ← hsuspects]
  simp only [Tally.result, hnoInteractions, hnoIssues, hgoing]

theorem runOn_trial (hkeys : (keys space).Nodup)
    (hb : b.FollowsOn inv space.IsTrial (scoring score culprits)) (hs : inv s) {V : List String}
    (hne : V ≠ []) (hsub : V.Sublist (keys space)) :
    ∃ s', Attempt.runOn (Attempt.of (Partition.of space.scope (keys space) V) >>= fun p =>
        ExceptT.lift (b.trial p)) s = (.ok (.ok (score (V.toFinset ∩ culprits))), s') ∧
      inv s' := by
  obtain ⟨s', htrial, hs'⟩ := hb.trial hs ⟨V, hne, hsub, rfl⟩
  refine ⟨s', ?_, hs'⟩
  rw [Partition.of_ok hsub.subset (hkeys.sublist hsub), Attempt.runOn_of_ok_bind]
  exact Attempt.runOn_lift htrial

/-- The trial of the whole space and the trial of exactly the culprits have one score. -/
theorem confirm_culprits (h : Explained space score culprits)
    (hb : b.FollowsOn inv space.IsTrial (scoring score culprits)) (hs : inv s) :
    ∃ s', (confirm b space).runOn s = (.ok (.ok (score culprits)), s') ∧ inv s' := by
  obtain ⟨k, hk⟩ := h.nonempty
  obtain ⟨s', hrun, hs'⟩ := runOn_trial h.keys hb hs (List.ne_nil_of_mem (h.mem k hk))
    (List.Sublist.refl _)
  rw [inter_culprits h.mem] at hrun
  refine ⟨s', ?_, hs'⟩
  rw [confirm, partition, memberKeys_zipIdx]
  exact hrun

theorem verify_culprits (h : Explained space score culprits)
    (hb : b.FollowsOn inv space.IsTrial (scoring score culprits)) (hs : inv s) :
    ∃ s', (verify b space ((blamed space score culprits).map (·.candidate))).runOn s =
        (.ok (.ok (score culprits)), s') ∧ inv s' := by
  have hsub : (keysOf ((blamed space score culprits).map (·.candidate))).Sublist (keys space) := by
    rw [blamed_candidates]
    exact List.filter_sublist.map _
  obtain ⟨k, hk⟩ := h.nonempty
  obtain ⟨s', hrun, hs'⟩ := runOn_trial h.keys hb hs (List.ne_nil_of_mem (h.mem_blamed k hk)) hsub
  rw [inter_culprits h.mem_blamed] at hrun
  exact ⟨s', hrun, hs'⟩

end Scoring

end Search

end Culprit

/-! ### The trials of three files -/

namespace Culprit.Search

def threeTrials : List Partition :=
  [["a.c"], ["b.c"], ["c.c"], ["a.c", "b.c"], ["a.c", "c.c"], ["b.c", "c.c"],
    ["a.c", "b.c", "c.c"]].map threeUnits.bipartition

theorem mem_threeTrials {p : Partition} (hp : threeUnits.IsTrial p) : p ∈ threeTrials := by
  -- The variant keys are a sublist of the keys, and there are few.
  obtain ⟨V, hne, hsub, rfl⟩ := hp
  have hall : ∀ V ∈ (keys threeUnits).sublists, V ≠ [] →
      threeUnits.bipartition V ∈ threeTrials := by decide
  exact hall V (List.mem_sublists.mpr hsub) hne

theorem canonical_threeTrials : threeTrials.map Partition.canonical =
    ["Units\nv:a.c\nt:b.c\nt:c.c\n", "Units\nv:b.c\nt:a.c\nt:c.c\n",
      "Units\nv:c.c\nt:a.c\nt:b.c\n", "Units\nv:a.c\nv:b.c\nt:c.c\n",
      "Units\nv:a.c\nv:c.c\nt:b.c\n", "Units\nv:b.c\nv:c.c\nt:a.c\n",
      "Units\nv:a.c\nv:b.c\nv:c.c\n"] := by
  -- The files are in ascending order, and so are those of every trial.
  have hsorted : ∀ p ∈ threeTrials, p.variant.Pairwise (· < ·) ∧ p.trusted.Pairwise (· < ·) := by
    decide
  have hplain : threeTrials.map Partition.canonical = threeTrials.map fun p =>
      String.join (p.scope.identity :: "\n" :: p.variant.map (Partition.canonicalLine "v") ++
        p.trusted.map (Partition.canonicalLine "t")) := by
    refine List.map_congr_left fun p hp => ?_
    obtain ⟨hvariant, htrusted⟩ := hsorted p hp
    rw [Partition.canonical, Partition.sortedKeys_of_pairwise hvariant,
      Partition.sortedKeys_of_pairwise htrusted]
  rw [hplain]
  decide +kernel

set_option maxRecDepth 10000 in
theorem signatures_threeTrials : (threeTrials.map Partition.signature).Nodup := by
  have hhashed : threeTrials.map Partition.signature =
      (threeTrials.map Partition.canonical).map Sha256.hexOfText :=
    (List.map_map ..).symm
  rw [hhashed, canonical_threeTrials, funext Sha256.hexOfText_eq]
  decide +kernel

/-- A trial is told by its signature. -/
theorem eq_of_signature_eq {p q : Partition} (hp : threeUnits.IsTrial p)
    (hq : threeUnits.IsTrial q) (h : p.signature = q.signature) : p = q :=
  List.inj_on_of_nodup_map signatures_threeTrials (mem_threeTrials hp) (mem_threeTrials hq) h

end Culprit.Search
