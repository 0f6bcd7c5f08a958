import Culprit.Proofs.Bisection.Cancellation
import Culprit.Proofs.Bisection.Localisation
import Culprit.Proofs.Search.Costs
import Culprit.Proofs.Session.Records

/-!
How many builds a search begins when its trials are those of a session. What is remembered is not
built again, and that is why the single members of a small set cost nothing after its halves.
-/

namespace Culprit

variable {σ α : Type} [Candidate α]

namespace Experiment

open Session (Knows)

variable {x : Experiment σ} {fired : σ → Prop}

instance (s : Session σ) (p : Partition) : Decidable (s.Knows p) :=
  inferInstanceAs (Decidable (p.signature ∈ s.signatures))

theorem bench_metered (x : Experiment σ) :
    x.bench.Metered (·.executed) fun s p => decide (s.Knows p) where
  looked _ := rfl
  tried ps s := by
    have hcost := (batch_accounted x ps s).2
    simp only [decide_not] at hcost
    exact hcost

theorem bench_latched (hx : x.Latched fired) : x.bench.Latched fun _ => True where
  cancelled _ := trivial
  batch _ _ := trivial
  latched _ hstop := hx.seen.mpr (hx.keeps.lab.cancelled _ (hx.seen.mp hstop))

theorem bench_thrifty (hx : x.Latched fired) :
    x.bench.Thrifty (·.executed) fun s p => decide (s.Knows p) where
  toMetered := bench_metered x
  recalls h := h
  learns {s ps} hgoing p hp := by
    -- A request during the batch would have been seen by the look after it.
    have hunasked : ¬fired (x.batch ps s).2.site.world := by
      intro hfired
      have hstop := hx.seen.mpr (hx.keeps.lab.cancelled _ hfired)
      exact absurd (hgoing.symm.trans hstop) Bool.false_ne_true
    exact decide_eq_true ((batch_remembers hx hp s).resolve_left hunasked)

end Experiment

namespace Search

/-- Every search ends, at whatever moment it is asked to stop, and however its trials come out it
has begun no more than two builds for each candidate but one. -/
theorem search_executed_le (x : Experiment σ) (space : Space α) (whole : Score) (s : Session σ)
    (fired : σ → Prop) (hx : x.Latched fired) (hkeys : (keys space).Nodup) :
    Acc (fun m' m => Turn x.bench space m m') (opening space whole s) ∧
    (∀ m, Turns x.bench space (opening space whole s) m →
      m.world.executed ≤ s.executed + 2 * (space.candidates.length - 1)) ∧
    ∃ r s', (search x.bench space whole).runOn s = (.ok r, s') ∧
      s'.executed ≤ s.executed + 2 * (space.candidates.length - 1) := by
  have hb := Experiment.bench_latched hx
  have hspent (m : Moment (Session σ) α) (hm : Turns x.bench space (opening space whole s) m) :
      m.world.executed ≤ s.executed + 2 * (space.candidates.length - 1) :=
    spent_search_le (Experiment.bench_thrifty hx) hb whole trivial hm
  refine ⟨acc_turn hb (opening_sound space whole trivial), hspent, ?_⟩
  obtain ⟨m, t, hm, -, hrun⟩ := exists_search whole hkeys hb.toKeeps (s := s) trivial
  exact ⟨t.result, m.world, hrun, hspent m hm⟩

/-- Three files cost at most four builds also when the search is asked to stop. -/
theorem search_executed_le_interrupted :
    (keys (fileSpace Interrupted.scenario.units)).Nodup ∧ ∃ r s',
      (search Interrupted.experiment.bench (fileSpace Interrupted.scenario.units) ⟨1⟩).runOn
          (.start ⟨.empty, .empty⟩) = (.ok r, s') ∧ s'.executed ≤ 4 := by
  have hkeys : (keys (fileSpace Interrupted.scenario.units)).Nodup := by decide
  obtain ⟨-, -, r, s', hrun, hexecuted⟩ := search_executed_le Interrupted.experiment
    (fileSpace Interrupted.scenario.units) ⟨1⟩ (.start ⟨.empty, .empty⟩) Interrupted.fired
    Interrupted.latched hkeys
  exact ⟨hkeys, r, s', hrun, hexecuted⟩

theorem fenced_metered {x : Experiment σ} {domain : Partition → Prop}
    {oracle : Partition → Outcome} :
    (x.bench.fenced domain oracle).Metered (·.executed) fun s p => decide (s.Knows p) where
  looked _ := rfl
  tried ps s := by
    by_cases h : ∀ p ∈ ps, domain p
    · rw [Bench.fenced_batch h]
      exact (Experiment.bench_metered x).tried ps s
    · rw [Bench.fenced_batch_other h]
      exact Nat.le_add_right _ _

/-- When a trial diverges exactly if a culprit is variant, the search begins no more builds after
the trial of the whole than two for each culprit and each level of halving. -/
theorem search_executed_le_log (x : Experiment σ) (space : Space α) (culprits : List String)
    (oracle : Partition → Outcome) (inv : Session σ → Prop) (s : Session σ)
    (hkeys : (keys space).Nodup) (hb : x.bench.FollowsOn inv space.IsTrial oracle) (hs : inv s)
    (hblames : Blames oracle space culprits) (hsome : ∃ k ∈ keys space, k ∈ culprits) :
    ∃ whole s₁ r s₂, (confirm x.bench space).runOn s = (.ok (.ok whole), s₁) ∧
      whole.isDivergent = true ∧ (search x.bench space whole).runOn s₁ = (.ok r, s₂) ∧
      s₂.executed ≤ s₁.executed +
        2 * (space.candidates.filter fun c => Candidate.key c ∈ culprits).length *
          Nat.clog 2 space.candidates.length := by
  obtain ⟨k, hk, hculprit⟩ := hsome
  obtain ⟨whole, hwhole, hdiv⟩ := (hblames _ (List.Sublist.refl _)).mpr ⟨k, hk, hculprit⟩
  obtain ⟨s₁, hconfirm, hs₁⟩ := hb.trial hs
    (⟨_, List.ne_nil_of_mem hk, List.Sublist.refl _, rfl⟩ : space.IsTrial _)
  rw [hwhole] at hconfirm
  -- The search tries partitions of its space only, where the bench is as good as a fenced one.
  have hcongr : (search x.bench space whole).runOn s₁ =
      (search (x.bench.fenced space.IsTrial oracle) space whole).runOn s₁ := by
    refine search_congr hkeys ?_ (fun ps hps => (Bench.fenced_batch hps).symm) _ _
    rfl
  obtain ⟨m, t, hm, -, hrun⟩ := exists_search whole hkeys hb.fenced.toKeeps hs₁
  have hspent := spent_search_le_log fenced_metered hb.fenced hblames ⟨k, hk, hculprit⟩ whole hs₁ hm
  refine ⟨whole, s₁, t.result, m.world, ?_, hdiv, hcongr.trans hrun, ?_⟩
  · rw [confirm, partition, memberKeys_zipIdx, Partition.of_ok (List.Subset.refl _) hkeys,
      Attempt.runOn_of_ok_bind]
    exact Attempt.runOn_lift hconfirm
  · rw [← List.countP_eq_length_filter]
    exact hspent

/-- One culprit among two files costs at most two builds after the trial of both. -/
theorem search_executed_le_log_twoFiles :
    ∃ whole s₁ r s₂,
      (confirm twoFiles.experiment.bench (fileSpace twoFiles.units)).runOn
          (.start ⟨.empty, .empty⟩) = (.ok (.ok whole), s₁) ∧
      (search twoFiles.experiment.bench (fileSpace twoFiles.units) whole).runOn s₁ =
        (.ok r, s₂) ∧ s₂.executed ≤ s₁.executed + 2 := by
  have htruth : ∀ p ∈ innocentTrial :: guiltyTrials,
      twoFiles.truth twoFiles.experiment p = firstGuilty.truth p := by decide
  have hx := Scenario.steady (c := twoFiles) (x := twoFiles.experiment)
    (firstGuilty.Tries twoFiles.units twoFiles.symbols) .empty rfl rfl fun _ => rfl
  have hb := Experiment.bench_followsOn (hx.congr fun p hp => htruth p (mem_of_tries hp))
    sameBySignature_twoFiles
  have hidle : (Session.start ⟨Shelf.empty, .empty⟩).Idle
      (firstGuilty.Tries twoFiles.units twoFiles.symbols) firstGuilty.truth
      (twoFiles.Agrees .empty) := ⟨[], .empty, start_underway (twoFiles.agrees_start _)⟩
  obtain ⟨whole, s₁, r, s₂, hconfirm, -, hsearch, hexecuted⟩ := search_executed_le_log
    twoFiles.experiment (fileSpace twoFiles.units) firstGuilty.files.toList
    (scoring oneIfAny firstGuilty.files) _ _ (by decide) (hb.congr fun p => Guilt.tries_file) hidle
    (scoring_blames fun A _ => oneIfAny_zero A) ⟨"a.c", by decide, by simp [firstGuilty]⟩
  have hone : ((fileSpace twoFiles.units).candidates.filter fun c =>
      Candidate.key c ∈ firstGuilty.files.toList).length = 1 := by
    simp only [firstGuilty, Finset.toList_singleton]
    decide
  have hlevel : Nat.clog 2 (fileSpace twoFiles.units).candidates.length = 1 := by
    decide
  rw [hone, hlevel] at hexecuted
  exact ⟨whole, s₁, r, s₂, hconfirm, hsearch, hexecuted⟩

end Search

end Culprit
