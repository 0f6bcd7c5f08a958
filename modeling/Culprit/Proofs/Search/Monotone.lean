import Culprit.Proofs.Search.Simulation

/-!
A search among candidates that diverge on their own account. When no trial fails and a larger set
diverges whenever a smaller one does, a half that holds a culprit diverges, so the culprits are
never lost in an interaction: the suspects are exactly the candidates that diverge alone.
-/

namespace Culprit.Search

variable {α τ : Type} [Candidate α]

section Oracle

variable (oracle : Partition → Outcome) (space : Space α)

/-- The trial with exactly `V` variant diverges. -/
def Diverges (V : List String) : Prop :=
  ∃ s, oracle (space.bipartition V) = .ok s ∧ s.isDivergent = true

/-- No trial fails, and what diverges still diverges among more. -/
structure Monotone : Prop where
  scored {V : List String} : V.Sublist (keys space) → ∃ s, oracle (space.bipartition V) = .ok s
  grows {V W : List String} : V.Sublist W → W.Sublist (keys space) → Diverges oracle space V →
    Diverges oracle space W

/-- The candidate as a suspect, if it diverges alone. -/
def suspectAlone (c : α) : Option (Suspect α) :=
  match oracle (space.bipartition [Candidate.key c]) with
  | .ok s => if s.isDivergent then some ⟨c, s⟩ else none
  | .error _ => none

end Oracle

variable {oracle : Partition → Outcome} {space : Space α} {ms : List (Member α)}

/-! ### Members that diverge alone -/

theorem divergentAlone_append (ms ns : List (Member α)) :
    divergentAlone oracle space (ms ++ ns) =
      divergentAlone oracle space ms ++ divergentAlone oracle space ns :=
  List.filterMap_append

theorem divergentAlone_singleton {m : Member α} {s : Score}
    (hscore : outcomeOf oracle space [m] = .ok s) (hdiv : s.isDivergent = true) :
    divergentAlone oracle space [m] = [(m, s)] := by
  simp [divergentAlone, hscore, hdiv]

/-- Where the whole does not diverge, no member diverges alone. -/
theorem Monotone.divergentAlone_eq_nil (h : Monotone oracle space)
    (hms : ms.Sublist space.candidates.zipIdx) (hnot : ¬Diverges oracle space (memberKeys ms)) :
    divergentAlone oracle space ms = [] := by
  rw [divergentAlone, List.filterMap_eq_nil_iff]
  intro m hm
  have halone : ¬Diverges oracle space (memberKeys [m]) := fun hdiv =>
    hnot (h.grows (memberKeys_sublist (List.singleton_sublist.mpr hm))
      (memberKeys_sublist_keys hms) hdiv)
  cases hscore : outcomeOf oracle space [m] with
  | error f => rfl
  | ok s =>
      have hs : ¬s.isDivergent = true := fun hdiv => halone ⟨s, hscore, hdiv⟩
      simp [hs]

theorem Monotone.isSilent_iff (h : Monotone oracle space)
    (hms : ms.Sublist space.candidates.zipIdx) :
    isSilent (outcomeOf oracle space ms) = true ↔ ¬Diverges oracle space (memberKeys ms) := by
  obtain ⟨s, hs⟩ := h.scored (memberKeys_sublist_keys hms)
  have hscore : outcomeOf oracle space ms = .ok s := hs
  simp [isSilent, Diverges, hscore, hs]

theorem suspects_divergentAlone (ms : List (Member α)) :
    (divergentAlone oracle space ms).map (fun f => (⟨f.1.1, f.2⟩ : Suspect α)) =
      (ms.map Prod.fst).filterMap (suspectAlone oracle space) := by
  rw [divergentAlone, List.map_filterMap, List.filterMap_map]
  refine List.filterMap_congr fun m _ => ?_
  have hscore : outcomeOf oracle space [m] = oracle (space.bipartition [Candidate.key m.1]) := rfl
  rw [Function.comp_apply, suspectAlone, ← hscore]
  cases outcomeOf oracle space [m] with
  | error f => rfl
  | ok s => by_cases hs : s.isDivergent <;> simp [hs]

/-! ### The recursion among culprits -/

/-- The findings are the members of the set that diverge alone, and no interaction holds any. -/
structure Findings.Exact (oracle : Partition → Outcome) (space : Space α) (ms : List (Member α))
    (f : Findings α) : Prop where
  found : f.found = divergentAlone oracle space ms
  attributed : ∀ i ∈ f.interactions, i.attributed = []

theorem Findings.Exact.append {ns : List (Member α)} {f g : Findings α}
    (hf : f.Exact oracle space ms) (hg : g.Exact oracle space ns) :
    (f ++ g).Exact oracle space (ms ++ ns) where
  found := by
    rw [divergentAlone_append, ← hf.found, ← hg.found]
    rfl
  attributed i hi := (List.mem_append.mp hi).elim (hf.attributed i) (hg.attributed i)

theorem Monotone.followed_exact (h : Monotone oracle space) {half : List (Member α)}
    {solved : Score → Findings α} (hhalf : half.Sublist space.candidates.zipIdx)
    (hsolved : ∀ s, outcomeOf oracle space half = .ok s → s.isDivergent = true →
      (solved s).Exact oracle space half) :
    (followed oracle space solved half).Exact oracle space half := by
  obtain ⟨s, hs⟩ := h.scored (memberKeys_sublist_keys hhalf)
  have hscore : outcomeOf oracle space half = .ok s := hs
  rw [followed, hscore]
  by_cases hdiv : s.isDivergent
  · simpa [hdiv] using hsolved s hscore hdiv
  · have hnot : ¬Diverges oracle space (memberKeys half) := by simp [Diverges, hs, hdiv]
    have hnone := h.divergentAlone_eq_nil hhalf hnot
    exact ⟨by simp [hdiv, hnone, Findings.ofIssues], by simp [hdiv, Findings.ofIssues]⟩

theorem Monotone.solve_exact (h : Monotone oracle space) (failed : List (Member α) → List Issue)
    {score : Score} (hms : ms.Sublist space.candidates.zipIdx) (hne : ms ≠ [])
    (hscore : outcomeOf oracle space ms = .ok score) (hdiv : score.isDivergent = true) :
    (solve oracle space failed ms score).Exact oracle space ms := by
  fun_induction solve oracle space failed ms score with
  | case1 ms score hsmall =>
      obtain ⟨m, rfl⟩ : ∃ m, ms = [m] := by
        rw [← List.length_eq_one_iff]
        have := List.length_pos_iff.mpr hne
        omega
      exact ⟨(divergentAlone_singleton hscore hdiv).symm, by simp⟩
  | case2 ms score hlarge first second hsilent =>
      have hfirst : first.Sublist space.candidates.zipIdx := (List.take_sublist _ _).trans hms
      have hsecond : second.Sublist space.candidates.zipIdx := (List.drop_sublist _ _).trans hms
      -- A member that diverged alone would make its half diverge.
      obtain ⟨hsilent₁, hsilent₂⟩ := Bool.and_eq_true_iff.mp hsilent
      have hnone₁ := h.divergentAlone_eq_nil hfirst ((h.isSilent_iff hfirst).mp hsilent₁)
      have hnone₂ := h.divergentAlone_eq_nil hsecond ((h.isSilent_iff hsecond).mp hsilent₂)
      have hnone : divergentAlone oracle space ms = [] := by
        rw [← List.take_append_drop ((ms.length + 1) / 2) ms, divergentAlone_append, hnone₁, hnone₂]
        rfl
      exact ⟨rfl, by simp [isolated, hnone]⟩
  | case3 ms score hlarge first second hlead ih₁ ih₂ =>
      have hfirst : first.Sublist space.candidates.zipIdx := (List.take_sublist _ _).trans hms
      have hsecond : second.Sublist space.candidates.zipIdx := (List.drop_sublist _ _).trans hms
      have hne₁ : first ≠ [] := by
        rw [← List.length_pos_iff, List.length_take]
        omega
      have hne₂ : second ≠ [] := by
        rw [← List.length_pos_iff, List.length_drop]
        omega
      have happend : first ++ second = ms := List.take_append_drop _ _
      rw [← happend]
      exact (h.followed_exact hfirst fun s => ih₁ s hfirst hne₁).append
        (h.followed_exact hsecond fun s => ih₂ s hsecond hne₂)

/-! ### Culprits that need no company -/

/-- A set that diverges has a part that does, however it is divided. -/
def Splits (oracle : Partition → Outcome) (space : Space α) : Prop :=
  ∀ V W, (V ++ W).Sublist (keys space) → Diverges oracle space (V ++ W) →
    Diverges oracle space V ∨ Diverges oracle space W

theorem Monotone.followed_quiet (h : Monotone oracle space) {half : List (Member α)}
    {solved : Score → Findings α} (hhalf : half.Sublist space.candidates.zipIdx)
    (hsolved : ∀ s, outcomeOf oracle space half = .ok s → s.isDivergent = true →
      (solved s).interactions = [] ∧ (solved s).issues = []) :
    (followed oracle space solved half).interactions = [] ∧
      (followed oracle space solved half).issues = [] := by
  obtain ⟨s, hs⟩ := h.scored (memberKeys_sublist_keys hhalf)
  have hscore : outcomeOf oracle space half = .ok s := hs
  rw [followed, hscore]
  by_cases hdiv : s.isDivergent
  · simpa [hdiv] using hsolved s hscore hdiv
  · simp [hdiv, Findings.ofIssues]

theorem Monotone.solve_quiet (h : Monotone oracle space) (hsplits : Splits oracle space)
    (failed : List (Member α) → List Issue) {score : Score}
    (hms : ms.Sublist space.candidates.zipIdx) (hscore : outcomeOf oracle space ms = .ok score)
    (hdiv : score.isDivergent = true) :
    (solve oracle space failed ms score).interactions = [] ∧
      (solve oracle space failed ms score).issues = [] := by
  fun_induction solve oracle space failed ms score with
  | case1 ms score hsmall => exact ⟨rfl, rfl⟩
  | case2 ms score hlarge first second hsilent =>
      have hfirst : first.Sublist space.candidates.zipIdx := (List.take_sublist _ _).trans hms
      have hsecond : second.Sublist space.candidates.zipIdx := (List.drop_sublist _ _).trans hms
      -- The set diverges, so one of its halves does: they cannot both be silent.
      obtain ⟨hsilent₁, hsilent₂⟩ := Bool.and_eq_true_iff.mp hsilent
      have happend : memberKeys first ++ memberKeys second = memberKeys ms := by
        rw [← memberKeys_append]
        exact congrArg memberKeys (List.take_append_drop _ _)
      have hsub := memberKeys_sublist_keys hms
      have hwhole : Diverges oracle space (memberKeys ms) := ⟨score, hscore, hdiv⟩
      rw [← happend] at hsub hwhole
      rcases hsplits _ _ hsub hwhole with hpart | hpart
      · exact absurd hpart ((h.isSilent_iff hfirst).mp hsilent₁)
      · exact absurd hpart ((h.isSilent_iff hsecond).mp hsilent₂)
  | case3 ms score hlarge first second hlead ih₁ ih₂ =>
      have hfirst : first.Sublist space.candidates.zipIdx := (List.take_sublist _ _).trans hms
      have hsecond : second.Sublist space.candidates.zipIdx := (List.drop_sublist _ _).trans hms
      obtain ⟨hinteractions₁, hissues₁⟩ := h.followed_quiet hfirst fun s => ih₁ s hfirst
      obtain ⟨hinteractions₂, hissues₂⟩ := h.followed_quiet hsecond fun s => ih₂ s hsecond
      exact ⟨List.append_eq_nil_iff.mpr ⟨hinteractions₁, hinteractions₂⟩,
        List.append_eq_nil_iff.mpr ⟨hissues₁, hissues₂⟩⟩

/-! ### A fixed set of culprits -/

/-- A set diverges exactly when it holds one of the culprits. -/
def Blames (oracle : Partition → Outcome) (space : Space α) (culprits : List String) : Prop :=
  ∀ V, V.Sublist (keys space) → (Diverges oracle space V ↔ ∃ k ∈ V, k ∈ culprits)

theorem Blames.splits {culprits : List String} (h : Blames oracle space culprits) :
    Splits oracle space := by
  intro V W hsub hdiv
  obtain ⟨k, hk, hculprit⟩ := (h _ hsub).mp hdiv
  rcases List.mem_append.mp hk with hk | hk
  · exact .inl ((h V ((List.sublist_append_left V W).trans hsub)).mpr ⟨k, hk, hculprit⟩)
  · exact .inr ((h W ((List.sublist_append_right V W).trans hsub)).mpr ⟨k, hk, hculprit⟩)

theorem Blames.monotone {culprits : List String} (h : Blames oracle space culprits)
    (hscored : ∀ {V : List String}, V.Sublist (keys space) →
      ∃ s, oracle (space.bipartition V) = .ok s) : Monotone oracle space where
  scored := hscored
  grows hsub hkeys hdiv := by
    obtain ⟨k, hk, hculprit⟩ := (h _ (hsub.trans hkeys)).mp hdiv
    exact (h _ hkeys).mpr ⟨k, hsub.subset hk, hculprit⟩

theorem Blames.candidates {culprits : List String} (h : Blames oracle space culprits) :
    (space.candidates.filterMap (suspectAlone oracle space)).map (·.candidate) =
      space.candidates.filter fun c => Candidate.key c ∈ culprits := by
  rw [List.map_filterMap, ← List.filterMap_eq_filter]
  refine List.filterMap_congr fun c hc => ?_
  have hkey : [Candidate.key c].Sublist (keys space) :=
    List.singleton_sublist.mpr (List.mem_map_of_mem hc)
  have halone := h _ hkey
  simp only [List.mem_singleton, exists_eq_left] at halone
  rw [suspectAlone, Option.guard]
  by_cases hculprit : Candidate.key c ∈ culprits
  · obtain ⟨s, hs, hdiv⟩ := halone.mpr hculprit
    simp [hs, hdiv, hculprit]
  · cases hs : oracle (space.bipartition [Candidate.key c]) with
    | error f => simp [hculprit]
    | ok s =>
        have hdiv : ¬s.isDivergent = true := fun hdiv => hculprit (halone.mp ⟨s, hs, hdiv⟩)
        simp [hdiv, hculprit]

/-- When no trial fails and what diverges still diverges among more, the search blames exactly the
candidates that diverge alone, in their order and with the scores of those trials, and attributes
no interaction. When the sets that diverge are those that hold a culprit, it blames exactly the
culprits and reports nothing else. -/
theorem search_monotone (bench : Bench τ) (space : Space α) (oracle : Partition → Outcome)
    (whole : Score) (s : τ) {inv : τ → Prop} (hnone : space.candidates ≠ [])
    (hkeys : (keys space).Nodup) (hb : bench.Follows inv oracle) (hs : inv s)
    (hmono : Monotone oracle space)
    (hwhole : oracle (space.bipartition (keys space)) = .ok whole)
    (hdiv : whole.isDivergent = true) :
    ∃ r s', (search bench space whole).runOn s = (.ok r, s') ∧
      r.suspects = space.candidates.filterMap (suspectAlone oracle space) ∧
      (∀ i ∈ r.interactions, i.attributed = []) ∧
      ∀ culprits, Blames oracle space culprits →
        r.suspects.map (·.candidate) =
          space.candidates.filter (fun c => Candidate.key c ∈ culprits) ∧
        r.interactions = [] ∧ r.issues = [] := by
  obtain ⟨t, s', hrun, -, -, hbag⟩ := search_bag space whole hkeys hb hs
  obtain ⟨-, hinteractions, hissues⟩ := Findings.perm_of_bag_eq hbag
  have hmembers := List.Sublist.refl space.candidates.zipIdx
  have hne : space.candidates.zipIdx ≠ [] := by simpa using hnone
  have hscore : outcomeOf oracle space space.candidates.zipIdx = .ok whole := by
    rw [outcomeOf, partitionOf, memberKeys_zipIdx, hwhole]
  have hexact := hmono.solve_exact (failedAlone oracle space) hmembers hne hscore hdiv
  have hsuspects : t.result.suspects = space.candidates.filterMap (suspectAlone oracle space) := by
    rw [suspects_of_bag hbag, Findings.suspects, hexact.found, suspects_divergentAlone,
      List.zipIdx_map_fst]
  refine ⟨t.result, s', hrun, hsuspects, fun i hi => ?_, fun culprits hblames => ?_⟩
  · exact hexact.attributed i (hinteractions.mem_iff.mp hi)
  · obtain ⟨hnoInteractions, hnoIssues⟩ :=
      hmono.solve_quiet hblames.splits (failedAlone oracle space) hmembers hscore hdiv
    rw [hnoInteractions] at hinteractions
    rw [hnoIssues] at hissues
    exact ⟨hsuspects ▸ hblames.candidates, hinteractions.eq_nil, hissues.eq_nil⟩

/-- The trials that diverge are those with a culprit variant. -/
def meeting (culprits : List String) (p : Partition) : Outcome :=
  if ∃ k ∈ p.variant, k ∈ culprits then .ok ⟨1⟩ else .ok ⟨0⟩

theorem meeting_blames (space : Space α) (culprits : List String) :
    Blames (meeting culprits) space culprits := by
  intro V _
  by_cases hmeet : ∃ k ∈ V, k ∈ culprits
  · have hscore : meeting culprits (space.bipartition V) = .ok ⟨1⟩ := if_pos hmeet
    exact iff_of_true ⟨⟨1⟩, hscore, by decide⟩ hmeet
  · have hscore : meeting culprits (space.bipartition V) = .ok ⟨0⟩ := if_neg hmeet
    refine iff_of_false (fun ⟨s, hs, hdiv⟩ => ?_) hmeet
    obtain rfl : (⟨0⟩ : Score) = s := by
      rw [hscore] at hs
      injection hs
    exact absurd hdiv (by decide)

theorem meeting_monotone (space : Space α) (culprits : List String) :
    Monotone (meeting culprits) space :=
  (meeting_blames space culprits).monotone fun {V} _ => by
    by_cases hmeet : ∃ k ∈ V, k ∈ culprits
    · exact ⟨⟨1⟩, if_pos hmeet⟩
    · exact ⟨⟨0⟩, if_neg hmeet⟩

theorem search_monotone_meeting :
    (keys threeUnits).Nodup ∧ Monotone (meeting ["a.c", "c.c"]) threeUnits ∧ ∃ r s',
      (search (Bench.ofOracle (meeting ["a.c", "c.c"])) threeUnits ⟨1⟩).runOn () = (.ok r, s') ∧
        r.suspects = [⟨⟨"a.c"⟩, ⟨1⟩⟩, ⟨⟨"c.c"⟩, ⟨1⟩⟩] ∧ r.interactions = [] ∧ r.issues = [] := by
  have hkeys : (keys threeUnits).Nodup := by decide
  have hmono := meeting_monotone threeUnits ["a.c", "c.c"]
  obtain ⟨r, s', hrun, hsuspects, -, hblames⟩ := search_monotone
    (Bench.ofOracle (meeting ["a.c", "c.c"])) threeUnits (meeting ["a.c", "c.c"]) ⟨1⟩ ()
    (by decide) hkeys (Bench.ofOracle_follows _) trivial hmono (by decide) (by decide)
  obtain ⟨-, hinteractions, hissues⟩ := hblames _ (meeting_blames threeUnits _)
  refine ⟨hkeys, hmono, r, s', hrun, ?_, hinteractions, hissues⟩
  rw [hsuspects]
  decide

end Culprit.Search
