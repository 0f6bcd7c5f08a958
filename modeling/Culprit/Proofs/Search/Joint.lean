import Culprit.Proofs.Search.Culprits
import Mathlib.Data.Finset.Card

/-!
Culprits that make a difference only together. The search follows them down the tree of halves to
the one set that holds all of them while neither of its halves does, and reports that set. It blames
nobody.
-/

namespace Culprit

theorem Bench.Follows.followsOn {τ : Type} {b : Bench τ} {inv : τ → Prop}
    {oracle : Partition → Outcome} (hb : b.Follows inv oracle) (domain : Partition → Prop) :
    b.FollowsOn inv domain oracle where
  going := hb.going
  looked := hb.cancelled
  answers hs _ := ⟨hb.answers _ hs, hb.batch _ hs⟩

namespace Search

/-! ### The tree of halves -/

section Tree

variable {β : Type}

/-- The sets of the tree of halves below a list. -/
inductive Halving (whole : List β) : List β → Prop
  | root : Halving whole whole
  | first {set : List β} (h : Halving whole set) (hlarge : 2 ≤ set.length) :
      Halving whole (halves set).1
  | second {set : List β} (h : Halving whole set) (hlarge : 2 ≤ set.length) :
      Halving whole (halves set).2

theorem halves_sublist (set : List β) :
    (halves set).1.Sublist set ∧ (halves set).2.Sublist set := by
  rw [halves, List.splitAt_eq]
  exact ⟨List.take_sublist _ _, List.drop_sublist _ _⟩

theorem Halving.subset {whole set : List β} (h : Halving whole set) : set ⊆ whole := by
  induction h with
  | root => exact List.Subset.refl _
  | first _ _ ih => exact List.Subset.trans (halves_sublist _).1.subset ih
  | second _ _ ih => exact List.Subset.trans (halves_sublist _).2.subset ih

/-- The tree is its root and the trees of the two halves. -/
theorem halving_iff {whole set : List β} : Halving whole set ↔ set = whole ∨
    2 ≤ whole.length ∧ (Halving (halves whole).1 set ∨ Halving (halves whole).2 set) := by
  constructor
  · intro h
    induction h with
    | root => exact .inl rfl
    | first _ hlarge ih =>
        rcases ih with rfl | ⟨hwhole, h | h⟩
        · exact .inr ⟨hlarge, .inl .root⟩
        · exact .inr ⟨hwhole, .inl (.first h hlarge)⟩
        · exact .inr ⟨hwhole, .inr (.first h hlarge)⟩
    | second _ hlarge ih =>
        rcases ih with rfl | ⟨hwhole, h | h⟩
        · exact .inr ⟨hlarge, .inr .root⟩
        · exact .inr ⟨hwhole, .inl (.second h hlarge)⟩
        · exact .inr ⟨hwhole, .inr (.second h hlarge)⟩
  · rintro (rfl | ⟨hwhole, h | h⟩)
    · exact .root
    · induction h with
      | root => exact .first .root hwhole
      | first _ hlarge ih => exact .first ih hlarge
      | second _ hlarge ih => exact .second ih hlarge
    · induction h with
      | root => exact .second .root hwhole
      | first _ hlarge ih => exact .first ih hlarge
      | second _ hlarge ih => exact .second ih hlarge

end Tree

/-- The set holds all of `joint`, and neither of its halves does. -/
structure Severs (joint : Finset String) (set : List String) : Prop where
  holds : ∀ k ∈ joint, k ∈ set
  first : ¬∀ k ∈ joint, k ∈ (halves set).1
  second : ¬∀ k ∈ joint, k ∈ (halves set).2

section Severs

variable {joint : Finset String} {whole set : List String}

/-- Below a set that severs `joint` no set holds all of it. -/
theorem Severs.halving_iff (h : Severs joint whole) :
    Halving whole set ∧ Severs joint set ↔ set = whole := by
  constructor
  · rintro ⟨htree, hset⟩
    rcases Search.halving_iff.mp htree with rfl | ⟨-, hfirst | hsecond⟩
    · rfl
    · exact absurd (fun k hk => hfirst.subset (hset.holds k hk)) h.first
    · exact absurd (fun k hk => hsecond.subset (hset.holds k hk)) h.second
  · rintro rfl
    exact ⟨.root, h⟩

theorem card_le_length (hholds : ∀ k ∈ joint, k ∈ set) : joint.card ≤ set.length := by
  have hsub : joint ⊆ set.toFinset := fun k hk => List.mem_toFinset.mpr (hholds k hk)
  exact (Finset.card_le_card hsub).trans (List.toFinset_card_le set)

/-- Distinct keys are not in both halves. -/
theorem halves_disjoint (hnodup : whole.Nodup) : (halves whole).1.Disjoint (halves whole).2 := by
  rw [← halves_append whole] at hnodup
  exact List.disjoint_of_nodup_append hnodup

theorem not_both_halves (hnodup : whole.Nodup) (hsome : joint.Nonempty) :
    ¬((∀ k ∈ joint, k ∈ (halves whole).1) ∧ ∀ k ∈ joint, k ∈ (halves whole).2) := by
  rintro ⟨hfirst, hsecond⟩
  obtain ⟨k, hk⟩ := hsome
  exact halves_disjoint hnodup (hfirst k hk) (hsecond k hk)

/-- Where the first half holds all of `joint`, it is severed below the first half. -/
theorem severs_first_iff (hnodup : whole.Nodup) (hlarge : 2 ≤ whole.length)
    (hsome : joint.Nonempty) (hholds : ∀ k ∈ joint, k ∈ (halves whole).1) :
    Halving whole set ∧ Severs joint set ↔ Halving (halves whole).1 set ∧ Severs joint set := by
  refine and_congr_left fun hset => ⟨fun htree => ?_, fun htree => ?_⟩
  · rcases halving_iff.mp htree with rfl | ⟨-, hfirst | hsecond⟩
    · exact absurd hholds hset.first
    · exact hfirst
    · exact absurd ⟨hholds, fun k hk => hsecond.subset (hset.holds k hk)⟩
        (not_both_halves hnodup hsome)
  · exact halving_iff.mpr (.inr ⟨hlarge, .inl htree⟩)

theorem severs_second_iff (hnodup : whole.Nodup) (hlarge : 2 ≤ whole.length)
    (hsome : joint.Nonempty) (hholds : ∀ k ∈ joint, k ∈ (halves whole).2) :
    Halving whole set ∧ Severs joint set ↔ Halving (halves whole).2 set ∧ Severs joint set := by
  refine and_congr_left fun hset => ⟨fun htree => ?_, fun htree => ?_⟩
  · rcases halving_iff.mp htree with rfl | ⟨-, hfirst | hsecond⟩
    · exact absurd hholds hset.second
    · exact absurd ⟨fun k hk => hfirst.subset (hset.holds k hk), hholds⟩
        (not_both_halves hnodup hsome)
    · exact hsecond
  · exact halving_iff.mpr (.inr ⟨hlarge, .inr htree⟩)

end Severs

/-! ### The search for joint culprits -/

namespace Findings

variable {α : Type} (f : Findings α)

@[simp] theorem append_nothing : f ++ ofIssues [] = f := by
  show (⟨f.found ++ [], f.interactions ++ [], f.issues ++ []⟩ : Findings α) = f
  simp

@[simp] theorem nothing_append : ofIssues [] ++ f = f := rfl

end Findings

variable {α τ : Type} [Candidate α]

/-- No trial fails, and one diverges exactly when all of `joint` is variant. -/
def Conspires (oracle : Partition → Outcome) (space : Space α) (joint : Finset String) : Prop :=
  ∀ V, V ≠ [] → V.Sublist (keys space) → ∃ score, oracle (space.bipartition V) = .ok score ∧
    (score.isDivergent = true ↔ ∀ k ∈ joint, k ∈ V)

variable {oracle : Partition → Outcome} {space : Space α} {joint : Finset String}
  {ms : List (Member α)}

section Solve

variable (h : Conspires oracle space joint)

include h

/-- What the search makes of a set that does not hold all of `joint`. -/
theorem Conspires.quiet (hms : ms.Sublist space.candidates.zipIdx) (hne : ms ≠ [])
    (hnot : ¬∀ k ∈ joint, k ∈ memberKeys ms) :
    ∃ score, outcomeOf oracle space ms = .ok score ∧ score.isDivergent = false := by
  obtain ⟨score, hscore, hdiv⟩ :=
    h _ (memberKeys_ne_nil hne) (memberKeys_sublist_keys hms)
  exact ⟨score, hscore, eq_false_of_ne_true fun hd => hnot (hdiv.mp hd)⟩

theorem Conspires.loud (hms : ms.Sublist space.candidates.zipIdx) (hne : ms ≠ [])
    (hholds : ∀ k ∈ joint, k ∈ memberKeys ms) :
    ∃ score, outcomeOf oracle space ms = .ok score ∧ score.isDivergent = true := by
  obtain ⟨score, hscore, hdiv⟩ :=
    h _ (memberKeys_ne_nil hne) (memberKeys_sublist_keys hms)
  exact ⟨score, hscore, hdiv.mpr hholds⟩

theorem Conspires.isSilent_iff (hms : ms.Sublist space.candidates.zipIdx) (hne : ms ≠ []) :
    isSilent (outcomeOf oracle space ms) = true ↔ ¬∀ k ∈ joint, k ∈ memberKeys ms := by
  by_cases hholds : ∀ k ∈ joint, k ∈ memberKeys ms
  · obtain ⟨score, hscore, hdiv⟩ := h.loud hms hne hholds
    simpa [hscore, isSilent, hdiv] using hholds
  · obtain ⟨score, hscore, hdiv⟩ := h.quiet hms hne hholds
    simp [hscore, isSilent, hdiv, hholds]

/-- A single member is not all of `joint`, so alone it neither diverges nor fails. -/
theorem Conspires.isolated_eq (hsize : 2 ≤ joint.card)
    (hms : ms.Sublist space.candidates.zipIdx) :
    isolated oracle space (failedAlone oracle space) ms =
      ⟨[], [⟨space.scope.display, memberKeys ms, []⟩],
        [interactionIssue space.scope (memberKeys ms) []]⟩ := by
  have halone : ∀ m ∈ ms, ∃ score, outcomeOf oracle space [m] = .ok score ∧
      score.isDivergent = false := by
    intro m hm
    refine h.quiet ((List.singleton_sublist.mpr hm).trans hms) (List.cons_ne_nil _ _) ?_
    intro hholds
    have hsub : joint ⊆ {Candidate.key m.1} := fun k hk => by
      simpa [memberKeys] using hholds k hk
    have := Finset.card_le_card hsub
    rw [Finset.card_singleton] at this
    omega
  have hdivergent : divergentAlone oracle space ms = [] := by
    rw [divergentAlone, List.filterMap_eq_nil_iff]
    intro m hm
    obtain ⟨score, hscore, hdiv⟩ := halone m hm
    simp [hscore, hdiv]
  have hfailed : failedAlone oracle space ms = [] := by
    rw [failedAlone, List.filterMap_eq_nil_iff]
    intro m hm
    obtain ⟨score, hscore, -⟩ := halone m hm
    simp [hscore]
  rw [isolated, hdivergent, hfailed]
  rfl

theorem Conspires.followed_quiet (hms : ms.Sublist space.candidates.zipIdx) (hne : ms ≠ [])
    (hnot : ¬∀ k ∈ joint, k ∈ memberKeys ms) (solved : Score → Findings α) :
    followed oracle space solved ms = .ofIssues [] := by
  obtain ⟨score, hscore, hdiv⟩ := h.quiet hms hne hnot
  simp [followed, hscore, hdiv]

theorem Conspires.followed_loud (hms : ms.Sublist space.candidates.zipIdx) (hne : ms ≠ [])
    (hholds : ∀ k ∈ joint, k ∈ memberKeys ms) (solved : Score → Findings α) :
    ∃ score, followed oracle space solved ms = solved score := by
  obtain ⟨score, hscore, hdiv⟩ := h.loud hms hne hholds
  exact ⟨score, by simp [followed, hscore, hdiv]⟩

/-- The halves of a set are silent when neither holds all of `joint`. -/
theorem Conspires.halves_silent_iff (hms : ms.Sublist space.candidates.zipIdx)
    (hlarge : 2 ≤ ms.length) :
    (∀ half ∈ halfSets ms, isSilent (outcomeOf oracle space half) = true) ↔
      ∀ half ∈ halfSets ms, ¬∀ k ∈ joint, k ∈ memberKeys half :=
  forall₂_congr fun _ hhalf => h.isSilent_iff ((infix_of_mem_halfSets hhalf).sublist.trans hms)
    (ne_nil_of_mem_halfSets hlarge hhalf)

variable (hms : ms.Sublist space.candidates.zipIdx) (hlarge : 2 ≤ ms.length)

include hms hlarge

/-- The search goes on with the half that holds all of `joint`. -/
theorem Conspires.solve_first (failed : List (Member α) → List Issue)
    (hholds : ∀ k ∈ joint, k ∈ memberKeys (halves ms).1)
    (hnot : ¬∀ k ∈ joint, k ∈ memberKeys (halves ms).2) (score : Score) :
    ∃ score', solve oracle space failed ms score =
      solve oracle space failed (halves ms).1 score' := by
  obtain ⟨hsub₁, hsub₂⟩ := halves_sublist ms
  obtain ⟨hne₁, hne₂⟩ := halves_ne_nil hlarge
  obtain ⟨score', hfollowed⟩ := h.followed_loud (hsub₁.trans hms) hne₁ hholds
    (solve oracle space failed (halves ms).1)
  have hlead : ¬∀ half ∈ halfSets ms, isSilent (outcomeOf oracle space half) = true :=
    fun hquiet => (h.halves_silent_iff hms hlarge).mp hquiet _ List.mem_cons_self hholds
  refine ⟨score', ?_⟩
  rw [solve_of_large hlarge, if_neg hlead, hfollowed,
    h.followed_quiet (hsub₂.trans hms) hne₂ hnot, Findings.append_nothing]

theorem Conspires.solve_second (failed : List (Member α) → List Issue)
    (hholds : ∀ k ∈ joint, k ∈ memberKeys (halves ms).2)
    (hnot : ¬∀ k ∈ joint, k ∈ memberKeys (halves ms).1) (score : Score) :
    ∃ score', solve oracle space failed ms score =
      solve oracle space failed (halves ms).2 score' := by
  obtain ⟨hsub₁, hsub₂⟩ := halves_sublist ms
  obtain ⟨hne₁, hne₂⟩ := halves_ne_nil hlarge
  obtain ⟨score', hfollowed⟩ := h.followed_loud (hsub₂.trans hms) hne₂ hholds
    (solve oracle space failed (halves ms).2)
  have hlead : ¬∀ half ∈ halfSets ms, isSilent (outcomeOf oracle space half) = true :=
    fun hquiet => (h.halves_silent_iff hms hlarge).mp hquiet _
      (List.mem_cons_of_mem _ List.mem_cons_self) hholds
  refine ⟨score', ?_⟩
  rw [solve_of_large hlarge, if_neg hlead, hfollowed,
    h.followed_quiet (hsub₁.trans hms) hne₁ hnot, Findings.nothing_append]

/-- The search stops at the set that severs `joint`. -/
theorem Conspires.solve_severed (hsize : 2 ≤ joint.card)
    (hnot₁ : ¬∀ k ∈ joint, k ∈ memberKeys (halves ms).1)
    (hnot₂ : ¬∀ k ∈ joint, k ∈ memberKeys (halves ms).2) (score : Score) :
    solve oracle space (failedAlone oracle space) ms score =
      ⟨[], [⟨space.scope.display, memberKeys ms, []⟩],
        [interactionIssue space.scope (memberKeys ms) []]⟩ := by
  have hquiet : ∀ half ∈ halfSets ms, isSilent (outcomeOf oracle space half) = true :=
    (h.halves_silent_iff hms hlarge).mpr
      (List.forall_mem_cons.mpr ⟨hnot₁, List.forall_mem_singleton.mpr hnot₂⟩)
  rw [solve_of_large hlarge, if_pos hquiet, h.isolated_eq hsize hms]

omit hlarge

/-- The recursion finds the set of its tree that severs `joint`, and there is one such set. -/
theorem Conspires.solve_eq (hkeys : (keys space).Nodup) (hsize : 2 ≤ joint.card)
    (hholds : ∀ k ∈ joint, k ∈ memberKeys ms) (score : Score) :
    ∃ set, (∀ other, Halving (memberKeys ms) other ∧ Severs joint other ↔ other = set) ∧
      solve oracle space (failedAlone oracle space) ms score =
        ⟨[], [⟨space.scope.display, set, []⟩], [interactionIssue space.scope set []]⟩ := by
  induction hn : ms.length using Nat.strong_induction_on generalizing ms score with
  | _ n ih =>
      have hlargeKeys : 2 ≤ (memberKeys ms).length := hsize.trans (card_le_length hholds)
      have hlarge : 2 ≤ ms.length := by rwa [memberKeys, List.length_map] at hlargeKeys
      have hnodup : (memberKeys ms).Nodup := hkeys.sublist (memberKeys_sublist_keys hms)
      have hsome : joint.Nonempty := Finset.card_pos.mp (by omega)
      obtain ⟨hlength₁, hlength₂⟩ := halves_lengths ms
      obtain ⟨hsub₁, hsub₂⟩ := halves_sublist ms
      obtain ⟨hfirst, hsecond⟩ := memberKeys_halves ms
      by_cases hholds₁ : ∀ k ∈ joint, k ∈ memberKeys (halves ms).1
      · have hnot₂ : ¬∀ k ∈ joint, k ∈ memberKeys (halves ms).2 := by
          rw [← hfirst] at hholds₁
          rw [← hsecond]
          exact fun hholds₂ => not_both_halves hnodup hsome ⟨hholds₁, hholds₂⟩
        obtain ⟨score', hsolve⟩ := h.solve_first hms hlarge _ hholds₁ hnot₂ score
        obtain ⟨set, hunique, hset⟩ :=
          ih _ (by rw [hlength₁]; omega) (hsub₁.trans hms) hholds₁ score' rfl
        refine ⟨set, fun other => ?_, hsolve.trans hset⟩
        rw [severs_first_iff hnodup hlargeKeys hsome (hfirst ▸ hholds₁), hfirst]
        exact hunique other
      by_cases hholds₂ : ∀ k ∈ joint, k ∈ memberKeys (halves ms).2
      · obtain ⟨score', hsolve⟩ := h.solve_second hms hlarge _ hholds₂ hholds₁ score
        obtain ⟨set, hunique, hset⟩ :=
          ih _ (by rw [hlength₂]; omega) (hsub₂.trans hms) hholds₂ score' rfl
        refine ⟨set, fun other => ?_, hsolve.trans hset⟩
        rw [severs_second_iff hnodup hlargeKeys hsome (hsecond ▸ hholds₂), hsecond]
        exact hunique other
      · have hsevers : Severs joint (memberKeys ms) :=
          ⟨hholds, hfirst ▸ hholds₁, hsecond ▸ hholds₂⟩
        exact ⟨memberKeys ms, fun other => hsevers.halving_iff,
          h.solve_severed hms hlarge hsize hholds₁ hholds₂ score⟩

end Solve

/-- Of culprits that make a difference only together the search blames none. It reports one
interaction: the only set of the tree of halves that holds all of them while neither of its halves
does. -/
theorem search_joint (bench : Bench τ) (space : Space α) (oracle : Partition → Outcome)
    (joint : Finset String) (whole : Score) (inv : τ → Prop) (s : τ) (hkeys : (keys space).Nodup)
    (hb : bench.FollowsOn inv space.IsTrial oracle) (hs : inv s) (hsize : 2 ≤ joint.card)
    (hmem : ∀ k ∈ joint, k ∈ keys space) (h : Conspires oracle space joint) :
    ∃ set s', Halving (keys space) set ∧ Severs joint set ∧
      (∀ other, Halving (keys space) other → Severs joint other → other = set) ∧
      (search bench space whole).runOn s =
        (.ok ⟨[], [⟨space.scope.display, set, []⟩], [interactionIssue space.scope set []], false⟩,
          s') := by
  have hcongr : (search bench space whole).runOn s =
      (search (bench.fenced space.IsTrial oracle) space whole).runOn s := by
    refine search_congr hkeys ?_ (fun ps hps => (Bench.fenced_batch hps).symm) _ _
    rfl
  obtain ⟨t, s', hrun, -, hgoing, hbag⟩ := search_bag space whole hkeys hb.fenced hs
  rw [← memberKeys_zipIdx] at hmem
  obtain ⟨set, hunique, hsolve⟩ :=
    h.solve_eq (List.Sublist.refl _) hkeys hsize hmem whole
  rw [memberKeys_zipIdx] at hunique
  obtain ⟨htree, hsevers⟩ := (hunique set).mpr rfl
  have hsuspects := suspects_of_bag hbag
  rw [hsolve] at hbag hsuspects
  obtain ⟨-, hinteractions, hissues⟩ := Findings.perm_of_bag_eq hbag
  refine ⟨set, s', htree, hsevers, fun other h₁ h₂ => (hunique other).mp ⟨h₁, h₂⟩, ?_⟩
  rw [hcongr, hrun]
  have hone : t.interactions = _ := List.perm_singleton.mp hinteractions
  have hissue : t.issues = _ := List.perm_singleton.mp hissues
  have hnone : t.result.suspects = [] := hsuspects
  rw [← hone, ← hissue, ← hgoing, ← hnone]
  rfl

/-- The trials that diverge are those with all of `joint` variant. -/
def together (joint : Finset String) (p : Partition) : Outcome :=
  if ∀ k ∈ joint, k ∈ p.variant then .ok ⟨1⟩ else .ok ⟨0⟩

theorem together_conspires (space : Space α) (joint : Finset String) :
    Conspires (together joint) space joint := by
  intro V _ _
  by_cases hholds : ∀ k ∈ joint, k ∈ V
  · exact ⟨⟨1⟩, if_pos hholds, iff_of_true (by decide) hholds⟩
  · exact ⟨⟨0⟩, if_neg hholds, iff_of_false (by decide) hholds⟩

/-- Two of three files make a difference together, and they are the first half. -/
theorem search_joint_threeUnits :
    (keys threeUnits).Nodup ∧ ∃ s',
      (search (Bench.ofOracle (together {"a.c", "b.c"})) threeUnits ⟨1⟩).runOn () =
        (.ok ⟨[], [⟨"files", ["a.c", "b.c"], []⟩], [interactionIssue .units ["a.c", "b.c"] []],
          false⟩, s') := by
  have hkeys : (keys threeUnits).Nodup := by decide
  obtain ⟨set, s', -, -, hunique, hrun⟩ := search_joint
    (Bench.ofOracle (together {"a.c", "b.c"})) threeUnits (together {"a.c", "b.c"})
    {"a.c", "b.c"} ⟨1⟩ (fun _ => True) () hkeys
    ((Bench.ofOracle_follows _).followsOn _) trivial (by decide) (by decide)
    (together_conspires _ _)
  have hfirst : Halving (keys threeUnits) ["a.c", "b.c"] := .first .root (by decide)
  obtain rfl := hunique _ hfirst ⟨by decide, by decide, by decide⟩
  exact ⟨hkeys, s', hrun⟩

end Search

end Culprit
