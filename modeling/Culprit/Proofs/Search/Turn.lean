import Culprit.Proofs.Search.Trials
import Mathlib.Logic.Relation

/-!
The loop of a search, turn by turn. A moment is the queue, what has been found, the trials so far
and the world of the bench. A turn keeps the result that the rest of the loop has, and from every
moment turns lead to one with an empty queue. So whatever every turn preserves holds of the result
of a search.
-/

namespace Culprit.Search

variable {α τ : Type}

/-- The loop between two of its turns. -/
structure Moment (τ α : Type) where
  queue : List (Branch α)
  tally : Tally α
  /-- Every trial so far with its outcome, a repeated one again. -/
  tried : List (Partition × Outcome)
  world : τ

/-- The moment at which a search starts its loop. -/
def opening (space : Space α) (whole : Score) (s : τ) : Moment τ α where
  queue := if space.candidates.isEmpty then [] else [⟨space.candidates.zipIdx, whole⟩]
  tally := .empty
  tried := []
  world := s

/-- The world satisfies `inv`, and all branches of the queue are segments. -/
structure Moment.Sound (space : Space α) (inv : τ → Prop) (m : Moment τ α) : Prop where
  world : inv m.world
  segments : ∀ b ∈ m.queue, b.IsSegment space

theorem opening_sound (space : Space α) {inv : τ → Prop} (whole : Score) {s : τ} (hs : inv s) :
    (opening space whole s).Sound space inv := by
  refine ⟨hs, fun b hb => ?_⟩
  by_cases hnone : space.candidates.isEmpty
  · simp [opening, hnone] at hb
  · obtain rfl : b = ⟨space.candidates.zipIdx, whole⟩ := by simpa [opening, hnone] using hb
    exact ⟨by simpa using hnone, List.infix_refl _⟩

variable [Candidate α]

/-- One turn of the loop, which takes the first branch of the queue. -/
inductive Turn (bench : Bench τ) (space : Space α) : Moment τ α → Moment τ α → Prop
  /-- A request to stop ends the loop. -/
  | stop {b : Branch α} {rest : List (Branch α)} {t : Tally α}
      {tried : List (Partition × Outcome)} {s s' : τ}
      (hstop : bench.cancelled s = (true, s')) :
      Turn bench space ⟨b :: rest, t, tried, s⟩
        ⟨[], t.stop space.scope (rest.length + 1), tried, s'⟩
  /-- A single candidate is a suspect. -/
  | emit {m : Member α} {score : Score} {rest : List (Branch α)} {t : Tally α}
      {tried : List (Partition × Outcome)} {s s' : τ}
      (hgo : bench.cancelled s = (false, s')) :
      Turn bench space ⟨⟨[m], score⟩ :: rest, t, tried, s⟩ ⟨rest, t.emit m score, tried, s'⟩
  /-- The request to stop came while the halves were tried, and the branch goes back. -/
  | putBack {b : Branch α} {rest : List (Branch α)} {t : Tally α}
      {tried : List (Partition × Outcome)} {os : List Outcome} {s s₁ s₂ s' : τ}
      (hlarge : 2 ≤ b.members.length)
      (hgo : bench.cancelled s = (false, s₁))
      (htry : bench.batch (trials space (halfSets b.members)) s₁ = (os, s₂))
      (hstop : bench.cancelled s₂ = (true, s')) :
      Turn bench space ⟨b :: rest, t, tried, s⟩
        ⟨b :: rest, t, tried ++ (trials space (halfSets b.members)).zip os, s'⟩
  /-- A half diverged or failed. -/
  | follow {b : Branch α} {rest : List (Branch α)} {t : Tally α}
      {tried : List (Partition × Outcome)} {os : List Outcome} {s s₁ s₂ s' : τ}
      (hlarge : 2 ≤ b.members.length)
      (hgo : bench.cancelled s = (false, s₁))
      (htry : bench.batch (trials space (halfSets b.members)) s₁ = (os, s₂))
      (hgo' : bench.cancelled s₂ = (false, s'))
      (hlead : diverging (halfSets b.members) os ≠ [] ∨
        failures (trials space (halfSets b.members)) os ≠ []) :
      Turn bench space ⟨b :: rest, t, tried, s⟩
        ⟨rest ++ diverging (halfSets b.members) os,
          t.addIssues (failures (trials space (halfSets b.members)) os),
          tried ++ (trials space (halfSets b.members)).zip os, s'⟩
  /-- Both halves agree with the baseline, and every member is tried alone. -/
  | isolate {b : Branch α} {rest : List (Branch α)} {t : Tally α}
      {tried : List (Partition × Outcome)} {os os' : List Outcome} {s s₁ s₂ s₃ s' : τ}
      (hlarge : 2 ≤ b.members.length)
      (hgo : bench.cancelled s = (false, s₁))
      (htry : bench.batch (trials space (halfSets b.members)) s₁ = (os, s₂))
      (hgo' : bench.cancelled s₂ = (false, s₃))
      (hsilent : diverging (halfSets b.members) os = [])
      (hfailed : failures (trials space (halfSets b.members)) os = [])
      (halone : bench.batch (trials space (singleSets b.members)) s₃ = (os', s')) :
      Turn bench space ⟨b :: rest, t, tried, s⟩
        ⟨rest, t.isolate space.scope b.members (trials space (singleSets b.members)) os',
          tried ++ (trials space (halfSets b.members)).zip os ++
            (trials space (singleSets b.members)).zip os', s'⟩

/-- Any number of turns. -/
abbrev Turns (bench : Bench τ) (space : Space α) : Moment τ α → Moment τ α → Prop :=
  Relation.ReflTransGen (Turn bench space)

/-- Whatever the first moment knows, the second knows. -/
structure Moment.Subset (m m' : Moment τ α) : Prop where
  found : m.tally.found ⊆ m'.tally.found
  interactions : m.tally.interactions ⊆ m'.tally.interactions
  issues : m.tally.issues ⊆ m'.tally.issues
  tried : m.tried ⊆ m'.tried

/-- What the rest of the loop comes to. -/
def Moment.finish (bench : Bench τ) (space : Space α) (m : Moment τ α) :
    Except Error (Tally α) × τ :=
  (explore bench space m.queue m.tally).runOn m.world

/-! ### The loop as the search runs it -/

section Explore

variable {bench : Bench τ} {space : Space α} {b : Branch α} {rest : List (Branch α)}
  {t : Tally α} {s s₁ s₂ s₃ s' : τ} {os os' : List Outcome}

theorem runOn_explore_nil : (explore bench space [] t).runOn s = (.ok t, s) := by
  rw [explore, Attempt.runOn_pure]

theorem runOn_explore_stop (hstop : bench.cancelled s = (true, s')) :
    (explore bench space (b :: rest) t).runOn s =
      (.ok (t.stop space.scope (rest.length + 1)), s') := by
  obtain ⟨_ | ⟨m, _ | ⟨n, ms⟩⟩, score⟩ := b <;>
    rw [explore, Attempt.runOn_lift_bind, hstop] <;> simp

theorem runOn_explore_emit {m : Member α} {score : Score}
    (hgo : bench.cancelled s = (false, s')) :
    (explore bench space (⟨[m], score⟩ :: rest) t).runOn s =
      (explore bench space rest (t.emit m score)).runOn s' := by
  rw [explore, Attempt.runOn_lift_bind, hgo]
  simp

theorem runOn_explore_halve (hkeys : (keys space).Nodup)
    (hb : b.members.Sublist space.candidates.zipIdx) (hlarge : 2 ≤ b.members.length)
    (hgo : bench.cancelled s = (false, s₁))
    (htry : bench.batch (trials space (halfSets b.members)) s₁ = (os, s₂)) :
    (explore bench space (b :: rest) t).runOn s =
      if (bench.cancelled s₂).1 then
        (.ok (t.stop space.scope (rest.length + 1)), (bench.cancelled s₂).2)
      else
        Attempt.runOn (conclude bench space b.members (trials space (halfSets b.members)) os
            (diverging (halfSets b.members) os) t >>= fun t =>
          explore bench space (rest ++ diverging (halfSets b.members) os) t)
          (bench.cancelled s₂).2 := by
  obtain ⟨_ | ⟨m, _ | ⟨n, ms⟩⟩, score⟩ := b
  · simp at hlarge
  · simp at hlarge
  · rw [explore, Attempt.runOn_lift_bind, hgo]
    simp only [Bool.false_eq_true, if_false]
    rw [mapM_halfSets hkeys hb, Attempt.runOn_of_ok_bind, Attempt.runOn_lift_bind, htry,
      Attempt.runOn_lift_bind]
    split
    · rw [Attempt.runOn_pure]
    · rfl

theorem runOn_explore_putBack (hkeys : (keys space).Nodup)
    (hb : b.members.Sublist space.candidates.zipIdx) (hlarge : 2 ≤ b.members.length)
    (hgo : bench.cancelled s = (false, s₁))
    (htry : bench.batch (trials space (halfSets b.members)) s₁ = (os, s₂))
    (hstop : bench.cancelled s₂ = (true, s')) :
    (explore bench space (b :: rest) t).runOn s =
      (.ok (t.stop space.scope (rest.length + 1)), s') := by
  rw [runOn_explore_halve hkeys hb hlarge hgo htry, hstop, if_pos rfl]

theorem runOn_explore_follow (hkeys : (keys space).Nodup)
    (hb : b.members.Sublist space.candidates.zipIdx) (hlarge : 2 ≤ b.members.length)
    (hgo : bench.cancelled s = (false, s₁))
    (htry : bench.batch (trials space (halfSets b.members)) s₁ = (os, s₂))
    (hgo' : bench.cancelled s₂ = (false, s'))
    (hlead : diverging (halfSets b.members) os ≠ [] ∨
      failures (trials space (halfSets b.members)) os ≠ []) :
    (explore bench space (b :: rest) t).runOn s =
      (explore bench space (rest ++ diverging (halfSets b.members) os)
        (t.addIssues (failures (trials space (halfSets b.members)) os))).runOn s' := by
  rw [runOn_explore_halve hkeys hb hlarge hgo htry, hgo', Attempt.runOn_bind, conclude]
  have hlead' : ¬((diverging (halfSets b.members) os).isEmpty &&
      (failures (trials space (halfSets b.members)) os).isEmpty) = true := by
    simpa [Classical.or_iff_not_imp_left] using hlead
  rw [if_neg hlead', Attempt.runOn_pure]
  rfl

theorem runOn_leaveOneOut (hkeys : (keys space).Nodup) {ms : List (Member α)}
    (hms : ms.Sublist space.candidates.zipIdx)
    (halone : bench.batch (trials space (singleSets ms)) s = (os, s')) :
    (leaveOneOut bench space ms t).runOn s =
      (.ok (t.isolate space.scope ms (trials space (singleSets ms)) os), s') := by
  rw [leaveOneOut, mapM_singleSets hkeys hms, Attempt.runOn_of_ok_bind,
    Attempt.runOn_lift_bind, halone, Attempt.runOn_pure]

theorem runOn_explore_isolate (hkeys : (keys space).Nodup)
    (hb : b.members.Sublist space.candidates.zipIdx) (hlarge : 2 ≤ b.members.length)
    (hgo : bench.cancelled s = (false, s₁))
    (htry : bench.batch (trials space (halfSets b.members)) s₁ = (os, s₂))
    (hgo' : bench.cancelled s₂ = (false, s₃))
    (hsilent : diverging (halfSets b.members) os = [])
    (hfailed : failures (trials space (halfSets b.members)) os = [])
    (halone : bench.batch (trials space (singleSets b.members)) s₃ = (os', s')) :
    (explore bench space (b :: rest) t).runOn s =
      (explore bench space rest (t.isolate space.scope b.members
        (trials space (singleSets b.members)) os')).runOn s' := by
  have hno : t.addIssues [] = t := by simp [Tally.addIssues]
  rw [runOn_explore_halve hkeys hb hlarge hgo htry, hgo', Attempt.runOn_bind, conclude, hsilent,
    hfailed, hno]
  simp [runOn_leaveOneOut hkeys hb halone]

end Explore

theorem runOn_search (bench : Bench τ) (space : Space α) (whole : Score) (s : τ) :
    (search bench space whole).runOn s =
      (((opening space whole s).finish bench space).1.map Tally.result,
        ((opening space whole s).finish bench space).2) := by
  rw [search, Moment.finish, opening]
  by_cases hnone : space.candidates.isEmpty
  · rw [if_pos hnone, if_pos hnone, runOn_explore_nil, Attempt.runOn_pure]
    simp [Except.map, Tally.result, Tally.empty, SearchResult.empty]
  · rw [if_neg hnone, if_neg hnone, Attempt.runOn_bind]
    cases Attempt.runOn (explore bench space [⟨space.candidates.zipIdx, whole⟩] .empty) s with
    | mk r s' => cases r <;> rfl

/-! ### What every turn keeps -/

variable {bench : Bench τ} {space : Space α} {inv : τ → Prop} {m m' : Moment τ α}

theorem Turn.sound (hb : bench.Keeps inv) (hm : m.Sound space inv)
    (h : Turn bench space m m') : m'.Sound space inv := by
  obtain ⟨hworld, hsegs⟩ := hm
  cases h with
  | stop hstop => exact ⟨hb.of_cancelled hworld hstop, by simp⟩
  | emit hgo =>
      exact ⟨hb.of_cancelled hworld hgo, fun c hc => hsegs c (List.mem_cons_of_mem _ hc)⟩
  | putBack _ hgo htry hstop =>
      have htried := hb.of_batch (hb.of_cancelled hworld hgo) htry
      exact ⟨hb.of_cancelled htried hstop, hsegs⟩
  | follow hlarge hgo htry hgo' _ =>
      have htried := hb.of_batch (hb.of_cancelled hworld hgo) htry
      refine ⟨hb.of_cancelled htried hgo', fun c hc => ?_⟩
      rcases List.mem_append.mp hc with hc | hc
      · exact hsegs c (List.mem_cons_of_mem _ hc)
      · exact isSegment_of_mem_diverging (hsegs _ List.mem_cons_self) hlarge hc
  | isolate _ hgo htry hgo' _ _ halone =>
      have htried := hb.of_batch (hb.of_cancelled hworld hgo) htry
      exact ⟨hb.of_batch (hb.of_cancelled htried hgo') halone,
        fun c hc => hsegs c (List.mem_cons_of_mem _ hc)⟩

theorem Turns.sound (hb : bench.Keeps inv) (hm : m.Sound space inv)
    (h : Turns bench space m m') : m'.Sound space inv := by
  induction h with
  | refl => exact hm
  | tail _ hturn ih => exact hturn.sound hb ih

/-- What holds at a sound moment and survives every turn holds wherever turns lead. -/
theorem Turns.keep {P : Moment τ α → Prop} (hb : bench.Keeps inv) (hm : m.Sound space inv)
    (h : Turns bench space m m') (hP : P m)
    (hturn : ∀ m₁ m₂, m₁.Sound space inv → Turn bench space m₁ m₂ → P m₁ → P m₂) : P m' := by
  induction h with
  | refl => exact hP
  | tail hturns hlast ih => exact hturn _ _ (Turns.sound hb hm hturns) hlast ih

/-- A turn forgets nothing that was found or tried. -/
theorem Turn.subset (h : Turn bench space m m') : m.Subset m' := by
  cases h with
  | stop =>
      exact ⟨List.Subset.refl _, List.Subset.refl _, List.subset_append_left _ _,
        List.Subset.refl _⟩
  | emit =>
      exact ⟨List.subset_append_left _ _, List.Subset.refl _, List.Subset.refl _,
        List.Subset.refl _⟩
  | putBack =>
      exact ⟨List.Subset.refl _, List.Subset.refl _, List.Subset.refl _,
        List.subset_append_left _ _⟩
  | follow =>
      exact ⟨List.Subset.refl _, List.Subset.refl _, List.subset_append_left _ _,
        List.subset_append_left _ _⟩
  | isolate =>
      exact ⟨List.subset_append_left _ _, List.subset_append_left _ _,
        List.Subset.trans (List.subset_append_left _ _) (List.subset_append_left _ _),
        List.Subset.trans (List.subset_append_left _ _) (List.subset_append_left _ _)⟩

/-! ### There is one way to go on -/

theorem Turn.unique {m₁ m₂ : Moment τ α} (h₁ : Turn bench space m m₁)
    (h₂ : Turn bench space m m₂) : m₁ = m₂ := by
  -- Two turns of different kinds disagree about a request to stop, the size of the first branch or
  -- the outcomes of its batch.
  cases h₁ with
  | stop => cases h₂ <;> grind
  | emit => cases h₂ <;> grind
  | putBack => cases h₂ <;> grind
  | follow => cases h₂ <;> grind
  | isolate => cases h₂ <;> grind

/-- Whatever moment turns lead to, more turns lead from it to the end. -/
theorem Turns.to_end {m₁ m₂ : Moment τ α} (h₁ : Turns bench space m m₁)
    (h₂ : Turns bench space m m₂) (hend : m₂.queue = []) : Turns bench space m₁ m₂ := by
  have hunique : Relator.RightUnique (Turn bench space) := fun _ _ _ => Turn.unique
  rcases Relation.ReflTransGen.total_of_right_unique hunique h₁ h₂ with h | h
  · exact h
  · rcases h.cases_head with rfl | ⟨_, hturn, -⟩
    · exact .refl
    · cases hturn <;> simp at hend

/-! ### Turns and the result of a search -/

/-- While no request to stop comes, a turn changes nothing about how the loop ends. -/
theorem Turn.finish_eq (hkeys : (keys space).Nodup) (hb : bench.Uncancelled inv)
    (hm : m.Sound space inv) (h : Turn bench space m m') :
    m.finish bench space = m'.finish bench space := by
  obtain ⟨hworld, hsegs⟩ := hm
  cases h with
  | stop hstop => exact absurd hstop (hb.not_stop hworld)
  | emit hgo => exact runOn_explore_emit hgo
  | putBack _ hgo htry hstop =>
      have htried := hb.of_batch (hb.of_cancelled hworld hgo) htry
      exact absurd hstop (hb.not_stop htried)
  | follow hlarge hgo htry hgo' hlead =>
      exact runOn_explore_follow hkeys (hsegs _ List.mem_cons_self).sublist hlarge hgo htry hgo'
        hlead
  | isolate hlarge hgo htry hgo' hsilent hfailed halone =>
      exact runOn_explore_isolate hkeys (hsegs _ List.mem_cons_self).sublist hlarge hgo htry hgo'
        hsilent hfailed halone

/-- A turn changes nothing about the result of the loop, and about its world only what another
look at a request to stop can change. -/
theorem Turn.finish_fst_eq (hkeys : (keys space).Nodup) (hb : bench.Latched inv)
    (hm : m.Sound space inv) (h : Turn bench space m m') :
    (m.finish bench space).1 = (m'.finish bench space).1 := by
  obtain ⟨hworld, hsegs⟩ := hm
  cases h with
  | stop hstop =>
      rw [Moment.finish, runOn_explore_stop hstop, Moment.finish, runOn_explore_nil]
  | emit hgo => exact congrArg Prod.fst (runOn_explore_emit hgo)
  | putBack hlarge hgo htry hstop =>
      have htried := hb.of_batch (hb.of_cancelled hworld hgo) htry
      obtain ⟨_, hagain⟩ := hb.again htried hstop
      have hseg := (hsegs _ List.mem_cons_self).sublist
      rw [Moment.finish, runOn_explore_putBack hkeys hseg hlarge hgo htry hstop, Moment.finish,
        runOn_explore_stop hagain]
  | follow hlarge hgo htry hgo' hlead =>
      exact congrArg Prod.fst (runOn_explore_follow hkeys (hsegs _ List.mem_cons_self).sublist
        hlarge hgo htry hgo' hlead)
  | isolate hlarge hgo htry hgo' hsilent hfailed halone =>
      exact congrArg Prod.fst (runOn_explore_isolate hkeys (hsegs _ List.mem_cons_self).sublist
        hlarge hgo htry hgo' hsilent hfailed halone)

theorem Turns.finish_eq (hkeys : (keys space).Nodup) (hb : bench.Uncancelled inv)
    (hm : m.Sound space inv) (h : Turns bench space m m') :
    m.finish bench space = m'.finish bench space := by
  refine Turns.keep (P := fun m₁ => m.finish bench space = m₁.finish bench space) hb.toKeeps hm h
    rfl ?_
  intro m₁ m₂ hm₁ hturn heq
  exact heq.trans (hturn.finish_eq hkeys hb hm₁)

theorem Turns.finish_fst_eq (hkeys : (keys space).Nodup) (hb : bench.Latched inv)
    (hm : m.Sound space inv) (h : Turns bench space m m') :
    (m.finish bench space).1 = (m'.finish bench space).1 := by
  refine Turns.keep (P := fun m₁ => (m.finish bench space).1 = (m₁.finish bench space).1)
    hb.toKeeps hm h rfl ?_
  intro m₁ m₂ hm₁ hturn heq
  exact heq.trans (hturn.finish_fst_eq hkeys hb hm₁)

theorem finish_of_queue_nil (hend : m.queue = []) :
    m.finish bench space = (.ok m.tally, m.world) := by
  rw [Moment.finish, hend, runOn_explore_nil]

/-! ### Every search comes to an end -/

theorem exists_turn (hm : m.Sound space inv) (hlive : m.queue ≠ []) :
    ∃ m', Turn bench space m m' := by
  obtain ⟨_ | ⟨b, rest⟩, t, tried, s⟩ := m
  · exact absurd rfl hlive
  have hb := (hm.segments b List.mem_cons_self).1
  rcases hgo : bench.cancelled s with ⟨_ | _, s₁⟩
  · obtain ⟨_ | ⟨m, _ | ⟨n, ms⟩⟩, score⟩ := b
    · exact absurd rfl hb
    · exact ⟨_, .emit hgo⟩
    · have hlarge : 2 ≤ (m :: n :: ms).length := by simp
      rcases htry : bench.batch (trials space (halfSets (m :: n :: ms))) s₁ with ⟨os, s₂⟩
      rcases hgo' : bench.cancelled s₂ with ⟨_ | _, s₃⟩
      · by_cases hlead : diverging (halfSets (m :: n :: ms)) os ≠ [] ∨
            failures (trials space (halfSets (m :: n :: ms))) os ≠ []
        · exact ⟨_, .follow hlarge hgo htry hgo' hlead⟩
        · obtain ⟨hsilent, hfailed⟩ := not_or.mp hlead
          exact ⟨_, .isolate hlarge hgo htry hgo' (not_not.mp hsilent) (not_not.mp hfailed) rfl⟩
      · exact ⟨_, .putBack hlarge hgo htry hgo'⟩
  · exact ⟨_, .stop hgo⟩

/-- Every turn makes the queue lighter but one that puts a branch back, and after that one the
next turn is the last. -/
theorem Turn.lighter_or_last (hb : bench.Latched inv) (hm : m.Sound space inv)
    (h : Turn bench space m m') :
    weight m'.queue < weight m.queue ∨ ∃ m'', Turn bench space m' m'' ∧ m''.queue = [] := by
  cases h with
  | @stop b rest =>
      left
      have := weight_pos b
      simp only [weight_nil, weight_cons]
      omega
  | @emit c score =>
      left
      have := weight_pos (⟨[c], score⟩ : Branch α)
      simp only [weight_cons]
      omega
  | putBack hlarge hgo htry hstop =>
      -- The queue is as it was, but the next look sees the same request.
      have htried := hb.of_batch (hb.of_cancelled hm.world hgo) htry
      obtain ⟨_, hagain⟩ := hb.again htried hstop
      exact .inr ⟨_, .stop hagain, rfl⟩
  | @follow b _ _ _ os _ _ _ _ hlarge =>
      left
      have := weight_halfSets_lt os hlarge
      simp only [weight_append, weight_cons]
      omega
  | @isolate b =>
      left
      have := weight_pos b
      simp only [weight_cons]
      omega

/-- From every moment the loop comes to its end. -/
theorem exists_turns (hb : bench.Latched inv) (hm : m.Sound space inv) :
    ∃ m', Turns bench space m m' ∧ m'.queue = [] := by
  induction hw : weight m.queue using Nat.strong_induction_on generalizing m with
  | _ w ih =>
      by_cases hend : m.queue = []
      · exact ⟨m, .refl, hend⟩
      · obtain ⟨m', hturn⟩ := exists_turn hm hend
        rcases hturn.lighter_or_last hb hm with hlt | ⟨m'', hlast, hend⟩
        · obtain ⟨m'', hturns, hend⟩ := ih _ (hw ▸ hlt) (hturn.sound hb.toKeeps hm) rfl
          exact ⟨m'', .head hturn hturns, hend⟩
        · exact ⟨m'', .head hturn (.single hlast), hend⟩

/-- How the loop ends: nothing is left of the queue, or the look after a batch found a request to
stop and no other look follows. -/
inductive Moment.Ends (bench : Bench τ) (space : Space α) (m : Moment τ α) : Tally α → Prop
  | done (hend : m.queue = []) : Ends bench space m m.tally
  | stopped {s : τ} (hstop : bench.cancelled s = (true, m.world)) :
      Ends bench space m (m.tally.stop space.scope m.queue.length)

omit [Candidate α] in
theorem Moment.Ends.suspects {t : Tally α} (h : m.Ends bench space t) :
    t.result.suspects = m.tally.result.suspects := by
  cases h with
  | done => rfl
  | stopped => rfl

omit [Candidate α] in
theorem Moment.Ends.interactions {t : Tally α} (h : m.Ends bench space t) :
    t.result.interactions = m.tally.interactions := by
  cases h with
  | done => rfl
  | stopped => rfl

/-- After a turn the loop has a lighter queue and the same end, or it is over. -/
theorem Turn.lighter_or_ends (hkeys : (keys space).Nodup) (hm : m.Sound space inv)
    (h : Turn bench space m m') :
    weight m'.queue < weight m.queue ∧ m.finish bench space = m'.finish bench space ∨
      ∃ t, m'.Ends bench space t ∧ m.finish bench space = (.ok t, m'.world) := by
  have hsegs := hm.segments
  cases h with
  | stop hstop => exact .inr ⟨_, .done rfl, runOn_explore_stop hstop⟩
  | @emit c score rest t tried s s' hgo =>
      refine .inl ⟨?_, runOn_explore_emit hgo⟩
      have := weight_pos (⟨[c], score⟩ : Branch α)
      simp only [weight_cons]
      omega
  | putBack hlarge hgo htry hstop =>
      exact .inr ⟨_, .stopped hstop, runOn_explore_putBack hkeys
        (hsegs _ List.mem_cons_self).sublist hlarge hgo htry hstop⟩
  | @follow b _ _ _ os _ _ _ _ hlarge hgo htry hgo' hlead =>
      refine .inl ⟨?_, runOn_explore_follow hkeys (hsegs _ List.mem_cons_self).sublist hlarge hgo
        htry hgo' hlead⟩
      have := weight_halfSets_lt os hlarge
      simp only [weight_append, weight_cons]
      omega
  | @isolate b _ _ _ _ _ _ _ _ _ _ hlarge hgo htry hgo' hsilent hfailed halone =>
      refine .inl ⟨?_, runOn_explore_isolate hkeys (hsegs _ List.mem_cons_self).sublist hlarge hgo
        htry hgo' hsilent hfailed halone⟩
      have := weight_pos b
      simp only [weight_cons]
      omega

/-- From every moment turns lead to the end of the loop. -/
theorem exists_end (hkeys : (keys space).Nodup) (hb : bench.Keeps inv) (hm : m.Sound space inv) :
    ∃ m' t, Turns bench space m m' ∧ m'.Ends bench space t ∧
      m.finish bench space = (.ok t, m'.world) := by
  induction hw : weight m.queue using Nat.strong_induction_on generalizing m with
  | _ w ih =>
      by_cases hend : m.queue = []
      · exact ⟨m, _, .refl, .done hend, finish_of_queue_nil hend⟩
      · obtain ⟨m₁, hturn⟩ := exists_turn hm hend
        rcases hturn.lighter_or_ends hkeys hm with ⟨hlt, hfinish⟩ | ⟨t, hends, hfinish⟩
        · obtain ⟨m', t, hturns, hends, hfinish'⟩ := ih _ (hw ▸ hlt) (hturn.sound hb hm) rfl
          exact ⟨m', t, .head hturn hturns, hends, hfinish.trans hfinish'⟩
        · exact ⟨m₁, t, .single hturn, hends, hfinish⟩

/-- From the opening turns lead to the result of the search and the world that it leaves. -/
theorem exists_search (whole : Score) {s : τ} (hkeys : (keys space).Nodup) (hb : bench.Keeps inv)
    (hs : inv s) :
    ∃ m t, Turns bench space (opening space whole s) m ∧ m.Ends bench space t ∧
      (search bench space whole).runOn s = (.ok t.result, m.world) := by
  obtain ⟨m, t, hturns, hends, hfinish⟩ := exists_end hkeys hb (opening_sound space whole hs)
  refine ⟨m, t, hturns, hends, ?_⟩
  rw [runOn_search, hfinish]
  rfl

/-- No series of turns goes on for ever. -/
theorem acc_turn (hb : bench.Latched inv) (hm : m.Sound space inv) :
    Acc (fun m₂ m₁ => Turn bench space m₁ m₂) m := by
  obtain ⟨m', hturns, hend⟩ := exists_turns hb hm
  clear hm
  induction hturns using Relation.ReflTransGen.head_induction_on with
  | refl =>
      refine ⟨_, fun m'' hturn => ?_⟩
      cases hturn <;> simp at hend
  | head hturn _ ih => exact ⟨_, fun m'' hturn' => hturn.unique hturn' ▸ ih⟩

end Culprit.Search
