import Culprit.Proofs.Search.Culprits
import Mathlib.Data.List.Flatten

/-!
What a request to stop takes from a search. A trial that the request interrupts has its own outcome
or fails, and whenever it comes, what the search has found and what the recursion would make of its
queue are part of the findings of the whole recursion. So a request only removes findings: none is
added, no score changes, and an interaction loses at most some of the members that diverge alone.
-/

namespace Culprit

/-- The second interaction is the first, of which more members may diverge alone. -/
structure Interaction.PartOf (i j : Interaction) : Prop where
  scope : i.scope = j.scope
  members : i.members = j.members
  attributed : i.attributed.Sublist j.attributed

/-- The outcome is the right one, or the trial was interrupted and failed. -/
def Outcome.Excused (right o : Outcome) (interrupted : Prop) : Prop :=
  o = right ∨ interrupted ∧ ∃ f, o = .error f

namespace Bench

variable {τ : Type}

/-- A look finds every request to stop that was made before it, and `oracle` tells the outcome of
every partition of `domain` unless a request interrupts its trial. -/
structure Interruptible (b : Bench τ) (inv fired : τ → Prop) (domain : Partition → Prop)
    (oracle : Partition → Outcome) : Prop where
  looked {s : τ} : inv s → inv (b.cancelled s).2
  seen {s : τ} : inv s → fired s → (b.cancelled s).1 = true
  tried {s : τ} {ps : List Partition} : inv s → (∀ p ∈ ps, domain p) → inv (b.batch ps s).2
  answered {s : τ} {ps : List Partition} : inv s → (∀ p ∈ ps, domain p) →
    List.Forall₂ (fun p o => Outcome.Excused (oracle p) o (fired (b.batch ps s).2)) ps
      (b.batch ps s).1

variable {b : Bench τ} {inv fired : τ → Prop} {domain : Partition → Prop}
  {oracle : Partition → Outcome}

/-- A look that finds no request vouches for the batch before it. -/
theorem Interruptible.outcomes (hb : b.Interruptible inv fired domain oracle) {s s₁ s₂ : τ}
    {ps : List Partition} {os : List Outcome} (hs : inv s) (hps : ∀ p ∈ ps, domain p)
    (htry : b.batch ps s = (os, s₁)) (hgo : b.cancelled s₁ = (false, s₂)) :
    os = ps.map oracle := by
  have hinv := hb.tried hs hps
  have hanswers := hb.answered hs hps
  rw [htry] at hinv hanswers
  have hquiet : ¬fired s₁ := fun hfired => by simpa [hgo] using hb.seen hinv hfired
  have hright : List.Forall₂ (fun p o => oracle p = o) ps os :=
    hanswers.imp fun _ _ h => (h.resolve_right fun hcut => hquiet hcut.1).symm
  exact (List.forall₂_eq_eq_eq ▸ List.forall₂_map_left_iff.mpr hright).symm

theorem Interruptible.of_cancelled (hb : b.Interruptible inv fired domain oracle) {s s' : τ}
    {stop : Bool} (hs : inv s) (he : b.cancelled s = (stop, s')) : inv s' := by
  have := hb.looked hs
  rwa [he] at this

theorem Interruptible.of_batch (hb : b.Interruptible inv fired domain oracle) {s s' : τ}
    {ps : List Partition} {os : List Outcome} (hs : inv s) (hps : ∀ p ∈ ps, domain p)
    (he : b.batch ps s = (os, s')) : inv s' := by
  have := hb.tried hs hps
  rwa [he] at this

end Bench

namespace Search

variable {α τ : Type}

/-! ### Batches cut short -/

theorem diverging_sublist {right : List (Member α) → Outcome} {cut : Prop}
    {sets : List (List (Member α))} {os : List Outcome}
    (h : List.Forall₂ (fun ms o => Outcome.Excused (right ms) o cut) sets os) :
    (diverging sets os).Sublist (diverging sets (sets.map right)) := by
  rw [diverging_eq_filterMap, diverging_map]
  induction h with
  | nil => exact List.Sublist.refl _
  | @cons ms o sets os ho _ ih =>
      rw [List.zip_cons_cons, List.filterMap_cons, List.filterMap_cons]
      rcases ho with rfl | ⟨-, f, rfl⟩
      · cases branch? (ms, right ms) with
        | none => exact ih
        | some b => exact ih.cons_cons b
      · rw [branch?_error]
        cases branch? (ms, right ms) with
        | none => exact ih
        | some b => exact ih.cons b

/-- The findings of a tally that are among ascending ones come out as a part of them. -/
theorem Tally.sorted_sublist {t : Tally α} {fs : List (Member α × Score)}
    (hle : (t.found : Multiset (Member α × Score)) ≤ fs) (hfs : fs.Pairwise Before) :
    t.sorted.Sublist fs := by
  have hsub : t.sorted.Subperm fs := t.sorted_perm.subperm.trans (Multiset.coe_le.mp hle)
  have hnodup : (t.found.map fun f => f.1.2).Nodup := by
    obtain ⟨gs, hperm, hgs⟩ := Multiset.coe_le.mp hle
    exact (hperm.map _).nodup_iff.mp (List.pairwise_map.mpr ((hfs.sublist hgs).imp Nat.ne_of_lt))
  have : Std.Antisymm (Before (α := α)) := ⟨fun f g hfg hgf => absurd hfg (Nat.lt_asymm hgf)⟩
  exact List.sublist_of_subperm_of_pairwise hsub (t.sorted_pairwise hnodup) hfs

variable [Candidate α] {space : Space α} {oracle : Partition → Outcome}

theorem diverging_trials_sublist {cut : Prop} {sets : List (List (Member α))}
    {os : List Outcome}
    (h : List.Forall₂ (fun p o => Outcome.Excused (oracle p) o cut) (trials space sets) os) :
    (diverging sets os).Sublist (diverging sets ((trials space sets).map oracle)) := by
  rw [trials_map]
  exact diverging_sublist (List.forall₂_map_left_iff.mp h)

/-- The findings among single trials, of which some may have been cut short. -/
theorem isolate_partOf {cut : Prop} {ms : List (Member α)} {os : List Outcome} (t : Tally α)
    (h : List.Forall₂ (fun p o => Outcome.Excused (oracle p) o cut) (trials space (singleSets ms))
      os) :
    ((t.isolate space.scope ms (trials space (singleSets ms)) os).found :
        Multiset (Member α × Score)) ≤ t.found + divergentAlone oracle space ms ∧
      Interaction.PartOf
        ⟨space.scope.display, memberKeys ms,
          (diverging (singleSets ms) os).flatMap fun b => memberKeys b.members⟩
        ⟨space.scope.display, memberKeys ms,
          (divergentAlone oracle space ms).map fun f => Candidate.key f.1.1⟩ := by
  have hsub := diverging_trials_sublist h
  refine ⟨?_, rfl, rfl, ?_⟩
  · rw [← found_singles, Multiset.coe_add, Multiset.coe_le]
    exact ((List.Sublist.refl _).append (hsub.flatMap _)).subperm
  · rw [← keys_singles]
    exact hsub.flatMap _

theorem isTrial_halfSets {b : Branch α} (hb : b.IsSegment space) (hlarge : 2 ≤ b.members.length) :
    ∀ p ∈ trials space (halfSets b.members), space.IsTrial p := by
  intro p
  refine isTrial_of_mem_trials fun half hhalf => ?_
  exact ⟨ne_nil_of_mem_halfSets hlarge hhalf,
    (infix_of_mem_halfSets hhalf).sublist.trans hb.sublist⟩

theorem isTrial_singleSets {b : Branch α} (hb : b.IsSegment space) :
    ∀ p ∈ trials space (singleSets b.members), space.IsTrial p := by
  intro p
  refine isTrial_of_mem_trials fun set hset => ?_
  obtain ⟨m, hm, rfl⟩ := List.mem_map.mp hset
  exact ⟨List.cons_ne_nil _ _, (List.singleton_sublist.mpr hm).trans hb.sublist⟩

/-! ### Nothing but what the whole recursion finds -/

/-- What has been found and what the recursion will make of the queue are part of `full`. -/
structure Moment.Below (oracle : Partition → Outcome) (space : Space α) (full : Findings α)
    (m : Moment τ α) : Prop where
  found : (m.bag oracle space).1 ≤ (full.found : Multiset (Member α × Score))
  queued : (queueBag oracle space (failedAlone oracle space) m.queue).2.1 ≤
    (full.interactions : Multiset Interaction)
  interactions : ∀ i ∈ m.tally.interactions, ∃ j ∈ full.interactions, i.PartOf j

variable {bench : Bench τ} {inv fired : τ → Prop} {domain : Partition → Prop} {full : Findings α}
  {m m' : Moment τ α}

/-- A tally without a queue is part of it, too. -/
theorem Moment.Below.tally (h : m.Below oracle space full) :
    (m.tally.found : Multiset (Member α × Score)) ≤ full.found :=
  (Multiset.le_add_right _ _).trans h.found

theorem Moment.Below.of_bag_eq (h : m.Below oracle space full)
    (hbag : (m'.bag oracle space).1 = (m.bag oracle space).1)
    (hqueued : (queueBag oracle space (failedAlone oracle space) m'.queue).2.1 ≤
      (queueBag oracle space (failedAlone oracle space) m.queue).2.1)
    (hinteractions : m'.tally.interactions = m.tally.interactions) :
    m'.Below oracle space full where
  found := hbag ▸ h.found
  queued := hqueued.trans h.queued
  interactions := hinteractions ▸ h.interactions

/-- A turn keeps the world within `inv`, for it tries nothing but trials of the space. -/
theorem Turn.world (hb : bench.Interruptible inv fired domain oracle)
    (hdomain : ∀ p, space.IsTrial p → domain p) (hsegs : ∀ b ∈ m.queue, b.IsSegment space)
    (hs : inv m.world) (h : Turn bench space m m') : inv m'.world := by
  have tried {s s' : τ} {ps : List Partition} {os : List Outcome} (hs : inv s)
      (hps : ∀ p ∈ ps, space.IsTrial p) (he : bench.batch ps s = (os, s')) : inv s' :=
    hb.of_batch hs (fun p hp => hdomain p (hps p hp)) he
  cases h with
  | stop hstop => exact hb.of_cancelled hs hstop
  | emit hgo => exact hb.of_cancelled hs hgo
  | putBack hlarge hgo htry hstop =>
      have hhalves := isTrial_halfSets (hsegs _ List.mem_cons_self) hlarge
      exact hb.of_cancelled (tried (hb.of_cancelled hs hgo) hhalves htry) hstop
  | follow hlarge hgo htry hgo' _ =>
      have hhalves := isTrial_halfSets (hsegs _ List.mem_cons_self) hlarge
      exact hb.of_cancelled (tried (hb.of_cancelled hs hgo) hhalves htry) hgo'
  | isolate hlarge hgo htry hgo' _ _ halone =>
      have hseg := hsegs _ List.mem_cons_self
      have htried := tried (hb.of_cancelled hs hgo) (isTrial_halfSets hseg hlarge) htry
      exact tried (hb.of_cancelled htried hgo') (isTrial_singleSets hseg) halone

/-- The halves that diverge take the place of a set, with the issues of those that fail. -/
theorem Moment.Below.follow {b : Branch α} {rest : List (Branch α)} {t : Tally α}
    {tried tried' : List (Partition × Outcome)} {s s' : τ}
    (h : Moment.Below oracle space full ⟨b :: rest, t, tried, s⟩) (hlarge : 2 ≤ b.members.length)
    (hlead : diverging (halfSets b.members) ((trials space (halfSets b.members)).map oracle) ≠ [] ∨
      failures (trials space (halfSets b.members))
        ((trials space (halfSets b.members)).map oracle) ≠ []) :
    Moment.Below oracle space full
      ⟨rest ++ diverging (halfSets b.members) ((trials space (halfSets b.members)).map oracle),
        t.addIssues (failures (trials space (halfSets b.members))
          ((trials space (halfSets b.members)).map oracle)), tried', s'⟩ := by
  have hsolve : (solve oracle space (failedAlone oracle space) b.members b.score).bag = _ :=
    bag_solve_follow hlarge hlead
  refine h.of_bag_eq ?_ ?_ rfl
  · rw [Moment.bag, Moment.bag, bag_addIssues, queueBag_append, queueBag_cons, hsolve]
    congr 1
    abel
  · rw [queueBag_append, queueBag_cons, hsolve]
    simp only [Prod.snd_add, Prod.fst_add]
    rw [add_comm]
    exact add_le_add_left (Multiset.le_add_right _ _) _

/-- An interaction takes the place of a set. The single trials that were cut short are missing from
the findings. -/
theorem Moment.Below.isolate {b : Branch α} {rest : List (Branch α)} {t : Tally α}
    {tried tried' : List (Partition × Outcome)} {s s' : τ} {os : List Outcome} {cut : Prop}
    (h : Moment.Below oracle space full ⟨b :: rest, t, tried, s⟩)
    (hsolve : solve oracle space (failedAlone oracle space) b.members b.score =
      isolated oracle space (failedAlone oracle space) b.members)
    (hos : List.Forall₂ (fun p o => Outcome.Excused (oracle p) o cut)
      (trials space (singleSets b.members)) os) :
    Moment.Below oracle space full
      ⟨rest, t.isolate space.scope b.members (trials space (singleSets b.members)) os, tried',
        s'⟩ := by
  obtain ⟨hfound, hpart⟩ := isolate_partOf t hos
  have hqueued := h.queued
  rw [queueBag_cons, hsolve] at hqueued
  refine ⟨?_, (Multiset.le_add_left _ _).trans hqueued, fun i hi => ?_⟩
  · refine le_trans ?_ h.found
    rw [Moment.bag, Moment.bag, queueBag_cons, hsolve, ← add_assoc]
    exact add_le_add_left hfound _
  · rcases List.mem_append.mp hi with hi | hi
    · exact h.interactions i hi
    · obtain rfl := List.mem_singleton.mp hi
      refine ⟨_, ?_, hpart⟩
      exact Multiset.mem_of_le ((Multiset.le_add_right _ _).trans hqueued)
        (Multiset.mem_singleton_self _)

theorem Turn.below (hb : bench.Interruptible inv fired domain oracle)
    (hdomain : ∀ p, space.IsTrial p → domain p) (hsegs : ∀ b ∈ m.queue, b.IsSegment space)
    (hs : inv m.world) (hbelow : m.Below oracle space full) (h : Turn bench space m m') :
    m'.Below oracle space full := by
  cases h with
  | stop =>
      refine ⟨?_, Multiset.zero_le _, hbelow.interactions⟩
      rw [Moment.bag, queueBag_nil, add_zero]
      exact hbelow.tally
  | @emit c score rest t =>
      refine hbelow.of_bag_eq ?_ ?_ rfl
      · rw [Moment.bag, Moment.bag, bag_emit, queueBag_cons, solve_of_length_le (by simp),
          add_assoc]
        rfl
      · rw [queueBag_cons]
        exact Multiset.le_add_left _ _
  | putBack => exact ⟨hbelow.found, hbelow.queued, hbelow.interactions⟩
  | follow hlarge hgo htry hgo' hlead =>
      -- The look after the halves vouches for them, so the turn is one of an uninterrupted search.
      have hhalves := isTrial_halfSets (hsegs _ List.mem_cons_self) hlarge
      obtain rfl := hb.outcomes (hb.of_cancelled hs hgo) (fun p hp => hdomain p (hhalves p hp))
        htry hgo'
      exact hbelow.follow hlarge hlead
  | isolate hlarge hgo htry hgo' hsilent hfailed halone =>
      -- No look vouches for the single trials.
      have hseg := hsegs _ List.mem_cons_self
      have hhalves := fun p hp => hdomain p (isTrial_halfSets hseg hlarge p hp)
      have hs₃ := hb.of_cancelled (hb.of_batch (hb.of_cancelled hs hgo) hhalves htry) hgo'
      obtain rfl := hb.outcomes (hb.of_cancelled hs hgo) hhalves htry hgo'
      have hanswers := hb.answered hs₃ fun p hp => hdomain p (isTrial_singleSets hseg p hp)
      rw [halone] at hanswers
      exact hbelow.isolate (solve_isolate hlarge hsilent hfailed) hanswers

theorem Turns.below (hb : bench.Interruptible inv fired domain oracle)
    (hdomain : ∀ p, space.IsTrial p → domain p) (hm : m.Sound space fun _ => True)
    (hs : inv m.world) (hbelow : m.Below oracle space full) (h : Turns bench space m m') :
    m'.Below oracle space full := by
  have hkeeps : bench.Keeps fun _ => True := ⟨fun _ => trivial, fun _ _ => trivial⟩
  refine (Turns.keep (P := fun m₁ => inv m₁.world ∧ m₁.Below oracle space full) hkeeps hm h
    ⟨hs, hbelow⟩ ?_).2
  rintro m₁ m₂ ⟨-, hsegs⟩ hturn ⟨hs₁, hbelow₁⟩
  exact ⟨hturn.world hb hdomain hsegs hs₁, hturn.below hb hdomain hsegs hs₁ hbelow₁⟩

/-! ### The search -/

/-- However a search is interrupted, its suspects and interactions are among those that the
recursion finds. -/
theorem search_below (hkeys : (keys space).Nodup)
    (hb : bench.Interruptible inv fired domain oracle)
    (hdomain : ∀ p, space.IsTrial p → domain p) (whole : Score) {s : τ} (hs : inv s) :
    ∃ r s', (search bench space whole).runOn s = (.ok r, s') ∧
      r.suspects.Sublist (solve oracle space (failedAlone oracle space)
        space.candidates.zipIdx whole).suspects ∧
      ∀ i ∈ r.interactions, ∃ j ∈ (solve oracle space (failedAlone oracle space)
        space.candidates.zipIdx whole).interactions, i.PartOf j := by
  have hkeeps : bench.Keeps fun _ => True := ⟨fun _ => trivial, fun _ _ => trivial⟩
  obtain ⟨m, t, hturns, hends, hrun⟩ := exists_search whole hkeys hkeeps (s := s) trivial
  have hopening : (opening space whole s).Below oracle space
      (solve oracle space (failedAlone oracle space) space.candidates.zipIdx whole) := by
    have hbag : (opening space whole s).bag oracle space = _ := opening_bag whole s
    refine ⟨(congrArg Prod.fst hbag).le, ?_, by simp [opening, Tally.empty]⟩
    exact (Multiset.le_add_left _ _).trans (congrArg (·.2.1) hbag).le
  have hbelow := Turns.below hb hdomain (opening_sound space whole trivial) hs hopening hturns
  refine ⟨t.result, m.world, hrun, ?_, ?_⟩
  · rw [hends.suspects, Tally.result_suspects, Findings.suspects]
    exact (Tally.sorted_sublist hbelow.tally (solve_pairwise (List.Sublist.refl _) whole)).map _
  · rw [hends.interactions]
    exact hbelow.interactions

end Search

end Culprit
