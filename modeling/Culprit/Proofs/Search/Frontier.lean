import Culprit.Proofs.Search.Turn

/-!
The frontier of a search. At every turn the branches of the queue are stretches of the candidates
that keep clear of one another and of what has been found, and each but the first was confirmed by
a trial of its own. So a suspect is a candidate that diverged alone, and no candidate is blamed
twice. Nothing is asked of the outcomes, and the request to stop may come at any time.

A batch is two halves, or the members of a set one at a time, and then the result has an
interaction of that set. So what batches of such a size keep, a search keeps.
-/

namespace Culprit.Search

variable {α τ : Type}

def Branch.positions (b : Branch α) : List Nat :=
  b.members.map Prod.snd

def Tally.positions (t : Tally α) : List Nat :=
  t.found.map fun f => f.1.2

/-- The positions that the loop has in its queue or among its findings. -/
def Moment.positions (m : Moment τ α) : List Nat :=
  m.queue.flatMap Branch.positions ++ m.tally.positions

/-! ### What the operations find -/

@[simp] theorem found_emit (t : Tally α) (m : Member α) (s : Score) :
    (t.emit m s).found = t.found ++ [(m, s)] := rfl

@[simp] theorem found_addIssues (t : Tally α) (is : List Issue) :
    (t.addIssues is).found = t.found := rfl

theorem positions_diverging_sublist (sets : List (List (Member α))) (os : List Outcome) :
    ((diverging sets os).flatMap Branch.positions).Sublist (sets.flatten.map Prod.snd) := by
  have h := (members_diverging_sublist sets os).map Prod.snd
  rwa [List.map_flatMap] at h

variable [Candidate α]

theorem mem_found_isolate {t : Tally α} {scope : Scope} {ms : List (Member α)}
    {ps : List Partition} {os : List Outcome} {f : Member α × Score} :
    f ∈ (t.isolate scope ms ps os).found ↔
      f ∈ t.found ∨ ⟨[f.1], f.2⟩ ∈ diverging (singleSets ms) os := by
  show f ∈ t.found ++ (diverging (singleSets ms) os).flatMap
    (fun b => b.members.map fun m => (m, b.score)) ↔ _
  rw [List.mem_append, List.mem_flatMap]
  refine or_congr_right ⟨?_, fun h => ⟨_, h, by simp⟩⟩
  rintro ⟨⟨members, score⟩, hb, hf⟩
  obtain ⟨m, -, rfl⟩ := List.mem_map.mp (List.of_mem_zip (mem_diverging.mp hb).1).1
  obtain rfl : f = (m, score) := by simpa using hf
  exact hb

theorem positions_isolate (t : Tally α) (scope : Scope) (ms : List (Member α))
    (ps : List Partition) (os : List Outcome) :
    (t.isolate scope ms ps os).positions =
      t.positions ++ (diverging (singleSets ms) os).flatMap Branch.positions := by
  simp only [Tally.positions, Tally.isolate, List.map_append, List.map_flatMap, List.map_map]
  rfl

/-! ### The invariant -/

/-- The score comes from a trial in which exactly `ms` was variant, and it is not zero. -/
def Confirmed (space : Space α) (tried : List (Partition × Outcome)) (ms : List (Member α))
    (s : Score) : Prop :=
  s.isDivergent = true ∧ (space.bipartition (memberKeys ms), .ok s) ∈ tried

/-- What holds of the queue and the findings at every turn. The segments of the queue are kept by
`Moment.Sound`. -/
structure Moment.Frontier (space : Space α) (whole : Score) (m : Moment τ α) : Prop where
  apart : m.positions.Nodup
  placed : ∀ f ∈ m.tally.found, f.1 ∈ space.candidates.zipIdx
  confirmed : ∀ b ∈ m.queue, b = ⟨space.candidates.zipIdx, whole⟩ ∨
    Confirmed space m.tried b.members b.score
  blamed : ∀ f ∈ m.tally.found, (space.candidates.zipIdx = [f.1] ∧ f.2 = whole) ∨
    Confirmed space m.tried [f.1] f.2

variable {bench : Bench τ} {space : Space α} {whole : Score} {inv : τ → Prop}
  {m m' : Moment τ α}

theorem Confirmed.mono {tried tried' : List (Partition × Outcome)} {ms : List (Member α)}
    {s : Score} (h : Confirmed space tried ms s) (hsub : tried ⊆ tried') :
    Confirmed space tried' ms s :=
  ⟨h.1, hsub h.2⟩

theorem confirmed_of_mem_diverging {sets : List (List (Member α))} {os : List Outcome}
    {b : Branch α} (hb : b ∈ diverging sets os) :
    Confirmed space ((trials space sets).zip os) b.members b.score := by
  obtain ⟨hmem, hdiv⟩ := mem_diverging.mp hb
  refine ⟨hdiv, ?_⟩
  rw [zip_trials]
  exact List.mem_map.mpr ⟨_, hmem, rfl⟩

/-! ### Preservation, one field at a time -/

/-- A turn claims no position that was not claimed before. -/
theorem Turn.positions_subperm (h : Turn bench space m m') :
    m'.positions.Subperm m.positions := by
  cases h with
  | stop => exact (List.sublist_append_right _ _).subperm
  | @emit c score rest t =>
      refine List.Perm.subperm ?_
      simp only [Moment.positions, Tally.positions, found_emit, List.flatMap_cons,
        Branch.positions, List.map_append, List.map_cons, List.map_nil, ← List.append_assoc]
      exact List.perm_append_singleton _ _
  | putBack => exact List.Subperm.refl _
  | @follow b rest t _ os =>
      -- The halves hold the positions of their branch, and those that diverge some of them.
      have hsub := positions_diverging_sublist (halfSets b.members) os
      rw [halfSets_flatten] at hsub
      simp only [Moment.positions, Tally.positions, found_addIssues, List.flatMap_append,
        List.flatMap_cons]
      refine (List.subperm_append_right _).mpr ?_
      exact List.perm_append_comm.subperm.trans
        ((List.subperm_append_right _).mpr hsub.subperm)
  | @isolate b rest t _ _ os =>
      have hsub := positions_diverging_sublist (singleSets b.members) os
      rw [singleSets_flatten] at hsub
      simp only [Moment.positions, positions_isolate, List.flatMap_cons, ← List.append_assoc]
      refine List.perm_append_comm.subperm.trans ?_
      rw [List.append_assoc]
      exact (List.subperm_append_right _).mpr hsub.subperm

theorem Turn.placed (hm : m.Sound space inv)
    (hp : ∀ f ∈ m.tally.found, f.1 ∈ space.candidates.zipIdx) (h : Turn bench space m m') :
    ∀ f ∈ m'.tally.found, f.1 ∈ space.candidates.zipIdx := by
  have head {b : Branch α} {rest : List (Branch α)} {c : Member α} (hq : m.queue = b :: rest)
      (hc : c ∈ b.members) : c ∈ space.candidates.zipIdx :=
    (hm.segments b (hq ▸ List.mem_cons_self)).sublist.subset hc
  intro f hf
  cases h with
  | stop => exact hp f hf
  | emit =>
      rcases List.mem_append.mp hf with hf | hf
      · exact hp f hf
      · obtain rfl := List.mem_singleton.mp hf
        exact head rfl List.mem_cons_self
  | putBack => exact hp f hf
  | follow => exact hp f hf
  | isolate =>
      rcases mem_found_isolate.mp hf with hf | hf
      · exact hp f hf
      · have := (List.of_mem_zip (mem_diverging.mp hf).1).1
        exact head rfl (by simpa [singleSets] using this)

theorem Turn.confirmed (hc : ∀ b ∈ m.queue, b = ⟨space.candidates.zipIdx, whole⟩ ∨
      Confirmed space m.tried b.members b.score) (h : Turn bench space m m') :
    ∀ b ∈ m'.queue, b = ⟨space.candidates.zipIdx, whole⟩ ∨
      Confirmed space m'.tried b.members b.score := by
  have old (b : Branch α) (hb : b ∈ m.queue) :
      b = ⟨space.candidates.zipIdx, whole⟩ ∨ Confirmed space m'.tried b.members b.score :=
    (hc b hb).imp_right fun hconf => hconf.mono h.subset.tried
  intro b hb
  cases h with
  | stop => exact absurd hb List.not_mem_nil
  | emit => exact old b (List.mem_cons_of_mem _ hb)
  | putBack => exact old b hb
  | follow =>
      rcases List.mem_append.mp hb with hb | hb
      · exact old b (List.mem_cons_of_mem _ hb)
      · exact .inr ((confirmed_of_mem_diverging hb).mono (List.subset_append_right _ _))
  | isolate => exact old b (List.mem_cons_of_mem _ hb)

theorem Turn.blamed (hm : m.Frontier space whole) (h : Turn bench space m m') :
    ∀ f ∈ m'.tally.found, (space.candidates.zipIdx = [f.1] ∧ f.2 = whole) ∨
      Confirmed space m'.tried [f.1] f.2 := by
  have old (f : Member α × Score) (hf : f ∈ m.tally.found) :
      (space.candidates.zipIdx = [f.1] ∧ f.2 = whole) ∨ Confirmed space m'.tried [f.1] f.2 :=
    (hm.blamed f hf).imp_right fun hconf => hconf.mono h.subset.tried
  intro f hf
  cases h with
  | stop => exact old f hf
  | emit =>
      rcases List.mem_append.mp hf with hf | hf
      · exact old f hf
      · obtain rfl := List.mem_singleton.mp hf
        refine (hm.confirmed _ List.mem_cons_self).imp_left fun hfirst => ?_
        injection hfirst with hmembers hscore
        exact ⟨hmembers.symm, hscore⟩
  | putBack => exact old f hf
  | follow => exact old f hf
  | isolate =>
      rcases mem_found_isolate.mp hf with hf | hf
      · exact old f hf
      · exact .inr ((confirmed_of_mem_diverging hf).mono (List.subset_append_right _ _))

theorem opening_frontier (space : Space α) (whole : Score) (s : τ) :
    (opening space whole s).Frontier space whole := by
  refine ⟨?_, by simp [opening, Tally.empty], fun b hb => ?_, by simp [opening, Tally.empty]⟩
  · by_cases hnone : space.candidates.isEmpty
    · simp [Moment.positions, Tally.positions, opening, Tally.empty, hnone]
    · simpa [Moment.positions, Tally.positions, Branch.positions, opening, Tally.empty, hnone,
        List.zipIdx_map_snd] using List.nodup_range'
  · by_cases hnone : space.candidates.isEmpty
    · simp [opening, hnone] at hb
    · exact .inl (by simpa [opening, hnone] using hb)

theorem Turns.frontier (hb : bench.Keeps inv) (hm : m.Sound space inv)
    (hf : m.Frontier space whole) (h : Turns bench space m m') : m'.Frontier space whole := by
  refine Turns.keep (P := fun m₁ => m₁.Frontier space whole) hb hm h hf ?_
  intro m₁ m₂ hm₁ hturn hf₁
  obtain ⟨_, hperm, hsub⟩ := hturn.positions_subperm
  exact {
    apart := hperm.nodup_iff.mp (hf₁.apart.sublist hsub)
    placed := hturn.placed hm₁ hf₁.placed
    confirmed := hturn.confirmed hf₁.confirmed
    blamed := hturn.blamed hf₁ }

/-! ### What the invariant says of a search -/

theorem Moment.Frontier.suspects_sublist (h : m.Frontier space whole) :
    (m.tally.result.suspects.map (·.candidate)).Sublist space.candidates := by
  have hnodup : (m.tally.found.map fun f => f.1.2).Nodup :=
    h.apart.sublist (List.sublist_append_right _ _)
  have hpairwise : (m.tally.sorted.map Prod.fst).Pairwise fun a b => a.2 < b.2 :=
    List.pairwise_map.mpr (Tally.sorted_pairwise hnodup)
  have hsub : m.tally.sorted.map Prod.fst ⊆ space.candidates.zipIdx := by
    intro c hc
    obtain ⟨f, hf, rfl⟩ := List.mem_map.mp hc
    exact h.placed f (Tally.mem_sorted.mp hf)
  have hsublist := sublist_of_pairwise hsub hpairwise
  rw [List.map_map] at hsublist
  rw [Tally.result_suspects, List.map_map]
  exact hsublist

theorem Moment.Frontier.suspect_confirmed (h : m.Frontier space whole) {x : Suspect α}
    (hx : x ∈ m.tally.result.suspects) :
    (space.candidates = [x.candidate] ∧ x.score = whole) ∨
      (x.score.isDivergent = true ∧
        (space.bipartition [Candidate.key x.candidate], .ok x.score) ∈ m.tried) := by
  obtain ⟨f, hf, rfl⟩ := List.mem_map.mp hx
  refine (h.blamed f (Tally.mem_sorted.mp hf)).imp_left fun ⟨hzip, hscore⟩ => ⟨?_, hscore⟩
  rw [← List.zipIdx_map_fst 0 space.candidates, hzip]
  rfl

/-- At every turn of a search the queue holds stretches of the candidates, apart from one another
and from what has been found, each but the first confirmed by a trial of exactly its members. So
the suspects ascend among the candidates, and each has the score of a trial in which it alone was
variant, unless it is the only candidate and has the score of the whole. -/
theorem search_frontier (bench : Bench τ) (space : Space α) (whole : Score) (s : τ)
    (hkeys : (keys space).Nodup) (hb : bench.Latched inv) (hs : inv s) :
    (∀ m, Turns bench space (opening space whole s) m →
      (∀ b ∈ m.queue, ∃ start len, 0 < len ∧ start + len ≤ space.candidates.length ∧
        b.members = (space.candidates.zipIdx.drop start).take len) ∧
      m.queue.Pairwise (fun b c => b.positions.Disjoint c.positions) ∧
      (∀ b ∈ m.queue, b.positions.Disjoint m.tally.positions) ∧
      (∀ b ∈ m.queue, b = ⟨space.candidates.zipIdx, whole⟩ ∨
        (b.score.isDivergent = true ∧
          (space.bipartition (memberKeys b.members), .ok b.score) ∈ m.tried))) ∧
    ∃ m, Turns bench space (opening space whole s) m ∧ m.queue = [] ∧
      ((search bench space whole).runOn s).1 = .ok m.tally.result ∧
      (m.tally.result.suspects.map (·.candidate)).Sublist space.candidates ∧
      (m.tally.result.suspects.map fun x => Candidate.key x.candidate).Nodup ∧
      ∀ x ∈ m.tally.result.suspects,
        (whole.isDivergent = true → x.score.isDivergent = true) ∧
        ((space.candidates = [x.candidate] ∧ x.score = whole) ∨
          (x.score.isDivergent = true ∧
            (space.bipartition [Candidate.key x.candidate], .ok x.score) ∈ m.tried)) := by
  have hsound := opening_sound space whole hs
  have hopening := opening_frontier space whole s
  refine ⟨fun m hm => ?_, ?_⟩
  -- At any moment the invariant says it; at the last one it says it of the result.
  · have hfrontier := Turns.frontier hb.toKeeps hsound hopening hm
    obtain ⟨hqueue, -, hfound⟩ := List.nodup_append'.mp hfrontier.apart
    refine ⟨fun b hbm => ((Turns.sound hb.toKeeps hsound hm).segments b hbm).exists_range,
      (List.nodup_flatMap.mp hqueue).2, fun b hbm p hp => ?_, hfrontier.confirmed⟩
    exact hfound (List.mem_flatMap.mpr ⟨b, hbm, hp⟩)
  · obtain ⟨m, hm, hend⟩ := exists_turns hb hsound
    have hfrontier := Turns.frontier hb.toKeeps hsound hopening hm
    have hresult : ((search bench space whole).runOn s).1 = .ok m.tally.result := by
      rw [runOn_search, Turns.finish_fst_eq hkeys hb hsound hm, finish_of_queue_nil hend]
      rfl
    have hsub := hfrontier.suspects_sublist
    refine ⟨m, hm, hend, hresult, hsub, ?_, fun x hx => ?_⟩
    · have := hsub.map Candidate.key
      rw [List.map_map] at this
      exact hkeys.sublist this
    · have hx := hfrontier.suspect_confirmed hx
      refine ⟨fun hwhole => ?_, hx⟩
      rcases hx with ⟨-, rfl⟩ | ⟨hdiv, -⟩
      · exact hwhole
      · exact hdiv

/-- A search that is stopped when it has found one file of three has kept its branches apart. -/
theorem search_frontier_stopped :
    (keys threeUnits).Nodup ∧
      (∀ m, Turns (Bench.stopAfter (fun _ => .ok ⟨1⟩)) threeUnits (opening threeUnits ⟨1⟩ 5) m →
        m.queue.Pairwise fun b c => b.positions.Disjoint c.positions) ∧
      ∃ r, ((search (Bench.stopAfter (fun _ => .ok ⟨1⟩)) threeUnits ⟨1⟩).runOn 5).1 = .ok r ∧
        (r.suspects.map (·.candidate)).Sublist threeUnits.candidates := by
  have hkeys : (keys threeUnits).Nodup := by decide
  obtain ⟨hturns, m, -, -, hrun, hsub, -⟩ := search_frontier
    (Bench.stopAfter fun _ => .ok ⟨1⟩) threeUnits ⟨1⟩ 5 hkeys
    (Bench.stopAfter_latched fun _ => .ok ⟨1⟩) trivial
  exact ⟨hkeys, fun m hm => (hturns m hm).2.1, m.tally.result, hrun, hsub⟩

end Culprit.Search

namespace Culprit

variable {τ : Type}

/-- What a look at the request to stop keeps, and every batch of at most `room` partitions. -/
structure Bench.Admits (b : Bench τ) (room : Nat) (inv : τ → Prop) : Prop where
  cancelled {s : τ} : inv s → inv (b.cancelled s).2
  batch {s : τ} {ps : List Partition} : ps.length ≤ room → inv s → inv (b.batch ps s).2
  answered (ps : List Partition) (s : τ) : (b.batch ps s).1.length = ps.length

/-- No set whose members were tried one at a time has more than `room`. -/
def Interaction.Fit (room : Nat) (is : List Interaction) : Prop :=
  ∀ i ∈ is, i.members.length ≤ room

theorem Interaction.Fit.mono {room : Nat} {is is' : List Interaction} (h : Fit room is')
    (hsub : is ⊆ is') : Fit room is :=
  fun i hi => h i (hsub hi)

namespace Search

variable {α : Type} [Candidate α] {bench : Bench τ} {space : Space α} {room : Nat}
  {inv : τ → Prop} {m m' : Moment τ α} {s : τ}

theorem length_trials (sets : List (List (Member α))) :
    (trials space sets).length = sets.length :=
  List.length_map _

theorem Turn.admits (hb : bench.Admits room inv) (hroom : 2 ≤ room) (h : Turn bench space m m')
    (hm : Interaction.Fit room m.tally.interactions → inv m.world)
    (hfit : Interaction.Fit room m'.tally.interactions) : inv m'.world := by
  have hnow := hm (hfit.mono h.subset.interactions)
  have hlook {stop : Bool} {s s' : τ} (hs : inv s) (he : bench.cancelled s = (stop, s')) :
      inv s' := by
    have := hb.cancelled hs
    rwa [he] at this
  have htried {sets : List (List (Member α))} {os : List Outcome} {s s' : τ}
      (hs : inv s) (he : bench.batch (trials space sets) s = (os, s'))
      (hlength : sets.length ≤ room) : inv s' := by
    have hsmall : (trials space sets).length ≤ room := by rwa [length_trials]
    have := hb.batch hsmall hs
    rwa [he] at this
  cases h with
  | stop hstop => exact hlook hnow hstop
  | emit hgo => exact hlook hnow hgo
  | putBack _ hgo htry hstop => exact hlook (htried (hlook hnow hgo) htry hroom) hstop
  | follow _ hgo htry hgo' _ => exact hlook (htried (hlook hnow hgo) htry hroom) hgo'
  | @isolate b _ _ _ _ _ _ _ _ _ _ _ hgo htry hgo' _ _ halone =>
      have hset : (memberKeys b.members).length ≤ room :=
        hfit _ (List.mem_append_right _ List.mem_cons_self)
      refine htried (hlook (htried (hlook hnow hgo) htry hroom) hgo') halone ?_
      rwa [singleSets, List.length_map, ← List.length_map (fun m => Candidate.key m.1)]

/-- A search comes to a result, whatever its trials come to. -/
theorem exists_search_admits (hb : bench.Admits room inv) (hroom : 2 ≤ room)
    (hkeys : (keys space).Nodup) (whole : Score) (s : τ) :
    ∃ found s', (search bench space whole).runOn s = (.ok found, s') ∧
      (found.suspects.map (·.candidate)).Sublist space.candidates ∧
      (Interaction.Fit room found.interactions → inv s → inv s') := by
  have hkeeps : bench.Keeps fun _ => True := ⟨fun _ => trivial, fun _ _ => trivial⟩
  have hsound : (opening space whole s).Sound space fun _ => True :=
    opening_sound space whole trivial
  obtain ⟨m, t, hturns, hends, hsearch⟩ := exists_search whole hkeys hkeeps (s := s) trivial
  refine ⟨t.result, m.world, hsearch, ?_, fun hfit hs => ?_⟩
  · rw [hends.suspects]
    exact (Turns.frontier hkeeps hsound (opening_frontier space whole s) hturns).suspects_sublist
  · rw [hends.interactions] at hfit
    exact Turns.keep (P := fun m => Interaction.Fit room m.tally.interactions → inv m.world) hkeeps
      hsound hturns (fun _ => hs) (fun _ _ _ hturn hm => hturn.admits hb hroom hm) hfit

/-- A trial of its own comes to an outcome. -/
theorem exists_trial_admits (hb : bench.Admits room inv) (hroom : 1 ≤ room)
    (hkeys : (keys space).Nodup) {V : List String} (hsub : V.Sublist (keys space)) (s : τ) :
    ∃ o s', Attempt.runOn (Attempt.of (Partition.of space.scope (keys space) V) >>= fun p =>
        ExceptT.lift (bench.trial p)) s = (.ok o, s') ∧ (inv s → inv s') := by
  obtain ⟨o, s', htry, hrun⟩ := exists_trial hb.answered hkeys hsub s
  refine ⟨o, s', hrun, fun hs => ?_⟩
  have hone : [space.bipartition V].length ≤ room := hroom
  have := hb.batch hone hs
  rwa [htry] at this

theorem exists_confirm_admits (hb : bench.Admits room inv) (hroom : 1 ≤ room)
    (hkeys : (keys space).Nodup) (s : τ) :
    ∃ o s', (confirm bench space).runOn s = (.ok o, s') ∧ (inv s → inv s') := by
  rw [confirm, partition, memberKeys_zipIdx]
  exact exists_trial_admits hb hroom hkeys (List.Sublist.refl _) s

end Search

end Culprit
