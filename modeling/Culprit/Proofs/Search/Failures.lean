import Culprit.Proofs.Search.Frontier
import Culprit.Proofs.Session.Records

/-!
The failures of a search. Every failed trial becomes one issue, whoever asked for the trial and
however often. No failed trial tells a search anything else: its suspects, and the shares in its
interactions, come from trials that diverged, and it tries the members of a set alone only after
both halves of the set came out without a divergence.
-/

namespace Culprit

/-! ### Failures on record -/

/-- The kind and the detail of the issue that a failure becomes. -/
def Failure.noted (f : Failure) : IssueKind × String :=
  (.ofStage f.stage, f.detail)

/-- The failure that the issue reports. -/
def Issue.failure? (i : Issue) : Option (IssueKind × String) :=
  match i.kind with
  | .buildFailure | .runFailure => some (i.kind, i.detail)
  | _ => none

/-- The failure on record. -/
def Trial.failed? (t : Trial) : Option (IssueKind × String) :=
  t.failure?.map Failure.noted

/-- The failures that the issues report, in any order. -/
def surfaced (issues : List Issue) : Multiset (IssueKind × String) :=
  issues.filterMap Issue.failure?

/-- The failures among trials. -/
def failuresOf (answers : List (Partition × Outcome)) : Multiset (IssueKind × String) :=
  (notesOf answers).filterMap Trial.failed?

@[simp] theorem Issue.failure?_ofFailure (context : String) (f : Failure) :
    (ofFailure context f).failure? = some f.noted := by
  obtain ⟨stage, detail⟩ := f
  cases stage <;> rfl

@[simp] theorem surfaced_nil : surfaced [] = 0 := rfl

theorem surfaced_append (issues issues' : List Issue) :
    surfaced (issues ++ issues') = surfaced issues + surfaced issues' := by
  rw [surfaced, List.filterMap_append, ← Multiset.coe_add]
  rfl

@[simp] theorem failuresOf_nil : failuresOf [] = 0 := rfl

theorem failuresOf_append (answers answers' : List (Partition × Outcome)) :
    failuresOf (answers ++ answers') = failuresOf answers + failuresOf answers' := by
  rw [failuresOf, notesOf_append, Multiset.filterMap_add]
  rfl

namespace Search

/-- A batch of which every failure is an issue. -/
theorem surfaced_failures (ps : List Partition) (os : List Outcome) :
    surfaced (failures ps os) = failuresOf (ps.zip os) := by
  have hone : ∀ a : Partition × Outcome,
      (issue? a).bind Issue.failure? = (Trial.note a.1 a.2).failed? := by
    rintro ⟨p, f | s⟩
    · exact Issue.failure?_ofFailure p.describe f
    · rfl
  rw [surfaced, failures_eq_filterMap, List.filterMap_filterMap, failuresOf, notesOf,
    Multiset.filterMap_coe, List.filterMap_map]
  exact congrArg _ (List.filterMap_congr fun a _ => hone a)

end Search

/-! ### Interactions without failures -/

/-- Both halves of the set came out without a divergence, and the members with a share in the
divergence diverged alone. `known` tells of trials. -/
structure Interaction.Shown {α : Type} [Candidate α] (space : Space α)
    (known : Partition → Outcome → Prop) (i : Interaction) : Prop where
  scope : i.scope = space.scope.display
  first : ∃ s, known (space.bipartition (Search.halves i.members).1) (.ok s) ∧
    s.isDivergent = false
  second : ∃ s, known (space.bipartition (Search.halves i.members).2) (.ok s) ∧
    s.isDivergent = false
  attributed : ∀ k ∈ i.attributed, ∃ s, known (space.bipartition [k]) (.ok s) ∧
    s.isDivergent = true

theorem Interaction.Shown.mono {α : Type} [Candidate α] {space : Space α}
    {known known' : Partition → Outcome → Prop} {i : Interaction} (h : i.Shown space known)
    (hknown : ∀ p o, known p o → known' p o) : i.Shown space known' where
  scope := h.scope
  first := h.first.imp fun _ => And.imp_left (hknown _ _)
  second := h.second.imp fun _ => And.imp_left (hknown _ _)
  attributed k hk := (h.attributed k hk).imp fun _ => And.imp_left (hknown _ _)

/-- A bench that answers every trial. `fired` tells whether there was a request to stop, and `inv`
speaks of the world and of the trials so far. -/
structure Bench.Traced {τ : Type} (b : Bench τ) (fired : τ → Prop)
    (inv : List (Partition × Outcome) → τ → Prop) : Prop extends Keeps b fired where
  seen {s : τ} : (b.cancelled s).1 = true → fired (b.cancelled s).2
  answered (ps : List Partition) (s : τ) : (b.batch ps s).1.length = ps.length
  looked {answers : List (Partition × Outcome)} {s : τ} : inv answers s →
    inv answers (b.cancelled s).2
  tried {answers : List (Partition × Outcome)} {s : τ} (ps : List Partition) : inv answers s →
    inv (answers ++ ps.zip (b.batch ps s).1) (b.batch ps s).2

namespace Bench.Traced

variable {τ : Type} {b : Bench τ} {fired : τ → Prop} {inv : List (Partition × Outcome) → τ → Prop}
  {answers : List (Partition × Outcome)} {s s' : τ}

theorem of_look {stop : Bool} (hb : b.Traced fired inv) (hs : inv answers s)
    (he : b.cancelled s = (stop, s')) : inv answers s' := by
  have := hb.looked hs
  rwa [he] at this

theorem of_try {ps : List Partition} {os : List Outcome} (hb : b.Traced fired inv)
    (hs : inv answers s) (he : b.batch ps s = (os, s')) : inv (answers ++ ps.zip os) s' := by
  have := hb.tried ps hs
  rwa [he] at this

theorem of_stop (hb : b.Traced fired inv) (he : b.cancelled s = (true, s')) : fired s' := by
  have := hb.seen (s := s) (by rw [he])
  rwa [he] at this

theorem length_eq {ps : List Partition} {os : List Outcome} (hb : b.Traced fired inv)
    (he : b.batch ps s = (os, s')) : os.length = ps.length := by
  have := hb.answered ps s
  rwa [he] at this

end Bench.Traced

namespace Search

variable {α τ : Type} [Candidate α] {bench : Bench τ} {fired : τ → Prop}
  {inv : List (Partition × Outcome) → τ → Prop} {space : Space α} {m m' : Moment τ α}

/-! ### Turn by turn -/

theorem Turn.traced (hb : bench.Traced fired inv) (hm : inv m.tried m.world)
    (h : Turn bench space m m') : inv m'.tried m'.world := by
  cases h with
  | stop hstop => exact hb.of_look hm hstop
  | emit hgo => exact hb.of_look hm hgo
  | putBack _ hgo htry hstop => exact hb.of_look (hb.of_try (hb.of_look hm hgo) htry) hstop
  | follow _ hgo htry hgo' => exact hb.of_look (hb.of_try (hb.of_look hm hgo) htry) hgo'
  | isolate _ hgo htry hgo' _ _ halone =>
      exact hb.of_try (hb.of_look (hb.of_try (hb.of_look hm hgo) htry) hgo') halone

/-- A request to stop before the turn is one after it. -/
theorem Turn.asked (hb : bench.Keeps fired) (hm : fired m.world) (h : Turn bench space m m') :
    fired m'.world := by
  cases h with
  | stop hstop => exact hb.of_cancelled hm hstop
  | emit hgo => exact hb.of_cancelled hm hgo
  | putBack _ hgo htry hstop =>
      exact hb.of_cancelled (hb.of_batch (hb.of_cancelled hm hgo) htry) hstop
  | follow _ hgo htry hgo' =>
      exact hb.of_cancelled (hb.of_batch (hb.of_cancelled hm hgo) htry) hgo'
  | isolate _ hgo htry hgo' _ _ halone =>
      exact hb.of_batch (hb.of_cancelled (hb.of_batch (hb.of_cancelled hm hgo) htry) hgo') halone

/-- There was a request to stop, or every failed trial so far has its issue. -/
def Moment.Surfaces (fired : τ → Prop) (m : Moment τ α) : Prop :=
  fired m.world ∨ surfaced m.tally.issues = failuresOf m.tried

theorem surfaced_isolate (t : Tally α) (scope : Scope) (ms : List (Member α))
    (ps : List Partition) (os : List Outcome) :
    surfaced (t.isolate scope ms ps os).issues = surfaced t.issues + failuresOf (ps.zip os) := by
  show surfaced (t.issues ++ failures ps os ++ [_]) = _
  rw [surfaced_append, surfaced_append, surfaced_failures]
  exact add_zero _

theorem Turn.surfaces (hb : bench.Traced fired inv) (hm : m.Surfaces fired)
    (h : Turn bench space m m') : m'.Surfaces fired := by
  rcases hm with hfired | hm
  · exact .inl (h.asked hb.toKeeps hfired)
  cases h with
  | stop hstop => exact .inl (hb.of_stop hstop)
  | emit => exact .inr hm
  -- The failures of the halves are not reported here, but there was a request to stop.
  | putBack _ _ _ hstop => exact .inl (hb.of_stop hstop)
  | follow =>
      refine .inr ?_
      rw [failuresOf_append, ← hm, ← surfaced_failures, ← surfaced_append]
      rfl
  | @isolate b _ _ _ os _ _ _ _ _ _ _ _ _ _ _ hfailed =>
      refine .inr ?_
      have hhalves := surfaced_failures (trials space (halfSets b.members)) os
      rw [hfailed] at hhalves
      rw [surfaced_isolate, failuresOf_append, failuresOf_append, ← hhalves, ← hm]
      simp

/-- The trial of a set in a batch without divergence and without failure. -/
theorem exists_quiet {sets : List (List (Member α))} {os : List Outcome}
    (hlength : os.length = sets.length) (hsilent : diverging sets os = [])
    (hfailed : failures (trials space sets) os = []) {set : List (Member α)} (hset : set ∈ sets) :
    ∃ s, (space.bipartition (memberKeys set), .ok s) ∈ (trials space sets).zip os ∧
      s.isDivergent = false := by
  obtain ⟨o, hmem⟩ := exists_mem_zip hlength hset
  have htried : (space.bipartition (memberKeys set), o) ∈ (trials space sets).zip os := by
    rw [zip_trials]
    exact List.mem_map_of_mem hmem
  cases o with
  | error f =>
      have hissue := mem_failures.mpr ⟨_, f, htried, rfl⟩
      rw [hfailed] at hissue
      exact absurd hissue List.not_mem_nil
  | ok s =>
      refine ⟨s, htried, eq_false_of_ne_true fun hdiv => ?_⟩
      have hbranch : (⟨set, s⟩ : Branch α) ∈ diverging sets os := mem_diverging.mpr ⟨hmem, hdiv⟩
      rw [hsilent] at hbranch
      exact absurd hbranch List.not_mem_nil

theorem Turn.shown (hb : bench.Traced fired inv)
    (hm : ∀ i ∈ m.tally.interactions, i.Shown space fun p o => (p, o) ∈ m.tried)
    (h : Turn bench space m m') :
    ∀ i ∈ m'.tally.interactions, i.Shown space fun p o => (p, o) ∈ m'.tried := by
  have old (i : Interaction) (hi : i ∈ m.tally.interactions) :
      i.Shown space fun p o => (p, o) ∈ m'.tried :=
    (hm i hi).mono fun p o hmem => h.subset.tried hmem
  cases h with
  | stop => exact old
  | emit => exact old
  | putBack => exact old
  | follow => exact old
  | @isolate b _ _ tried os os' _ _ _ _ _ _ _ htry _ hsilent hfailed =>
      intro i hi
      rcases List.mem_append.mp hi with hi | hi
      · exact old i hi
      obtain rfl := List.mem_singleton.mp hi
      have hlength : os.length = (halfSets b.members).length := by
        rw [hb.length_eq htry, trials, List.length_map]
      have quiet (half : List (Member α)) (hhalf : half ∈ halfSets b.members) :
          ∃ s, (space.bipartition (memberKeys half), .ok s) ∈
            tried ++ (trials space (halfSets b.members)).zip os ++
              (trials space (singleSets b.members)).zip os' ∧ s.isDivergent = false :=
        (exists_quiet hlength hsilent hfailed hhalf).imp fun s => And.imp_left fun hmem =>
          List.mem_append_left _ (List.mem_append_right _ hmem)
      obtain ⟨hfirst, hsecond⟩ := memberKeys_halves b.members
      refine ⟨rfl, ?_, ?_, fun k hk => ?_⟩
      · rw [hfirst]
        exact quiet _ List.mem_cons_self
      · rw [hsecond]
        exact quiet _ (List.mem_cons_of_mem _ List.mem_cons_self)
      · obtain ⟨c, hc, hk⟩ := List.mem_flatMap.mp hk
        have hconfirmed : Confirmed space _ _ _ := confirmed_of_mem_diverging hc
        obtain ⟨hdiv, hmem⟩ := hconfirmed
        obtain ⟨n, -, hsingle⟩ := List.mem_map.mp (List.of_mem_zip (mem_diverging.mp hc).1).1
        obtain ⟨c, score⟩ := c
        obtain rfl : [n] = c := hsingle
        obtain rfl : k = Candidate.key n.1 := List.mem_singleton.mp hk
        exact ⟨score, List.mem_append_right _ hmem, hdiv⟩

/-! ### What a search makes of its trials -/

/-- What a search found follows from the trials that it made: each suspect diverged alone or is the
only candidate, no interaction comes from a failure, and unless there was a request to stop every
failure is reported once. -/
structure Founded (fired : τ → Prop) (space : Space α) (whole : Score)
    (answers : List (Partition × Outcome)) (found : SearchResult α) (s : τ) : Prop where
  sublist : (found.suspects.map (·.candidate)).Sublist space.candidates
  suspects : ∀ u ∈ found.suspects, (space.candidates = [u.candidate] ∧ u.score = whole) ∨
    (u.score.isDivergent = true ∧
      (space.bipartition [Candidate.key u.candidate], .ok u.score) ∈ answers)
  interactions : ∀ i ∈ found.interactions, i.Shown space fun p o => (p, o) ∈ answers
  issues : fired s ∨ surfaced found.issues = failuresOf answers

/-- Every search ends, and what it found follows from its trials. -/
theorem search_founded (whole : Score) {s : τ} (hkeys : (keys space).Nodup)
    (hb : bench.Traced fired inv) (hs : inv [] s) :
    ∃ found answers s', (search bench space whole).runOn s = (.ok found, s') ∧ inv answers s' ∧
      Founded fired space whole answers found s' := by
  have hkeeps : bench.Keeps fun _ => True := ⟨fun _ => trivial, fun _ _ => trivial⟩
  have hsound : (opening space whole s).Sound space fun _ => True :=
    opening_sound space whole trivial
  obtain ⟨m, t, hm, hends, hrun⟩ := exists_search whole hkeys hkeeps (s := s) trivial
  have hfrontier := Turns.frontier hkeeps hsound (opening_frontier space whole s) hm
  have htraced : inv m.tried m.world := Turns.keep
    (P := fun m => inv m.tried m.world) hkeeps hsound hm hs fun _ _ _ hturn => hturn.traced hb
  have hsurfaces : m.Surfaces fired := Turns.keep (P := Moment.Surfaces fired) hkeeps hsound hm
    (.inr rfl) fun _ _ _ hturn hm₁ => hturn.surfaces hb hm₁
  have hshown := Turns.keep
    (P := fun m => ∀ i ∈ m.tally.interactions, i.Shown space fun p o => (p, o) ∈ m.tried) hkeeps
    hsound hm (fun _ hi => absurd hi List.not_mem_nil) fun _ _ _ hturn hm₁ => hturn.shown hb hm₁
  refine ⟨t.result, m.tried, m.world, hrun, htraced, ?_, fun u hu => ?_, ?_, ?_⟩
  · rw [hends.suspects]
    exact hfrontier.suspects_sublist
  · rw [hends.suspects] at hu
    exact hfrontier.suspect_confirmed hu
  · rw [hends.interactions]
    exact hshown
  · cases hends with
    | done => exact hsurfaces
    | stopped hstop => exact .inl (hb.of_stop hstop)

end Search

end Culprit
