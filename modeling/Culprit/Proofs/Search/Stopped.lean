import Culprit.Proofs.Search.Frontier

/-!
A search that may be asked to stop. The search looks for a request before each batch of halves and
after it, and not at any other batch. As long as no request comes during such another batch, the
search starts no batch after the request, it reports the request, and what it reports about trials
comes from trials that were over before the request.
-/

namespace Culprit

/-- The trials and the listings that a report may speak of. -/
structure Evidence where
  tried : Partition → Outcome → Prop
  listed : SourceUnit → Except Error (List LinkSymbol) → Prop

/-- A failure is reported of a trial, and that there are no symbols of a listing. -/
def Issue.Grounded (ev : Evidence) (i : Issue) : Prop :=
  match i.kind with
  | .buildFailure | .runFailure =>
      ∃ p f context, ev.tried p (.error f) ∧ i = .ofFailure context f
  | .noSymbols => ∃ u, i.context = "symbols of " ++ u.path ∧
      (ev.listed u (.ok []) ∧ i.detail = "no global function symbols" ∨
        ∃ fault, ev.listed u (.error fault) ∧ i.detail = fault.message)
  | _ => True

/-- A member without a share in the divergence was tried alone and did not diverge. -/
def Interaction.Grounded (ev : Evidence) (i : Interaction) : Prop :=
  ∀ k ∈ i.unattributed, ∃ p o, ev.tried p o ∧ p.scope.display = i.scope ∧ p.variant = [k] ∧
    ∀ s, o = .ok s → s.isDivergent = false

namespace Evidence

/-- There is evidence for everything that is reported. -/
structure Covers (ev : Evidence) (issues : List Issue) (interactions : List Interaction) :
    Prop where
  issues : ∀ i ∈ issues, i.Grounded ev
  interactions : ∀ i ∈ interactions, i.Grounded ev

variable {ev : Evidence} {issues issues' : List Issue}
  {interactions interactions' : List Interaction}

theorem covers_nil : ev.Covers [] [] :=
  ⟨fun _ hi => absurd hi List.not_mem_nil, fun _ hi => absurd hi List.not_mem_nil⟩

theorem Covers.append (h : ev.Covers issues interactions)
    (h' : ev.Covers issues' interactions') :
    ev.Covers (issues ++ issues') (interactions ++ interactions') where
  issues := fun i hi => (List.mem_append.mp hi).elim (h.issues i) (h'.issues i)
  interactions := fun i hi =>
    (List.mem_append.mp hi).elim (h.interactions i) (h'.interactions i)

theorem Covers.addIssue {i : Issue} (h : ev.Covers issues interactions) (hi : i.Grounded ev) :
    ev.Covers (issues ++ [i]) interactions := by
  have h' : ev.Covers [i] [] := ⟨by simpa using hi, fun _ hi => absurd hi List.not_mem_nil⟩
  simpa using h.append h'

theorem grounded_ofFailure {p : Partition} {f : Failure} (h : ev.tried p (.error f))
    (context : String) : (Issue.ofFailure context f).Grounded ev := by
  obtain ⟨stage, detail⟩ := f
  cases stage <;> exact ⟨p, _, context, h, rfl⟩

end Evidence

/-- What is reported in the state `s`: a request to stop if there was one, and nothing without
evidence. -/
structure Candid {τ : Type} (fired inv : τ → Prop) (ev : Evidence) (issues : List Issue)
    (interactions : List Interaction) (s : τ) : Prop where
  world : inv s
  told : fired s → ∃ i ∈ issues, i.kind = .cancelled
  covers : ev.Covers issues interactions

/-- The batches without a look after them: the trial of the whole, and the trials of single members
of a set, which follow those of its halves. -/
inductive Space.Unwatched {α : Type} [Candidate α] (space : Space α) (known : Partition → Prop) :
    List Partition → Prop
  | whole : Unwatched space known [space.bipartition (Search.keys space)]
  | singles {ms : List (Search.Member α)} (hms : ms.Sublist space.candidates.zipIdx)
      (hlarge : 2 ≤ ms.length)
      (hhalves : ∀ p ∈ Search.trials space (Search.halfSets ms), known p) :
      Unwatched space known (Search.trials space (Search.singleSets ms))

theorem Space.Unwatched.few {α : Type} [Candidate α] {space : Space α} {known : Partition → Prop}
    {ps : List Partition} (h : space.Unwatched known ps) :
    ∀ p ∈ ps, p.trusted = [] ∨ p.variant.length = 1 := by
  intro p hp
  cases h with
  | whole =>
      obtain rfl := List.mem_singleton.mp hp
      exact .inl (by simp [Space.bipartition])
  | singles hms hlarge hhalves =>
      obtain ⟨_, hset, rfl⟩ := List.mem_map.mp hp
      obtain ⟨m, -, rfl⟩ := List.mem_map.mp hset
      exact .inr rfl

namespace Bench

variable {τ : Type}

/-- A bench with requests to stop. `fired` tells whether there was one, and `known` what is
remembered. Batches that were over before a request are evidence. -/
structure Watched (b : Bench τ) (fired inv : τ → Prop) (known : τ → Partition → Prop)
    (ev : Evidence) : Prop where
  looked {s : τ} : inv s → inv (b.cancelled s).2
  seen {s : τ} : (b.cancelled s).1 = true ↔ fired (b.cancelled s).2
  latched {s : τ} : fired s → fired (b.cancelled s).2
  recalls {s : τ} {p : Partition} : known s p → known (b.cancelled s).2 p
  tried {s : τ} (ps : List Partition) : inv s → ¬fired s → inv (b.batch ps s).2
  answered (ps : List Partition) (s : τ) : (b.batch ps s).1.length = ps.length
  remembers {s : τ} {ps : List Partition} : ¬fired (b.batch ps s).2 →
    ∀ p ∈ ps, known (b.batch ps s).2 p
  evidence {s : τ} {ps : List Partition} {p : Partition} {o : Outcome} : inv s → ¬fired s →
    ¬fired (b.batch ps s).2 → (p, o) ∈ ps.zip (b.batch ps s).1 → ev.tried p o

/-- No request to stop comes during a batch without a look after it, or, where the suspects are
tried together, between the first of them and that trial. -/
structure Calm {α : Type} [Candidate α] (b : Bench τ) (fired inv : τ → Prop)
    (known : τ → Partition → Prop) (verifies : Bool) (space : Space α) : Prop where
  unwatched {s : τ} {ps : List Partition} : inv s → ¬fired s → space.Unwatched (known s) ps →
    ¬fired (b.batch ps s).2
  verified {whole : Score} {s s' : τ} {found : SearchResult α} : verifies = true → inv s →
    ¬fired s → (Search.search b space whole).runOn s = (.ok found, s') → found.suspects ≠ [] →
    ¬fired s' ∧
      ¬fired (b.batch [space.bipartition (keysOf (found.suspects.map (·.candidate)))] s').2

variable {b : Bench τ} {fired inv : τ → Prop} {known : τ → Partition → Prop} {ev : Evidence}

/-- After a look that finds no request there was none so far. -/
theorem Watched.going (hb : b.Watched fired inv known ev) {s s' : τ}
    (hgo : b.cancelled s = (false, s')) : ¬fired s' ∧ ¬fired s := by
  have hseen := hb.seen (s := s)
  have hlatched := hb.latched (s := s)
  rw [hgo] at hseen hlatched
  have hgoing : ¬fired s' := fun hfired => absurd (hseen.mpr hfired) Bool.false_ne_true
  exact ⟨hgoing, fun hfired => hgoing (hlatched hfired)⟩

theorem Watched.of_cancelled (hb : b.Watched fired inv known ev) {s s' : τ} {stop : Bool}
    (hs : inv s) (hlook : b.cancelled s = (stop, s')) : inv s' := by
  have hinv := hb.looked hs
  rwa [hlook] at hinv

theorem Watched.toLatched (hb : b.Watched fired inv known ev) : b.Latched fun _ => True where
  cancelled _ := trivial
  batch _ _ := trivial
  latched _ hstop := hb.seen.mpr (hb.latched (hb.seen.mp hstop))

/-- What a batch that starts before any request leaves. -/
theorem Watched.of_batch (hb : b.Watched fired inv known ev) {s s' : τ} {ps : List Partition}
    {os : List Outcome} (hs : inv s) (hgoing : ¬fired s) (htry : b.batch ps s = (os, s')) :
    inv s' ∧ os.length = ps.length ∧
      (¬fired s' → (∀ p ∈ ps, known s' p) ∧ ∀ p o, (p, o) ∈ ps.zip os → ev.tried p o) := by
  have hinv := hb.tried ps hs hgoing
  have hlength := hb.answered ps s
  have hremembers : ¬fired (b.batch ps s).2 → ∀ p ∈ ps, known (b.batch ps s).2 p := hb.remembers
  have hevidence (p : Partition) (o : Outcome) : ¬fired (b.batch ps s).2 →
      (p, o) ∈ ps.zip (b.batch ps s).1 → ev.tried p o := hb.evidence hs hgoing
  rw [htry] at hinv hlength hremembers
  simp only [htry] at hevidence
  exact ⟨hinv, hlength, fun hgoing' => ⟨hremembers hgoing', fun p o => hevidence p o hgoing'⟩⟩

end Bench

namespace Search

variable {α τ : Type} {b : Bench τ} {fired inv : τ → Prop} {known : τ → Partition → Prop}
  {ev : Evidence}

theorem candid_stop {t : Tally α} {s : τ} (scope : Scope) (left : Nat) (hs : inv s)
    (ht : ev.Covers t.issues t.interactions) :
    Candid fired inv ev (t.stop scope left).issues (t.stop scope left).interactions s where
  world := hs
  told := fun _ => ⟨_, List.mem_append_right _ List.mem_cons_self, rfl⟩
  covers := ht.addIssue trivial

variable [Candidate α] {space : Space α} {verifies : Bool}

theorem covers_failures {ps : List Partition} {os : List Outcome}
    (h : ∀ p o, (p, o) ∈ ps.zip os → ev.tried p o) : ev.Covers (failures ps os) [] := by
  refine ⟨fun i hi => ?_, fun _ hi => absurd hi List.not_mem_nil⟩
  obtain ⟨p, f, hmem, rfl⟩ := mem_failures.mp hi
  exact Evidence.grounded_ofFailure (h p _ hmem) _

/-- Every member of a set is tried alone, and those that diverge have a share. -/
theorem covers_isolate {t : Tally α} {ms : List (Member α)} {os : List Outcome}
    (hlength : os.length = ms.length)
    (h : ∀ p o, (p, o) ∈ (trials space (singleSets ms)).zip os → ev.tried p o)
    (ht : ev.Covers t.issues t.interactions) :
    ev.Covers (t.isolate space.scope ms (trials space (singleSets ms)) os).issues
      (t.isolate space.scope ms (trials space (singleSets ms)) os).interactions := by
  have hfailed := (ht.append (covers_failures h)).addIssue
    (i := interactionIssue space.scope (memberKeys ms)
      ((diverging (singleSets ms) os).flatMap fun b => memberKeys b.members)) trivial
  rw [List.append_nil] at hfailed
  refine ⟨hfailed.issues, fun i hi => (List.mem_append.mp hi).elim (ht.interactions i) ?_⟩
  intro hi k hk
  obtain rfl := List.mem_singleton.mp hi
  obtain ⟨hmember, hunattributed⟩ := List.mem_filter.mp hk
  obtain ⟨m, hm, rfl⟩ := List.mem_map.mp hmember
  obtain ⟨o, ho⟩ := exists_mem_zip (l := singleSets ms) (r := os)
    (by rw [hlength, singleSets, List.length_map]) (List.mem_map_of_mem hm)
  have htried : (space.bipartition (memberKeys [m]), o) ∈
      (trials space (singleSets ms)).zip os := by
    rw [zip_trials]
    exact List.mem_map_of_mem ho
  refine ⟨_, o, h _ _ htried, rfl, rfl, fun s hs => ?_⟩
  subst hs
  by_contra hdiv
  -- Had it diverged alone, it would have its share.
  have hbranch : (⟨[m], s⟩ : Branch α) ∈ diverging (singleSets ms) os :=
    mem_diverging.mpr ⟨ho, by simpa using hdiv⟩
  refine absurd ?_ (of_decide_eq_true hunattributed)
  exact List.mem_flatMap.mpr ⟨_, hbranch, List.mem_singleton.mpr rfl⟩

/-- What is reported while a search is under way. A request that is not reported yet is one that the
loop, with branches left, has just seen. -/
structure Moment.Candid (fired inv : τ → Prop) (ev : Evidence) (m : Moment τ α) : Prop where
  world : inv m.world
  covers : ev.Covers m.tally.issues m.tally.interactions
  told : fired m.world → m.queue ≠ [] ∨ ∃ i ∈ m.tally.issues, i.kind = .cancelled

variable {m m' : Moment τ α}

/-- A turn starts no batch after a request. -/
theorem Turn.candid (hb : b.Watched fired inv known ev)
    (hcalm : b.Calm fired inv known verifies space) (hsegs : ∀ c ∈ m.queue, c.IsSegment space)
    (hm : m.Candid fired inv ev) (h : Turn b space m m') : m'.Candid fired inv ev := by
  cases h with
  | stop hstop =>
      exact ⟨hb.of_cancelled hm.world hstop, hm.covers.addIssue trivial,
        fun _ => .inr ⟨_, List.mem_append_right _ List.mem_cons_self, rfl⟩⟩
  | emit hgo =>
      exact ⟨hb.of_cancelled hm.world hgo, hm.covers,
        fun hfired => absurd hfired (hb.going hgo).1⟩
  | putBack hlarge hgo htry hstop =>
      obtain ⟨htried, -⟩ := hb.of_batch (hb.of_cancelled hm.world hgo) (hb.going hgo).1 htry
      exact ⟨hb.of_cancelled htried hstop, hm.covers, fun _ => .inl (List.cons_ne_nil _ _)⟩
  | follow hlarge hgo htry hgo' hlead =>
      obtain ⟨htried, -, hover⟩ :=
        hb.of_batch (hb.of_cancelled hm.world hgo) (hb.going hgo).1 htry
      obtain ⟨hgoing', hgoing⟩ := hb.going hgo'
      have hcovers := hm.covers.append (covers_failures (hover hgoing).2)
      rw [List.append_nil] at hcovers
      exact ⟨hb.of_cancelled htried hgo', hcovers, fun hfired => absurd hfired hgoing'⟩
  | @isolate c _ _ _ os os' _ s₁ s₂ s₃ _ hlarge hgo htry hgo' hsilent hfailed halone =>
      obtain ⟨htried, -, hover⟩ :=
        hb.of_batch (hb.of_cancelled hm.world hgo) (hb.going hgo).1 htry
      obtain ⟨hgoing', hgoing⟩ := hb.going hgo'
      have hs₃ := hb.of_cancelled htried hgo'
      have hhalves : ∀ p ∈ trials space (halfSets c.members), known s₃ p := by
        intro p hp
        have hrecalls := hb.recalls ((hover hgoing).1 p hp)
        rwa [hgo'] at hrecalls
      -- No look follows the trials of single members, so here `hcalm` is needed.
      have hsub := (hsegs c List.mem_cons_self).sublist
      have hgoing₄ := hcalm.unwatched hs₃ hgoing' (.singles hsub hlarge hhalves)
      rw [halone] at hgoing₄
      obtain ⟨hs₄, hlength, hover'⟩ := hb.of_batch hs₃ hgoing' halone
      rw [trials, singleSets, List.length_map, List.length_map] at hlength
      exact ⟨hs₄, covers_isolate hlength (hover' hgoing₄).2 hm.covers,
        fun hfired => absurd hfired hgoing₄⟩

/-- A search reports every request to stop that came while it was under way. -/
theorem search_candid (hkeys : (keys space).Nodup) (hb : b.Watched fired inv known ev)
    (hcalm : b.Calm fired inv known verifies space) (whole : Score) {s : τ} (hs : inv s)
    (hgoing : ¬fired s) :
    ∃ found s', (search b space whole).runOn s = (.ok found, s') ∧
      Candid fired inv ev found.issues found.interactions s' := by
  have hkeeps : b.Keeps fun _ => True := ⟨fun _ => trivial, fun _ _ => trivial⟩
  obtain ⟨m, t, hturns, hends, hrun⟩ := exists_search whole hkeys hkeeps (s := s) trivial
  have hopening : (opening space whole s).Candid fired inv ev :=
    ⟨hs, Evidence.covers_nil, fun hfired => absurd hfired hgoing⟩
  have hcandid : m.Candid fired inv ev :=
    Turns.keep hkeeps (opening_sound space whole trivial) hturns hopening
      fun _ _ hm₁ hturn h => hturn.candid hb hcalm hm₁.segments h
  refine ⟨t.result, m.world, hrun, ?_⟩
  cases hends with
  | done hend =>
      exact ⟨hcandid.world, fun hfired => (hcandid.told hfired).resolve_left (· hend),
        hcandid.covers⟩
  | stopped => exact candid_stop _ _ hcandid.world hcandid.covers

/-- The suspects of a search are candidates, in their order. -/
theorem suspects_sublist {P : τ → Prop} (hkeys : (keys space).Nodup) (hb : b.Latched P)
    {whole : Score} {s s' : τ} {found : SearchResult α} (hs : P s)
    (hrun : (search b space whole).runOn s = (.ok found, s')) :
    (found.suspects.map (·.candidate)).Sublist space.candidates := by
  obtain ⟨m, t, hm, hends, hresult⟩ := exists_search whole hkeys hb.toKeeps hs
  obtain ⟨hfound, -⟩ := Prod.mk.inj (hrun.symm.trans hresult)
  obtain rfl := Except.ok.inj hfound
  rw [hends.suspects]
  exact (Turns.frontier hb.toKeeps (opening_sound space whole hs)
    (opening_frontier space whole s) hm).suspects_sublist

/-- A trial that is over before any request. -/
theorem trial_candid (hkeys : (keys space).Nodup) (hb : b.Watched fired inv known ev)
    {V : List String} (hsub : V.Sublist (keys space)) {s : τ} (hs : inv s) (hgoing : ¬fired s)
    (hgoing' : ¬fired (b.batch [space.bipartition V] s).2) :
    ∃ o s', Attempt.runOn (Attempt.of (Partition.of space.scope (keys space) V) >>= fun p =>
        ExceptT.lift (b.trial p)) s = (.ok o, s') ∧ inv s' ∧ ¬fired s' ∧
      ev.tried (space.bipartition V) o := by
  obtain ⟨o, s', htry, hrun⟩ := exists_trial hb.answered hkeys hsub s
  obtain ⟨hs', -, hover⟩ := hb.of_batch hs hgoing htry
  rw [htry] at hgoing'
  exact ⟨o, s', hrun, hs', hgoing', (hover hgoing').2 _ _ (List.mem_singleton.mpr rfl)⟩

theorem confirm_candid (hkeys : (keys space).Nodup) (hb : b.Watched fired inv known ev)
    (hcalm : b.Calm fired inv known verifies space) {s : τ} (hs : inv s) (hgoing : ¬fired s) :
    ∃ o s', (confirm b space).runOn s = (.ok o, s') ∧ inv s' ∧ ¬fired s' ∧
      ev.tried (space.bipartition (keys space)) o := by
  rw [confirm, partition, memberKeys_zipIdx]
  exact trial_candid hkeys hb (List.Sublist.refl _) hs hgoing (hcalm.unwatched hs hgoing .whole)

/-- The trial of the suspects of a search. -/
theorem verify_candid (hkeys : (keys space).Nodup) (hb : b.Watched fired inv known ev)
    (hcalm : b.Calm fired inv known true space) {whole : Score} {s s' : τ}
    {found : SearchResult α} (hs : inv s) (hgoing : ¬fired s)
    (hrun : (search b space whole).runOn s = (.ok found, s')) (hs' : inv s')
    (hsome : found.suspects ≠ []) :
    ∃ o s'', (verify b space (found.suspects.map (·.candidate))).runOn s' = (.ok o, s'') ∧
      inv s'' ∧ ¬fired s'' ∧
      ev.tried (space.bipartition (keysOf (found.suspects.map (·.candidate)))) o := by
  obtain ⟨hgoing', hgoing''⟩ := hcalm.verified rfl hs hgoing hrun hsome
  have hsub := (suspects_sublist hkeys hb.toLatched trivial hrun).map Candidate.key
  exact trial_candid hkeys hb hsub hs' hgoing' hgoing''

end Search

end Culprit
