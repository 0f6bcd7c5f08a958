import Culprit.Proofs.Search.Bench
import Culprit.Proofs.Search.Trials
import Mathlib.Data.List.Sort

/-!
Two searches side by side. Of every score only whether it is zero counts: where the outcomes of two
benches look alike through a function that shows this much, the same partitions are asked for, and
what the searches find looks alike.
-/

namespace Culprit

/-! ### What is seen of an outcome -/

/-- One for a difference and zero for none. -/
def Score.sign (s : Score) : Score :=
  if s.isDivergent then ⟨1⟩ else ⟨0⟩

theorem Score.isDivergent_one : (⟨1⟩ : Score).isDivergent = true := by decide +kernel

theorem Score.isDivergent_zero : (⟨0⟩ : Score).isDivergent = false := by decide +kernel

@[simp] theorem Score.isDivergent_sign (s : Score) : s.sign.isDivergent = s.isDivergent := by
  rw [sign]
  split
  · next h => rw [h, isDivergent_one]
  · next h => rw [Bool.eq_false_iff.mpr h, isDivergent_zero]

/-- A way to look at what trials come to. -/
structure Look where
  score : Score → Score
  /-- What is left of the text of a failure. -/
  text : String → String

namespace Look

/-- It still shows which scores are zero. -/
def Shown (g : Look) : Prop :=
  ∀ s, (g.score s).isDivergent = s.isDivergent

theorem Shown.congr {g : Look} (hg : g.Shown) {s s' : Score} (h : g.score s = g.score s') :
    s.isDivergent = s'.isDivergent := by
  rw [← hg s, h, hg]

/-- Of the scores only the signs, and the texts as they are. -/
def signs : Look := ⟨Score.sign, id⟩

theorem shown_signs : signs.Shown :=
  Score.isDivergent_sign

end Look

def Failure.through (g : Look) (f : Failure) : Failure :=
  { f with detail := g.text f.detail }

def Issue.through (g : Look) (i : Issue) : Issue :=
  { i with detail := g.text i.detail }

def Outcome.through (g : Look) : Outcome → Outcome
  | .error f => .error (f.through g)
  | .ok s => .ok (g.score s)

@[simp] theorem Outcome.through_ok (g : Look) (s : Score) :
    Outcome.through g (.ok s) = .ok (g.score s) := rfl

@[simp] theorem Outcome.through_error (g : Look) (f : Failure) :
    Outcome.through g (.error f) = .error (f.through g) := rfl

theorem Issue.through_ofFailure (g : Look) (context : String) (f : Failure) :
    (ofFailure context f).through g = .ofFailure context (f.through g) := rfl

/-- Outcomes have one sign when both fail alike, or both or neither of the scores are zero. -/
theorem Outcome.signs_congr {o o' : Outcome}
    (h : o.map Score.isDivergent = o'.map Score.isDivergent) :
    o.through .signs = o'.through .signs := by
  cases o with
  | error f =>
      cases o' with
      | error f' => rw [Except.error.inj h]
      | ok s' => cases h
  | ok s =>
      cases o' with
      | error f' => cases h
      | ok s' =>
          have hsame : s.isDivergent = s'.isDivergent := Except.ok.inj h
          simp only [through_ok, Look.signs, Score.sign, hsame]

/-- Outcomes that look alike are failures or scores that look alike. -/
theorem Outcome.cases_of_through {g : Look} {o o' : Outcome} (h : o.through g = o'.through g) :
    (∃ f f', o = .error f ∧ o' = .error f' ∧ f.through g = f'.through g) ∨
      ∃ s s', o = .ok s ∧ o' = .ok s' ∧ g.score s = g.score s' := by
  cases o with
  | error f =>
      cases o' with
      | error f' => exact .inl ⟨f, f', rfl, rfl, Except.error.inj h⟩
      | ok s' => cases h
  | ok s =>
      cases o' with
      | error f' => cases h
      | ok s' => exact .inr ⟨s, s', rfl, rfl, Except.ok.inj h⟩

def Suspect.through {α : Type} (g : Look) (s : Suspect α) : Suspect α :=
  { s with score := g.score s.score }

def SearchResult.through {α : Type} (g : Look) (r : SearchResult α) : SearchResult α :=
  { r with
    suspects := r.suspects.map (Suspect.through g)
    issues := r.issues.map (Issue.through g) }

namespace Search

variable {α : Type} {g : Look}

def Branch.through (g : Look) (b : Branch α) : Branch α :=
  { b with score := g.score b.score }

def Tally.through (g : Look) (t : Tally α) : Tally α :=
  { t with
    found := t.found.map fun f => (f.1, g.score f.2)
    issues := t.issues.map (Issue.through g) }

theorem diverging_through (hg : g.Shown) (sets : List (List (Member α))) (os : List Outcome) :
    (diverging sets os).map (Branch.through g) = diverging sets (os.map (Outcome.through g)) := by
  induction sets generalizing os with
  | nil => simp [diverging]
  | cons ms sets ih =>
      rcases os with _ | ⟨f | s, os⟩
      · simp [diverging]
      · simpa [diverging] using ih os
      · by_cases hs : s.isDivergent <;> simp [diverging, hg s, hs, ih, Branch.through]

theorem failures_through (ps : List Partition) (os : List Outcome) :
    failures ps (os.map (Outcome.through g)) = (failures ps os).map (Issue.through g) := by
  induction ps generalizing os with
  | nil => simp [failures]
  | cons p ps ih =>
      rcases os with _ | ⟨f | s, os⟩ <;> simp [failures, ih, Issue.through_ofFailure]

theorem Tally.through_result (t : Tally α) : t.result.through g = (t.through g).result := by
  have hsorted : (t.found.mergeSort fun a b => a.1.2 ≤ b.1.2).map (fun f => (f.1, g.score f.2)) =
      (t.found.map fun f => (f.1, g.score f.2)).mergeSort fun a b => a.1.2 ≤ b.1.2 :=
    List.map_mergeSort fun _ _ _ _ => rfl
  rw [result, result, through, ← hsorted, SearchResult.through]
  simp [List.map_map, Function.comp_def, Suspect.through]

theorem Tally.through_emit (t : Tally α) (m : Member α) (s : Score) :
    (t.emit m s).through g = (t.through g).emit m (g.score s) := by
  simp [through, emit]

theorem Tally.through_addIssues (t : Tally α) (is : List Issue) :
    (t.addIssues is).through g = (t.through g).addIssues (is.map (Issue.through g)) := by
  simp [through, addIssues]

theorem Tally.through_stop (t : Tally α) (scope : Scope) (left : Nat) :
    (t.stop scope left).through g = { t.through g with cancelled := true }.addIssues
      [Issue.through g ⟨.cancelled, scope.display,
        toString left ++ " candidate sets left unexplored"⟩] := by
  rw [stop, through_addIssues]
  rfl

theorem isEmpty_through (queue : List (Branch α)) :
    (queue.map (Branch.through g)).isEmpty = queue.isEmpty := by
  cases queue <;> rfl

variable [Candidate α]

theorem Tally.through_isolate (hg : g.Shown) (t : Tally α) (scope : Scope) (ms : List (Member α))
    (singles : List Partition) (os : List Outcome) :
    let alone := diverging (ms.map fun m => [m]) (os.map (Outcome.through g))
    let attributed := alone.flatMap fun b => memberKeys b.members
    (t.isolate scope ms singles os).through g =
      { t.through g with
        found := (t.through g).found ++ alone.flatMap fun b => b.members.map fun m => (m, b.score)
        issues := (t.through g).issues ++ failures singles (os.map (Outcome.through g)) ++
          [(interactionIssue scope (memberKeys ms) attributed).through g]
        interactions := (t.through g).interactions ++
          [⟨scope.display, memberKeys ms, attributed⟩] } := by
  simp only [isolate, through, failures_through, ← diverging_through hg, List.flatMap_map,
    List.map_append, List.map_flatMap, List.map_map]
  rfl

end Search

/-! ### Searches side by side -/

/-- A division of the candidates. -/
def Space.Accepts {α : Type} [Candidate α] (space : Space α) (p : Partition) : Prop :=
  ∃ V, Partition.of space.scope (Search.keys space) V = .ok p

/-- The benches look alike at the request to stop, and what they come to on partitions of `domain`
looks alike through `g`. -/
structure Bench.InStep {τ τ' : Type} (g : Look) (b : Bench τ) (b' : Bench τ')
    (rel : τ → τ' → Prop) (domain : Partition → Prop) : Prop where
  shown : g.Shown
  looked : Culprit.InStep rel Eq b.cancelled b'.cancelled
  tried {ps : List Partition} : (∀ p ∈ ps, domain p) →
    Culprit.InStep rel (InvImage Eq (List.map (Outcome.through g))) (b.batch ps) (b'.batch ps)

theorem Bench.InStep.mono {τ τ' : Type} {g : Look} {b : Bench τ} {b' : Bench τ'}
    {rel : τ → τ' → Prop} {domain domain' : Partition → Prop} (hb : b.InStep g b' rel domain)
    (h : ∀ p, domain' p → domain p) : b.InStep g b' rel domain' where
  shown := hb.shown
  looked := hb.looked
  tried hps := hb.tried fun p hp => h p (hps p hp)

/-- Two results that look alike and blame only candidates. -/
structure SearchResult.Alike {α : Type} (g : Look) (space : Space α) (r r' : SearchResult α) :
    Prop where
  scores : r.through g = r'.through g
  within : ∀ s ∈ r.suspects, s.candidate ∈ space.candidates

namespace Search

variable {α : Type} {g : Look}

/-- Two tallies that look alike, of findings among `M`. -/
structure Tally.Alike (g : Look) (M : List (Member α)) (t t' : Tally α) : Prop where
  scores : t.through g = t'.through g
  within : ∀ f ∈ t.found, f.1 ∈ M

/-- Two queues that look alike, of branches among `M`. -/
structure QueueAlike (g : Look) (M : List (Member α)) (queue queue' : List (Branch α)) : Prop where
  scores : queue.map (Branch.through g) = queue'.map (Branch.through g)
  within : ∀ c ∈ queue, c.members ⊆ M

theorem QueueAlike.append {M : List (Member α)} {q q' r r' : List (Branch α)}
    (hq : QueueAlike g M q q') (hr : QueueAlike g M r r') : QueueAlike g M (q ++ r) (q' ++ r') where
  scores := by rw [List.map_append, List.map_append, hq.scores, hr.scores]
  within := List.forall_mem_append.mpr ⟨hq.within, hr.within⟩

theorem QueueAlike.length {M : List (Member α)} {q q' : List (Branch α)}
    (h : QueueAlike g M q q') : q.length = q'.length := by
  simpa using congrArg List.length h.scores

theorem QueueAlike.isEmpty {M : List (Member α)} {q q' : List (Branch α)}
    (h : QueueAlike g M q q') : q.isEmpty = q'.isEmpty := by
  rw [← isEmpty_through, h.scores, isEmpty_through]

/-- Both queues are worked off, or both begin with the same set. -/
theorem QueueAlike.cases {M : List (Member α)} {q q' : List (Branch α)} (h : QueueAlike g M q q') :
    (q = [] ∧ q' = []) ∨ ∃ ms score score' rest rest',
      q = ⟨ms, score⟩ :: rest ∧ q' = ⟨ms, score'⟩ :: rest' ∧ g.score score = g.score score' ∧
        ms ⊆ M ∧ QueueAlike g M rest rest' := by
  obtain ⟨hscores, hwithin⟩ := h
  cases q with
  | nil => exact .inl ⟨rfl, by simpa using hscores⟩
  | cons c rest =>
      cases q' with
      | nil => simp at hscores
      | cons c' rest' =>
          obtain ⟨hfirst, hrest⟩ := List.cons.inj hscores
          obtain ⟨hms, hothers⟩ := List.forall_mem_cons.mp hwithin
          obtain ⟨ms, score⟩ := c
          obtain ⟨ms', score'⟩ := c'
          obtain rfl : ms = ms' := congrArg Branch.members hfirst
          exact .inr ⟨ms, score, score', rest, rest', rfl, rfl, congrArg Branch.score hfirst, hms,
            hrest, hothers⟩

/-- Outcomes that look alike leave the same sets to search. -/
theorem queueAlike_diverging (hg : g.Shown) {M : List (Member α)} {sets : List (List (Member α))}
    {os os' : List Outcome} (hsets : ∀ set ∈ sets, set ⊆ M)
    (hos : os.map (Outcome.through g) = os'.map (Outcome.through g)) :
    QueueAlike g M (diverging sets os) (diverging sets os') where
  scores := by rw [diverging_through hg, hos, diverging_through hg]
  within c hc := hsets _ (List.of_mem_zip (mem_diverging.mp hc).1).1

namespace Tally.Alike

variable {M : List (Member α)} {t t' : Tally α}

theorem addIssues (h : t.Alike g M t') {is is' : List Issue}
    (his : is.map (Issue.through g) = is'.map (Issue.through g)) :
    (t.addIssues is).Alike g M (t'.addIssues is') :=
  ⟨by rw [through_addIssues, through_addIssues, h.scores, his], h.within⟩

theorem stop (h : t.Alike g M t') (scope : Scope) (left : Nat) :
    (t.stop scope left).Alike g M (t'.stop scope left) :=
  ⟨by rw [through_stop, through_stop, h.scores], h.within⟩

theorem emit (h : t.Alike g M t') {m : Member α} (hm : m ∈ M) {s s' : Score}
    (hs : g.score s = g.score s') : (t.emit m s).Alike g M (t'.emit m s') where
  scores := by rw [through_emit, through_emit, h.scores, hs]
  within := List.forall_mem_append.mpr ⟨h.within, by simpa using hm⟩

theorem isolate [Candidate α] (hg : g.Shown) (h : t.Alike g M t') {ms : List (Member α)}
    (hms : ms ⊆ M) (scope : Scope) (singles : List Partition) {os os' : List Outcome}
    (hos : os.map (Outcome.through g) = os'.map (Outcome.through g)) :
    (t.isolate scope ms singles os).Alike g M (t'.isolate scope ms singles os') where
  scores := by rw [through_isolate hg, through_isolate hg, h.scores, hos]
  within := by
    refine List.forall_mem_append.mpr ⟨h.within, fun f hf => ?_⟩
    obtain ⟨c, hc, hf⟩ := List.mem_flatMap.mp hf
    obtain ⟨m, hm, rfl⟩ := List.mem_map.mp hf
    have hset := (List.of_mem_zip (mem_diverging.mp hc).1).1
    obtain ⟨m', hm', hmembers⟩ := List.mem_map.mp hset
    rw [← hmembers] at hm
    rw [List.mem_singleton.mp hm]
    exact hms hm'

theorem result {space : Space α} (h : t.Alike g space.candidates.zipIdx t') :
    t.result.Alike g space t'.result where
  scores := by rw [through_result, h.scores, through_result]
  within s hs := by
    obtain ⟨f, hf, rfl⟩ := List.mem_map.mp hs
    exact List.fst_mem_of_mem_zipIdx (h.within f (mem_sorted.mp hf))

end Tally.Alike

variable {τ τ' : Type} [Candidate α] {b : Bench τ} {b' : Bench τ'} {rel : τ → τ' → Prop}
  {space : Space α}

theorem trial_inStep {domain : Partition → Prop} (hb : b.InStep g b' rel domain) {p : Partition}
    (hp : domain p) : InStep rel (InvImage Eq (Outcome.through g)) (b.trial p) (b'.trial p) := by
  refine InStep.bind (hb.tried (by simpa using hp)) fun os os' hos => ?_
  match os, os', hos with
  | [], [], _ => exact InStep.ret rfl
  | o :: _, o' :: _, h => exact InStep.ret (List.cons.inj h).1

/-- Divisions that were accepted are divisions of the candidates. -/
theorem accepts_of_mapM {β : Type} {f : β → List String} {xs : List β} {ps : List Partition}
    (h : (xs.mapM fun x => Partition.of space.scope (keys space) (f x)) = .ok ps) :
    ∀ p ∈ ps, space.Accepts p := by
  induction xs generalizing ps with
  | nil =>
      cases h
      exact fun p hp => absurd hp List.not_mem_nil
  | cons x xs ih =>
      rw [List.mapM_cons] at h
      cases hx : Partition.of space.scope (keys space) (f x) with
      | error fault =>
          rw [hx] at h
          cases h
      | ok p =>
          cases hxs : xs.mapM fun x => Partition.of space.scope (keys space) (f x) with
          | error fault =>
              rw [hx, hxs] at h
              cases h
          | ok qs =>
              rw [hx, hxs] at h
              cases h
              exact List.forall_mem_cons.mpr ⟨⟨f x, hx⟩, ih hxs⟩

theorem leaveOneOut_inStep (hb : b.InStep g b' rel space.Accepts) {M ms : List (Member α)}
    (hms : ms ⊆ M) {t t' : Tally α} (ht : t.Alike g M t') :
    Attempt.InStep rel (Tally.Alike g M) (leaveOneOut b space ms t)
      (leaveOneOut b' space ms t') := by
  refine Attempt.InStep.bind (Attempt.InStep.of (fun ps => ∀ p ∈ ps, space.Accepts p)
    fun ps h => accepts_of_mapM h) ?_
  rintro singles _ ⟨rfl, hsingles⟩
  refine Attempt.InStep.bind (Attempt.InStep.lift (hb.tried hsingles)) fun os os' hos => ?_
  exact Attempt.InStep.ret (ht.isolate hb.shown hms _ _ hos)

theorem conclude_inStep (hb : b.InStep g b' rel space.Accepts) {M ms : List (Member α)}
    (hms : ms ⊆ M) (ps : List Partition) {os os' : List Outcome}
    (hos : os.map (Outcome.through g) = os'.map (Outcome.through g))
    {survivors survivors' : List (Branch α)} (hsurvivors : QueueAlike g M survivors survivors')
    {t t' : Tally α} (ht : t.Alike g M t') :
    Attempt.InStep rel (Tally.Alike g M) (conclude b space ms ps os survivors t)
      (conclude b' space ms ps os' survivors' t') := by
  have hfailed :
      (failures ps os).map (Issue.through g) = (failures ps os').map (Issue.through g) := by
    rw [← failures_through, hos, failures_through]
  have hnone : (failures ps os).isEmpty = (failures ps os').isEmpty := by
    simpa using congrArg List.isEmpty hfailed
  rw [conclude, conclude, hnone, hsurvivors.isEmpty]
  split
  · exact leaveOneOut_inStep hb hms (ht.addIssues hfailed)
  · exact Attempt.InStep.ret (ht.addIssues hfailed)

/-- Queues that look alike are worked off alike. -/
theorem explore_inStep (hb : b.InStep g b' rel space.Accepts) {M : List (Member α)}
    {queue queue' : List (Branch α)} (hqueue : QueueAlike g M queue queue') {t t' : Tally α}
    (ht : t.Alike g M t') :
    Attempt.InStep rel (Tally.Alike g M) (explore b space queue t)
      (explore b' space queue' t') := by
  induction hw : weight queue using Nat.strong_induction_on generalizing queue queue' t t' with
  | _ w ih =>
      obtain ⟨rfl, rfl⟩ | ⟨ms, score, score', rest, rest', rfl, rfl, hscore, hms, hlater⟩ :=
        hqueue.cases
      · rw [explore, explore]
        exact Attempt.InStep.ret ht
      have hstopped : (t.stop space.scope (rest.length + 1)).Alike g M
          (t'.stop space.scope (rest'.length + 1)) := by
        rw [← hlater.length]
        exact ht.stop space.scope (rest.length + 1)
      rw [explore.eq_def b, explore.eq_def b']
      refine Attempt.InStep.bind (Attempt.InStep.lift hb.looked) ?_
      rintro stop _ rfl
      cases stop with
      | true => exact Attempt.InStep.ret hstopped
      | false =>
          rw [weight_cons] at hw
          rcases ms with _ | ⟨m, _ | ⟨n, ms⟩⟩
          · have := weight_pos (⟨[], score⟩ : Branch α)
            exact ih _ (by omega) hlater ht rfl
          · have := weight_pos (⟨[m], score⟩ : Branch α)
            exact ih _ (by omega) hlater (ht.emit (hms List.mem_cons_self) hscore) rfl
          -- A set of two or more is halved.
          simp only [Bool.false_eq_true, if_false]
          refine Attempt.InStep.bind (Attempt.InStep.of (fun ps => ∀ p ∈ ps, space.Accepts p)
            fun ps h => accepts_of_mapM h) ?_
          rintro ps _ ⟨rfl, hps⟩
          refine Attempt.InStep.bind (Attempt.InStep.lift (hb.tried hps)) fun os os' hos => ?_
          refine Attempt.InStep.bind (Attempt.InStep.lift hb.looked) ?_
          rintro stop _ rfl
          cases stop with
          | true => exact Attempt.InStep.ret hstopped
          | false =>
              have hsurvivors := queueAlike_diverging hb.shown (fun half hhalf =>
                List.Subset.trans (infix_of_mem_halfSets hhalf).subset hms) hos
              refine Attempt.InStep.bind (conclude_inStep hb hms ps hos hsurvivors ht) ?_
              intro t t' ht
              refine ih _ ?_ (hlater.append hsurvivors) ht rfl
              have hlighter : weight (diverging (halfSets (m :: n :: ms)) os) <
                  (Branch.mk (m :: n :: ms) score).weight := weight_halves_lt m n ms score os
              rw [weight_append]
              omega

theorem search_inStep (hb : b.InStep g b' rel space.Accepts) {whole whole' : Score}
    (hwhole : g.score whole = g.score whole') :
    Attempt.InStep rel (SearchResult.Alike g space) (search b space whole)
      (search b' space whole') := by
  rw [search, search]
  split
  · exact Attempt.InStep.ret ⟨rfl, fun s hs => absurd hs List.not_mem_nil⟩
  · have hqueue : QueueAlike g space.candidates.zipIdx [⟨space.candidates.zipIdx, whole⟩]
        [⟨space.candidates.zipIdx, whole'⟩] :=
      ⟨by simp [Branch.through, hwhole], by simp⟩
    have hempty : (Tally.empty : Tally α).Alike g space.candidates.zipIdx .empty :=
      ⟨rfl, fun f hf => absurd hf List.not_mem_nil⟩
    refine Attempt.InStep.bind (explore_inStep hb hqueue hempty) fun t t' ht => ?_
    exact Attempt.InStep.ret ht.result

theorem verify_inStep (hb : b.InStep g b' rel space.Accepts) (subset : List α) :
    Attempt.InStep rel (InvImage Eq (Outcome.through g)) (verify b space subset)
      (verify b' space subset) := by
  refine Attempt.InStep.bind (Attempt.InStep.of space.Accepts fun p hp => ⟨_, hp⟩) ?_
  rintro p _ ⟨rfl, hp⟩
  exact Attempt.InStep.lift (trial_inStep hb hp)

theorem confirm_inStep (hb : b.InStep g b' rel space.Accepts) :
    Attempt.InStep rel (InvImage Eq (Outcome.through g)) (confirm b space) (confirm b' space) := by
  refine Attempt.InStep.bind (Attempt.InStep.of space.Accepts fun p hp => ⟨_, hp⟩) ?_
  rintro p _ ⟨rfl, hp⟩
  exact Attempt.InStep.lift (trial_inStep hb hp)

end Search

end Culprit
