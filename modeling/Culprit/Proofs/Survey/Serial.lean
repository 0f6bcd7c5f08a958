import Culprit.Proofs.Survey.Overlap

/-!
A survey that bisects one row after the other is one of those whose rows overlap: each row takes its
actions without a pause, and the others see the outside as it left it.
-/

namespace Culprit

variable {σ : Type}

namespace Survey

variable {e : Engine σ} {o : SurveyOptions} {rows : List ResultRow} {archive : Archive σ}
  {may : Bearing σ → Site σ → Site σ → Prop} {p p' : Crew σ} {f : Floor σ}
  {job : ResultRow × Nat} {w : Nat} {s : Archive σ}

/-! ### A row without a pause -/

/-- Nobody holds the slot of a baseline. -/
def Idle (f : Floor σ) : Prop :=
  ∀ k, ¬(f.station k).bearing.Builds

theorem Idle.put (h : Idle f) (k : Nat) (B : Baselines) {b : Bearing σ} (view : Site σ)
    (hb : ¬b.Builds) : Idle (f.put k B b view) := by
  intro k'
  by_cases hk : k' = k
  · rw [hk, Floor.put_self]
    exact hb
  · rw [Floor.put_other _ _ _ _ hk]
    exact h k'

/-- The next action of a row that was put somewhere. -/
theorem Act.of_put {B B' : Baselines} {b b' : Bearing σ} {view view' : Site σ}
    (h : Act e o rows job (f.put job.2 B b view) ((f.put job.2 B b view).put job.2 B' b' view')) :
    Act e o rows job (f.put job.2 B b view) (f.put job.2 B' b' view') := by
  rwa [Floor.put_put] at h

/-- A call for a baseline that nobody gets in the way of. -/
theorem call_acts (e : Engine σ) (o : SurveyOptions) (rows : List ResultRow)
    (job : ResultRow × Nat) (hidle : Idle f) (now : String) (units : List SourceUnit)
    (B : Baselines) (site : Site σ) : ∃ visit v s₁, visit.verdict? = some v ∧
      Archive.decide (inquiry e o job.1).setup (inquiry e o job.1).trusted
        (inquiry e o job.1).target ⟨site, B.reserve (inquiry e o job.1).key⟩ = (v, s₁) ∧
      Relation.ReflTransGen (Act e o rows job) (f.put job.2 B (.asking now units .called) site)
        (f.put job.2 s₁.baselines (.asking now units visit) s₁.site) := by
  have hself (B : Baselines) (b : Bearing σ) (view : Site σ) :
      (f.put job.2 B b view).station job.2 = ⟨b, view⟩ := Floor.put_self ..
  have hbearing (B : Baselines) (b : Bearing σ) (view : Site σ) :
      ((f.put job.2 B b view).station job.2).bearing = b := by rw [hself]
  let B₁ := B.reserve (inquiry e o job.1).key
  have hreserve : Act e o rows job (f.put job.2 B (.asking now units .called) site)
      (f.put job.2 B₁ (.asking now units .waiting) site) := by
    have hact : Act e o rows job _ _ := .reserve (hbearing B (.asking now units .called) site)
    rw [hself] at hact
    exact hact.of_put
  have hfree : (f.put job.2 B₁ (.asking now units .waiting) site).Free e o rows
      (inquiry e o job.1).key := by
    refine fun other _ _ => hidle.put job.2 B₁ site ?_ other.2
    rintro ⟨now, units, hbuilds⟩
    cases hbuilds
  by_cases hfound : ∃ v, B₁.slot? (inquiry e o job.1).key = some (some v)
  · obtain ⟨v, hv⟩ := hfound
    have hact := Act.answer (hbearing B₁ (.asking now units .waiting) site) hfree hv
    rw [hself] at hact
    exact ⟨.given v, v, _, rfl, Archive.decide_known (s := ⟨site, B₁⟩) hv,
      .tail (.single hreserve) hact.of_put⟩
  · have hempty := not_exists.mp hfound
    have hact := Act.enter (hbearing B₁ (.asking now units .waiting) site) hfree hempty
    rw [hself] at hact
    rcases hran : (Archive.compute (inquiry e o job.1).setup (inquiry e o job.1).trusted
      (inquiry e o job.1).target).run site with ⟨v, view⟩
    rcases hlook : e.lab.cancelled view.world with ⟨stop, w⟩
    have hleave : Act e o rows job _ _ :=
      .leave (hbearing B₁.countBuild (.asking now units .building) site)
        (by rw [hself]; exact hran) hlook
    refine ⟨.built v !stop, v, _, rfl, Archive.decide_new (s := ⟨site, B₁⟩) hempty hran hlook, ?_⟩
    have hkept : (Archive.keep ⟨{ view with world := w }, B₁.countBuild⟩ (inquiry e o job.1) v
        stop) = ⟨{ view with world := w }, if stop then B₁.countBuild else
          B₁.countBuild.store (inquiry e o job.1).key v⟩ := by
      cases stop <;> rfl
    rw [hkept]
    exact .tail (.tail (.single hreserve) hact.of_put) hleave.of_put

/-- A row that nobody gets in the way of comes to what its bisection on its own comes to. -/
theorem row_acts (e : Engine σ) (o : SurveyOptions) (rows : List ResultRow)
    (job : ResultRow × Nat) (s : Archive σ) (hidle : Idle f)
    (hstation : f.station job.2 = ⟨.away, s.site⟩)
    (hbaselines : f.baselines = s.baselines) : ∃ last,
      Relation.ReflTransGen (Act e o rows job) f
        (f.put job.2 (bisectRow e o job.1 s).2.baselines (.ended (bisectRow e o job.1 s).1 last)
          (bisectRow e o job.1 s).2.site) := by
  rcases hprepare : prepare e o job.1 s.site with ⟨b, site⟩
  have hfirst : Act e o rows job f (f.put job.2 s.baselines b site) := by
    rw [← hbaselines]
    exact .prepare (by rw [hstation]) (by rw [hstation]; exact hprepare)
  cases b with
  | away => cases prepares hprepare
  | ended r last =>
      rw [bisectRow_ended hprepare]
      exact ⟨last, .single hfirst⟩
  | asking now units visit =>
      obtain rfl : visit = .called := by cases prepares hprepare; rfl
      obtain ⟨visit, v, s₁, hverdict, hdecide, hcall⟩ :=
        call_acts e o rows job hidle now units s.baselines site
      rcases hconclude : conclude e o job.1 now units v s₁.site with ⟨⟨r, last⟩, view⟩
      have hlast :
          Act e o rows job (f.put job.2 s₁.baselines (.asking now units visit) s₁.site) _ :=
        .conclude (by rw [Floor.put_self]) hverdict (by rw [Floor.put_self]; exact hconclude)
      rw [bisectRow_asking hprepare hdecide hconclude]
      exact ⟨last, .tail (.trans (.single hfirst) hcall) hlast.of_put⟩

/-! ### Whole surveys -/

/-- The crew is where the pool is that bisects each row in one go. The rows that were not begun have
not been touched. -/
structure Mirrors (rows : List ResultRow) (site : Site σ)
    (q : Pool (ResultRow × Nat) (Archive σ) SurveyEntry) (p : Crew σ) : Prop where
  next : p.next = q.next
  workers : p.workers = q.workers
  failed : p.failed = false ∧ q.failed = false
  results : p.results = q.results
  baselines : p.state.baselines = q.state.baselines
  idle : Idle p.state
  held : ∀ (u : Nat) job, q.workers[u]? = some (.working job) →
    p.state.station job.2 = ⟨.away, site⟩
  ahead : ∀ (i : Nat) job, q.next ≤ i → (flaggedRows rows)[i]? = some job →
    p.state.station job.2 = ⟨.away, site⟩
  behind : ∀ (u : Nat) job, q.workers[u]? = some (.working job) →
    ∃ i < q.next, (flaggedRows rows)[i]? = some job
  apart : ∀ (u u' : Nat) job, q.workers[u]? = some (.working job) →
    q.workers[u']? = some (.working job) → u = u'

theorem position_inj {i j : Nat} {job job' : ResultRow × Nat}
    (hi : (flaggedRows rows)[i]? = some job) (hj : (flaggedRows rows)[j]? = some job')
    (h : job.2 = job'.2) : i = j := by
  obtain ⟨hlt, rfl⟩ := List.getElem?_eq_some_iff.mp hi
  obtain ⟨hlt', rfl⟩ := List.getElem?_eq_some_iff.mp hj
  have hpairs := List.pairwise_iff_getElem.mp (pairwise_flaggedRows rows)
  rcases Nat.lt_trichotomy i j with hless | heq | hless
  · exact absurd h (Nat.ne_of_lt (hpairs i j hlt hlt' hless))
  · exact heq
  · exact absurd h.symm (Nat.ne_of_lt (hpairs j i hlt' hlt hless))

variable {q q' : Pool (ResultRow × Nat) (Archive σ) SurveyEntry} {site : Site σ}

/-- A turn in which nothing is done to a row. -/
theorem Mirrors.turn (h : Mirrors rows site q p)
    {x : Worker (ResultRow × Nat) SurveyEntry} (hx : ∀ job, x ≠ .working job)
    (hnext : q.next ≤ q'.next) (hworkers : q'.workers = q.workers.set w x)
    (hq' : q'.state = q.state ∧ q'.failed = false)
    (hp' : p'.next = q'.next ∧ p'.workers = q'.workers ∧ p'.failed = false ∧
      p'.results = q'.results ∧ p'.state = p.state) : Mirrors rows site q' p' := by
  obtain ⟨hnext', hworkers', hfailed', hresults', hstate'⟩ := hp'
  have hold (u : Nat) (job) (hu : q'.workers[u]? = some (.working job)) :
      q.workers[u]? = some (.working job) := by
    rw [hworkers, List.getElem?_set] at hu
    split at hu
    · split at hu
      · exact absurd (Option.some.inj hu) (hx job)
      · cases hu
    · exact hu
  refine ⟨hnext', hworkers', ⟨hfailed', hq'.2⟩, hresults', ?_, ?_, ?_, ?_, ?_, ?_⟩
  · rw [hstate', hq'.1, h.baselines]
  · rw [hstate']
    exact h.idle
  · intro u job hu
    rw [hstate']
    exact h.held u job (hold u job hu)
  · intro i job hi hjob
    rw [hstate']
    exact h.ahead i job (hnext.trans hi) hjob
  · intro u job hu
    obtain ⟨i, hi, hjob⟩ := h.behind u job (hold u job hu)
    exact ⟨i, hi.trans_le hnext, hjob⟩
  · exact fun u u' job hu hu' => h.apart u u' job (hold u job hu) (hold u' job hu')

/-- The next row is taken. -/
theorem Mirrors.fetch (h : Mirrors rows site q p) (hw : q.workers[w]? = some .cleared)
    (hjob : (flaggedRows rows)[q.next]? = some job) :
    Mirrors rows site ({ q with next := q.next + 1 }.setWorker w (.working job))
      ({ p with next := p.next + 1 }.setWorker w (.working job)) := by
  have hset (u : Nat) := Pool.getElem?_setWorker (p := { q with next := q.next + 1 })
    (y := .working job) hw u
  -- A row in hand is the new one, or it was in hand before and comes earlier.
  have hcases (u : Nat) (job') (hu : ({ q with next := q.next + 1 }.setWorker w
      (.working job)).workers[u]? = some (.working job')) :
      (u = w ∧ job' = job) ∨ (u ≠ w ∧ q.workers[u]? = some (.working job')) := by
    rw [hset] at hu
    split_ifs at hu with hne
    · exact .inl ⟨hne, by simpa using hu.symm⟩
    · exact .inr ⟨hne, hu⟩
  have hearlier (u : Nat) (hu : q.workers[u]? = some (.working job)) : False := by
    obtain ⟨i, hi, hget⟩ := h.behind u job hu
    exact absurd (position_inj hget hjob rfl) (Nat.ne_of_lt hi)
  refine ⟨congrArg (· + 1) h.next, congrArg (List.set · w _) h.workers, h.failed, h.results,
    h.baselines, h.idle, fun u job' hu => ?_, fun i job' hi hget => ?_, fun u job' hu => ?_,
    fun u u' job' hu hu' => ?_⟩
  · obtain ⟨-, rfl⟩ | ⟨-, hu⟩ := hcases u job' hu
    · exact h.ahead q.next _ (Nat.le_refl _) hjob
    · exact h.held u job' hu
  · exact h.ahead i job' ((Nat.le_succ _).trans hi) hget
  · obtain ⟨-, rfl⟩ | ⟨-, hu⟩ := hcases u job' hu
    · exact ⟨q.next, Nat.lt_succ_self _, hjob⟩
    · obtain ⟨i, hi, hget⟩ := h.behind u job' hu
      exact ⟨i, Nat.lt_succ_of_lt hi, hget⟩
  · obtain ⟨rfl, rfl⟩ | ⟨-, hold⟩ := hcases u job' hu
    · obtain ⟨rfl, -⟩ | ⟨-, hold'⟩ := hcases u' _ hu'
      · rfl
      · exact (hearlier u' hold').elim
    · obtain ⟨-, rfl⟩ | ⟨-, hold'⟩ := hcases u' job' hu'
      · exact (hearlier u hold).elim
      · exact h.apart u u' job' hold hold'

/-- A row was bisected. -/
theorem Mirrors.work (h : Mirrors rows site q p) (hw : q.workers[w]? = some (.working job))
    {s' : Archive σ} {b : Bearing σ} (hb : ¬b.Builds) {r : SurveyEntry} (view : Site σ) :
    Mirrors rows site ({ q with state := s' }.setWorker w (.carrying r))
      ({ p with state := p.state.put job.2 s'.baselines b view }.setWorker w (.carrying r)) := by
  have hset (u : Nat) := Pool.getElem?_setWorker (p := { q with state := s' })
    (y := .carrying r) hw u
  have hcases (u : Nat) (job') (hu : ({ q with state := s' }.setWorker w
      (.carrying r)).workers[u]? = some (.working job')) :
      u ≠ w ∧ q.workers[u]? = some (.working job') := by
    rw [hset] at hu
    split_ifs at hu with hne
    · simp at hu
    · exact ⟨hne, hu⟩
  obtain ⟨i, hi, hget⟩ := h.behind w job hw
  have hstation {k : Nat} (hk : k ≠ job.2) :
      (p.state.put job.2 s'.baselines b view).station k = p.state.station k :=
    Floor.put_other _ _ _ _ hk
  refine ⟨h.next, congrArg (List.set · w _) h.workers, h.failed, h.results, rfl,
    h.idle.put job.2 _ view hb, fun u job' hu => ?_, fun i' job' hi' hget' => ?_,
    fun u job' hu => h.behind u job' (hcases u job' hu).2,
    fun u u' job' hu hu' => h.apart u u' job' (hcases u job' hu).2 (hcases u' job' hu').2⟩
  · obtain ⟨hne, hu⟩ := hcases u job' hu
    refine (hstation fun hk => hne ?_).trans (h.held u job' hu)
    -- Two workers have two rows.
    obtain ⟨i', hi', hget'⟩ := h.behind u job' hu
    obtain rfl := position_inj hget' hget hk
    obtain rfl : job' = job := Option.some.inj (hget'.symm.trans hget)
    exact h.apart u w _ hu hw
  · refine (hstation fun hk => ?_).trans (h.ahead i' job' hi' hget')
    exact absurd (position_inj hget' hget hk) (Nat.ne_of_gt (hi.trans_le hi'))

theorem steps_of_acts (hw : p.workers[w]? = some (.working job)) {floor : Floor σ}
    (hacts : Relation.ReflTransGen (Act e o rows job) p.state floor) :
    Steps e o rows may p { p with state := floor } := by
  induction hacts with
  | refl => exact .refl
  | tail _ hact ih => exact .tail ih (.act (p := { p with state := _ }) hw hact)

/-- The crew bisects the row that a worker has in hand and hands it over, if the row may begin with
the outside as the rows before it left it. -/
theorem Mirrors.bisect_steps (h : Mirrors rows archive.site q p)
    (hmay : may .away archive.site q.state.site) (hw : q.workers[w]? = some (.working job)) :
    ∃ last, Steps e o rows may p ({ p with
      state := p.state.put job.2 (bisectRow e o job.1 q.state).2.baselines
        (.ended (bisectRow e o job.1 q.state).1 last)
        (bisectRow e o job.1 q.state).2.site }.setWorker w
          (.carrying ⟨job.2, job.1, (bisectRow e o job.1 q.state).1⟩)) := by
  have hw' : p.workers[w]? = some (.working job) := by rw [h.workers, hw]
  have haway := h.held w job hw
  -- The row begins with the outside as it is now, is bisected, and is handed over.
  let floor := p.state.put job.2 p.state.baselines .away q.state.site
  have hdrift : Step e o rows may p { p with state := floor } := by
    have hdrift : Step e o rows may p _ := .drift job.2 q.state.site (by rw [haway]; exact hmay)
    rwa [haway] at hdrift
  have hidle : Idle floor := h.idle.put job.2 _ _ (by rintro ⟨now, units, hbuilds⟩; cases hbuilds)
  obtain ⟨last, hacts⟩ := row_acts e o rows job q.state hidle (Floor.put_self ..) h.baselines
  rw [Floor.put_put] at hacts
  have hlast : (p.state.put job.2 (bisectRow e o job.1 q.state).2.baselines
      (.ended (bisectRow e o job.1 q.state).1 last)
      (bisectRow e o job.1 q.state).2.site).station job.2 = ⟨_, _⟩ :=
    Floor.put_self ..
  let p₁ : Crew σ :=
    { p with
      state := p.state.put job.2 (bisectRow e o job.1 q.state).2.baselines
        (.ended (bisectRow e o job.1 q.state).1 last) (bisectRow e o job.1 q.state).2.site }
  have hhand : Step e o rows may p₁ (p₁.step handover (flaggedRows rows) w) := by
    refine .turn w fun job' hjob' => ?_
    obtain rfl : job = job' := by rw [show p₁.workers[w]? = _ from hw'] at hjob'; simpa using hjob'
    exact ⟨_, last, congrArg Station.bearing hlast⟩
  have heq : p₁.step handover (flaggedRows rows) w = p₁.setWorker w
      (.carrying ⟨job.2, job.1, (bisectRow e o job.1 q.state).1⟩) := by
    rw [Pool.step, show p₁.workers[w]? = _ from hw']
    show ({ p₁ with state := p₁.state } : Crew σ).setWorker w (.carrying
      ⟨job.2, job.1, (p₁.state.station job.2).bearing.report⟩) = _
    rw [show p₁.state.station job.2 = _ from hlast]
    rfl
  exact ⟨last, .tail (.trans (.single hdrift)
    (steps_of_acts (p := { p with state := floor }) hw' hacts)) (heq ▸ hhand)⟩

/-- What a worker does in its turn is done by the crew, if a row may begin with the outside as the
rows before it left it. -/
theorem mirrors_turn (h : Mirrors rows archive.site q p)
    (hmay : may .away archive.site q.state.site)
    (hturn : Pool.Turn (shift e o) (flaggedRows rows) q w q') :
    ∃ p', Steps e o rows may p p' ∧ Mirrors rows archive.site q' p' := by
  have hworkers {x : Worker (ResultRow × Nat) SurveyEntry} (hw : q.workers[w]? = some x) :
      p.workers[w]? = some x := by rw [h.workers, hw]
  have hstep {x : Worker (ResultRow × Nat) SurveyEntry} (hw : q.workers[w]? = some x)
      (hx : ∀ job, x ≠ .working job) :
      Step e o rows may p (p.step handover (flaggedRows rows) w) := by
    refine .turn w fun job hjob => ?_
    rw [hworkers hw] at hjob
    exact absurd (Option.some.inj hjob) (hx job)
  have hset (x : Worker (ResultRow × Nat) SurveyEntry) :
      p.workers.set w x = q.workers.set w x := by rw [h.workers]
  cases hturn with
  | idle hw => exact ⟨p, .refl, h⟩
  | clear hw =>
      have heq : p.step handover (flaggedRows rows) w = p.setWorker w .cleared := by
        rw [Pool.step, hworkers hw]
        exact Pool.look_eq steadfast_handover h.failed.1
      exact ⟨p.setWorker w .cleared, .single (heq ▸ hstep hw (by simp)),
        h.turn (w := w) (x := .cleared) (by simp) (Nat.le_refl _) rfl ⟨rfl, h.failed.2⟩
          ⟨h.next, hset _, h.failed.1, h.results, rfl⟩⟩
  | @fetch job hw hjob =>
      have heq : p.step handover (flaggedRows rows) w =
          { p with next := p.next + 1 }.setWorker w (.working job) := by
        rw [Pool.step, hworkers hw]
        simp only [Pool.take, h.next, hjob]
      exact ⟨_, .single (heq ▸ hstep hw (by simp)), h.fetch hw hjob⟩
  | leave hw hend =>
      have heq : p.step handover (flaggedRows rows) w =
          { p with next := p.next + 1 }.setWorker w .gone := by
        rw [Pool.step, hworkers hw]
        simp only [Pool.take, h.next, List.getElem?_eq_none_iff.mpr hend]
      exact ⟨{ p with next := p.next + 1 }.setWorker w .gone, .single (heq ▸ hstep hw (by simp)),
        h.turn (w := w) (x := .gone) (by simp) (Nat.le_succ _) rfl ⟨rfl, h.failed.2⟩
          ⟨congrArg (· + 1) h.next, hset _, h.failed.1, h.results, rfl⟩⟩
  | @handIn r hw =>
      have heq : p.step handover (flaggedRows rows) w =
          { p with results := p.results ++ [r] }.setWorker w .ready := by
        rw [Pool.step, hworkers hw]
        exact Pool.handIn_eq steadfast_handover r
      exact ⟨{ p with results := p.results ++ [r] }.setWorker w .ready,
        .single (heq ▸ hstep hw (by simp)),
        h.turn (w := w) (x := .ready) (by simp) (Nat.le_refl _) rfl ⟨rfl, h.failed.2⟩
          ⟨h.next, hset _, h.failed.1, congrArg (· ++ [r]) h.results, rfl⟩⟩
  | @work job r s' hw hwork =>
      obtain ⟨rfl, rfl⟩ : (⟨job.2, job.1, (bisectRow e o job.1 q.state).1⟩ : SurveyEntry) = r ∧
          (bisectRow e o job.1 q.state).2 = s' := Prod.mk.inj hwork
      obtain ⟨last, hsteps⟩ := h.bisect_steps hmay hw
      refine ⟨_, hsteps, h.work hw ?_ _⟩
      rintro ⟨now, units, hbuilds⟩
      cases hbuilds

theorem mirrors_opening (e : Engine σ) (o : SurveyOptions) (rows : List ResultRow)
    (archive : Archive σ) :
    Mirrors rows archive.site (moment e o rows archive []) (opening e o rows archive) := by
  have hnobody (u : Nat) (job) (hu : (moment e o rows archive []).workers[u]? =
      some (.working job)) : False := by
    cases (List.mem_replicate.mp (List.mem_of_getElem? hu)).2
  refine ⟨rfl, rfl, ⟨rfl, rfl⟩, rfl, rfl, fun k => ?_, fun u job hu => (hnobody u job hu).elim,
    fun _ _ _ _ => rfl, fun u job hu => (hnobody u job hu).elim,
    fun u _ job hu _ => (hnobody u job hu).elim⟩
  rintro ⟨now, units, hbuilds⟩
  cases hbuilds

/-- A survey that bisects each row in one go, with workers that take turns in whatever order, is one
of those whose rows overlap. -/
theorem steps_moment
    (hmay : ∀ schedule, may .away archive.site (moment e o rows archive schedule).state.site)
    (schedule : List Nat) : ∃ p, Steps e o rows may (opening e o rows archive) p ∧
      Mirrors rows archive.site (moment e o rows archive schedule) p := by
  induction schedule using List.reverseRecOn with
  | nil => exact ⟨_, .refl, mirrors_opening e o rows archive⟩
  | append_singleton schedule w ih =>
      obtain ⟨p, hsteps, h⟩ := ih
      have hmoment : moment e o rows archive (schedule ++ [w]) =
          (moment e o rows archive schedule).step (shift e o) (flaggedRows rows) w := by
        rw [moment, Pool.run_append]
        rfl
      obtain ⟨p', hsteps', h'⟩ := mirrors_turn h (hmay schedule)
        (Pool.turn_step (steadfast_shift e o) h.failed.2)
      exact ⟨p', hsteps.trans hsteps', hmoment ▸ h'⟩

theorem Mirrors.over (h : Mirrors rows site q p) (hover : q.Over) : p.Over := by
  rw [Pool.Over, h.workers]
  exact hover

theorem run_steps
    (hmay : ∀ schedule, may .away archive.site (moment e o rows archive schedule).state.site) :
    ∃ p now, Steps e o rows may (opening e o rows archive) p ∧ p.Over ∧
      (run e o rows archive).1 = collect e rows now p.results := by
  obtain ⟨now, hrun⟩ := run_eq e o rows archive
  obtain ⟨p, hsteps, h⟩ := steps_moment hmay
    (Pool.inTurn (o.workers e.run.reentrant (flaggedRows rows).length) (flaggedRows rows).length)
  refine ⟨p, now, hsteps, h.over ?_, by rw [hrun, h.results]⟩
  refine Pool.over_run (shift e o) archive fun w hw => ?_
  rw [Pool.count_inTurn, if_pos hw]

end Survey

end Culprit
