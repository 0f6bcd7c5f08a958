import Culprit.Proofs.Bisection.Cancellation
import Culprit.Proofs.Bisection.Statuses
import Culprit.Proofs.Survey.Serial

/-!
A survey that may be asked to stop. A row whose end comes after the request is aborted and says why.
From its first look to its first trial a row does not look again, nor does it at some places of its
phases; a request that comes there is taken for a failure.
-/

namespace Culprit

variable {σ : Type}

namespace Survey

/-- Requests to stop come before the row begins, or where it looks next. -/
structure Guarded (e : Engine σ) (o : SurveyOptions) (row : ResultRow) (fired : σ → Prop)
    (may : Bearing σ → Site σ → Site σ → Prop) : Prop where
  seen {w : σ} : (e.lab.cancelled w).1 = true ↔ fired (e.lab.cancelled w).2
  lists {w : σ} : ¬fired w → ¬fired (e.lab.pipeline.units.runOn (e.lab.now w).2).2
  waits {now : String} {units : List SourceUnit} {visit : Visit} {view view' : Site σ} :
    may (.asking now units visit) view view' → ¬fired view.world → ¬fired view'.world
  builds {site : Site σ} : ¬fired site.world →
    ¬fired (e.lab.cancelled ((Archive.compute (inquiry e o row).setup (inquiry e o row).trusted
      (inquiry e o row).target).run site).2.world).2
  phases {units : List SourceUnit} {baseline : Baseline} {site : Site σ} :
    (∃ w w', e.lab.pipeline.units.runOn w = (.ok units, w')) → ¬fired site.world →
    e.Guarded (e.experiment (request o row) baseline) fired site units

/-- A row that is not over has not met a request, unless it has not begun; one that is over and had
met a request is aborted and has an issue for it. -/
def Station.Candid (e : Engine σ) (fired : σ → Prop) (s : Station σ) : Prop :=
  match s.bearing with
  | .away => True
  | .asking _ units _ =>
      ¬fired s.view.world ∧ ∃ w w', e.lab.pipeline.units.runOn w = (.ok units, w')
  | .ended r last => fired last.world → r.status = .aborted ∧ ∃ i ∈ r.issues, i.kind = .cancelled

section Rows

variable {e : Engine σ} {o : SurveyOptions} {rows : List ResultRow} {row : ResultRow}
  {fired : σ → Prop} {may : Bearing σ → Site σ → Site σ → Prop} {now : String}
  {units : List SourceUnit} {site site' last : Site σ} {b : Bearing σ} {v : Verdict} {r : Report}

theorem notStarted_candid (e : Engine σ) (o : SurveyOptions) (row : ResultRow) (now : String) :
    (notStarted e o row now).status = .aborted ∧
      ∃ i ∈ (notStarted e o row now).issues, i.kind = .cancelled :=
  ⟨rfl, _, List.mem_append_right _ List.mem_cons_self, rfl⟩

theorem Prepares.candid (hg : Guarded e o row fired may) (h : Prepares e o row site b site') :
    Station.Candid e fired ⟨b, site'⟩ := by
  -- A look that finds no request comes before the units are listed.
  have hlisted {now : String} {w w₁ w₂ : σ} {listed : Except Error (List SourceUnit)}
      (hlook : e.lab.cancelled site.world = (false, w)) (hnow : e.lab.now w = (now, w₁))
      (hlist : e.lab.pipeline.units.runOn w₁ = (listed, w₂)) : ¬fired w₂ := by
    have hgoing : ¬fired w := by simpa [hlook] using (hg.seen (w := site.world)).not
    simpa [hnow, hlist] using hg.lists hgoing
  cases h with
  | stop hlook hnow => exact fun _ => notStarted_candid e o row _
  | units hlook hnow hlist hsome =>
      exact ⟨hlisted hlook hnow hlist, _, _, listed_of_someUnits hsome ▸ hlist⟩
  | none hlook hnow hlist hnone hlater =>
      exact fun hfired => absurd hfired (hlisted hlook hnow hlist)

/-- The phases of a row begin before any request, and what they come to says whether one was met. -/
theorem phases_told {baseline : Baseline} {session : Session σ} {stop : Bool} {w : σ}
    (hg : e.Guarded (e.experiment (request o row) baseline) fired site units)
    (hgoing : ¬fired site.world)
    (hphases : (e.phases (e.experiment (request o row) baseline) units
      (e.blank (request o row) now)).runOn (.start site) = (.ok r, session))
    (hlook : e.lab.cancelled session.site.world = (stop, w)) (hfired : fired session.site.world) :
    (Engine.closeReport stop session r).status = .aborted ∧
      ∃ i ∈ (Engine.closeReport stop session r).issues, i.kind = .cancelled := by
  have hblank : (e.blank (request o row) now).Searched := .inl rfl
  have hkeys : (Search.keys (fileSpace units)).Nodup := by
    by_contra hrepeated
    obtain ⟨fault, hfault⟩ := e.phases_repeated (e.experiment (request o row) baseline) hrepeated
      (e.blank (request o row) now) (.start site)
    cases hphases.symm.trans hfault
  have hstart : ¬(Session.start site).Asked fired := hgoing
  obtain ⟨r', s', hphases', hcandid⟩ := Engine.phases_candid hg hkeys .start hstart
    (r := e.blank (request o row) now) Evidence.covers_nil
  obtain ⟨hr, rfl⟩ := Prod.mk.inj (hphases.symm.trans hphases')
  obtain rfl : r = r' := Except.ok.inj hr
  refine ⟨?_, hcandid.told hfired⟩
  have hstop : stop = true := by
    have hkept := hg.latched.keeps.lab.cancelled _ hfired
    have hseen := hg.latched.seen (w := session.site.world)
    exact (congrArg Prod.fst hlook).symm.trans (hseen.mpr hkept)
  rcases Engine.phases_searched hblank hphases with hcompleted | ⟨outcome, hconfirm⟩
  · rw [Engine.closeReport, hstop]
    rcases hcompleted with hcompleted | haborted
    · simp [hcompleted]
    · simp [haborted]
  · -- Without a divergence the trial of the whole was the last, and no request came during it.
    obtain ⟨_, s₁, hconfirm', -, hgoing₁, -⟩ := Search.confirm_candid hkeys
      (Engine.bench_watched e site hg.latched) hg.files .start hstart
    obtain ⟨-, rfl⟩ := Prod.mk.inj (hconfirm.symm.trans hconfirm')
    exact absurd hfired hgoing₁

theorem Concludes.candid (hg : Guarded e o row fired may)
    (h : Concludes e o row now units site v r last site') (hgoing : ¬fired site.world)
    (hlisted : ∃ w w', e.lab.pipeline.units.runOn w = (.ok units, w')) (hfired : fired last.world) :
    r.status = .aborted ∧ ∃ i ∈ r.issues, i.kind = .cancelled := by
  cases h with
  | refused hlater => exact absurd hfired hgoing
  | report hphases hlook => exact phases_told (hg.phases hlisted hgoing) hgoing hphases hlook hfired
  | @fault baseline _ _ _ _ hphases hlater =>
      -- Phases end with an error before their first trial only.
      have hguarded : e.Guarded (e.experiment (request o row) baseline) fired site units :=
        hg.phases hlisted hgoing
      by_cases hkeys : (Search.keys (fileSpace units)).Nodup
      · obtain ⟨r', s', hphases', -⟩ := Engine.phases_candid hguarded hkeys .start
          (show ¬(Session.start site).Asked fired from hgoing) (r := e.blank (request o row) now)
          Evidence.covers_nil
        rw [hphases'] at hphases
        cases hphases
      · obtain ⟨fault', hphases'⟩ := e.phases_repeated (e.experiment (request o row) baseline) hkeys
          (e.blank (request o row) now) (.start site)
        obtain ⟨-, rfl⟩ := Prod.mk.inj (hphases.symm.trans hphases')
        exact absurd hfired hgoing

theorem Act.candid {job : ResultRow × Nat} {f f' : Floor σ} (hg : Guarded e o job.1 fired may)
    (h : Act e o rows job f f') (hs : (f.station job.2).Candid e fired) :
    (f'.station job.2).Candid e fired := by
  rw [Station.Candid] at hs
  cases h with
  | prepare haway hprepare =>
      rw [Floor.put_self]
      exact (prepares hprepare).candid hg
  | reserve hasking =>
      rw [hasking] at hs
      rw [Floor.put_self]
      exact hs
  | answer hasking hfree hfound =>
      rw [hasking] at hs
      rw [Floor.put_self]
      exact hs
  | enter hasking hfree hempty =>
      rw [hasking] at hs
      rw [Floor.put_self]
      exact hs
  | leave hasking hran hlook =>
      rw [hasking] at hs
      rw [Floor.put_self]
      refine ⟨?_, hs.2⟩
      simpa [hran, hlook] using hg.builds hs.1
  | conclude hasking hverdict hconclude =>
      rw [hasking] at hs
      rw [Floor.put_self]
      exact (concludes hconclude).candid hg hs.1 hs.2

/-- Whatever the others do, each row that looks for requests is candid. -/
theorem candid_steps {archive : Archive σ} {p : Crew σ}
    (hsteps : Steps e o rows may (opening e o rows archive) p) :
    ∀ job ∈ flaggedRows rows, Guarded e o job.1 fired may →
      (p.state.station job.2).Candid e fired := by
  refine floor_steps (fun f => ∀ job ∈ flaggedRows rows, Guarded e o job.1 fired may →
    (f.station job.2).Candid e fired) (accounts_opening e o rows archive) (fun _ _ _ => trivial)
    (fun f k view hf hmay job hjob hg => ?_) (fun job f f' hjob hf hact job' hjob' hg => ?_) hsteps
  · have hs := hf job hjob hg
    by_cases hk : job.2 = k
    · subst hk
      rw [Floor.put_self]
      rw [Station.Candid] at hs ⊢
      cases hb : (f.station job.2).bearing with
      | away => trivial
      | asking now units visit =>
          rw [hb] at hs hmay
          exact ⟨hg.waits hmay hs.1, hs.2⟩
      | ended r last =>
          rw [hb] at hs
          exact hs
    · rwa [Floor.put_other _ _ _ _ hk]
  · by_cases hk : job'.2 = job.2
    · obtain rfl := eq_of_position hjob' hjob hk
      exact hact.candid hg (hf job' hjob' hg)
    · obtain ⟨B, b, view, rfl, -⟩ := hact.puts
      rw [Floor.put_other _ _ _ _ hk]
      exact hf job' hjob' hg

end Rows

/-- Whatever the results and the options, in whatever order the workers act and whenever they are
asked to stop: a survey can always come to its end, and then there is one entry for each flagged
row. A row that takes requests only before it begins or where it looks next is aborted and has an
issue for the request, if this came before the last thing that its report tells of was over. A
survey that takes the rows one after the other is such a run. -/
theorem run_candid (e : Engine σ) (o : SurveyOptions) (rows : List ResultRow) (archive : Archive σ)
    (fired : σ → Prop) (may : Bearing σ → Site σ → Site σ → Prop) :
    (∀ p, Steps e o rows may (opening e o rows archive) p →
      ∃ p', Steps e o rows may p p' ∧ p'.Over) ∧
    (∀ p now, Steps e o rows may (opening e o rows archive) p → p.Over →
      Complete rows (collect e rows now p.results) ∧
      ∀ x ∈ (collect e rows now p.results).entries, ∃ last,
        (p.state.station x.index).bearing = .ended x.report last ∧
        (Guarded e o x.row fired may → fired last.world →
          x.report.status = .aborted ∧ ∃ i ∈ x.report.issues, i.kind = .cancelled)) ∧
    ((∀ schedule, may .away archive.site (moment e o rows archive schedule).state.site) →
      ∃ p now, Steps e o rows may (opening e o rows archive) p ∧ p.Over ∧
        (run e o rows archive).1 = collect e rows now p.results) := by
  refine ⟨fun p hsteps => completes_opening hsteps, fun p now hsteps hover => ?_, run_steps⟩
  obtain ⟨hcomplete, htold⟩ := complete_steps hsteps hover now
  refine ⟨hcomplete, fun x hx => ?_⟩
  obtain ⟨last, hlast⟩ := htold x hx
  refine ⟨last, hlast, fun hg => ?_⟩
  have hcandid := candid_steps hsteps (x.row, x.index) (mem_flaggedRows.mpr (hcomplete.own x hx)) hg
  rw [Station.Candid, hlast] at hcandid
  exact hcandid

/-! ### A request while the first of two rows is searched -/

namespace TwoRows

def rows : List ResultRow :=
  [⟨"t", "double", "g++", "-O3", "", some 1⟩, ⟨"u", "double", "g++", "-O3", "", some 2⟩]

def first : ResultRow × Nat := (⟨"t", "double", "g++", "-O3", "", some 1⟩, 0)

def second : ResultRow × Nat := (⟨"u", "double", "g++", "-O3", "", some 2⟩, 1)

theorem flaggedRows_eq : flaggedRows rows = [first, second] := by decide +kernel

/-- The others ask a row to stop before it begins or after its call for the baseline. -/
def may (b : Bearing Shelf) (view view' : Site Shelf) : Prop :=
  ∀ now units visit, b = .asking now units visit → view' = view

theorem guarded (row : ResultRow) :
    Guarded Interrupted.engine twoAtATime row Interrupted.fired may where
  seen := Iff.rfl
  lists hgoing := hgoing
  waits hmay hgoing := by rwa [hmay _ _ _ rfl]
  phases _ _ := Interrupted.guarded_lab rfl _ _
  builds {site} hgoing := by
    -- A baseline has no variant members, and no such build is interrupted.
    let x : Experiment Shelf :=
      { (Interrupted.engine.experiment (request twoAtATime row) Interrupted.baseline) with
        variant := Interrupted.engine.trusted }
    have hkeeps : x.Keeps (fun p => p.variant = []) fun w => ¬Interrupted.fired w := by
      refine Scenario.keeps (c := Interrupted.scenario) rfl _
        (fun ps => ¬Interrupted.scenario.stops ps = true) fun p ps hp h => ?_
      rw [Interrupted.stops_cons]
      rintro (⟨-, hlarge⟩ | h')
      · rw [hp] at hlarge
        exact absurd hlarge (by decide)
      · exact h h'
    exact hkeeps.compute (fun _ h => h) rfl (fun _ => rfl) site hgoing

/-- The first row takes all its actions, and the request comes while its files are searched. -/
theorem first_acts {f : Floor Shelf} (hidle : Idle f) (hstation : f.station 0 = ⟨.away, fresh.site⟩)
    (hbaselines : f.baselines = fresh.baselines) : ∃ B r last view,
      Relation.ReflTransGen (Act Interrupted.engine twoAtATime rows first) f
        (f.put 0 B (.ended r last) view) ∧ Interrupted.fired last.world := by
  have hprepare : prepare Interrupted.engine twoAtATime first.1 fresh.site =
      (.asking "" Interrupted.scenario.units .called, fresh.site) := rfl
  have hstart : Act Interrupted.engine twoAtATime rows first f
      (f.put 0 fresh.baselines (.asking "" Interrupted.scenario.units .called) fresh.site) := by
    rw [← hbaselines]
    exact .prepare (by rw [show first.2 = 0 from rfl, hstation])
      (by rw [show first.2 = 0 from rfl, hstation]; exact hprepare)
  obtain ⟨visit, v, s₁, hverdict, hdecide, hcall⟩ := call_acts Interrupted.engine twoAtATime rows
    first hidle "" Interrupted.scenario.units fresh.baselines fresh.site
  have hstarted : (Interrupted.engine.prepare Scenario.request).runOn fresh =
      (.ok ("", Interrupted.scenario.units, Interrupted.baseline), Interrupted.archive) := rfl
  have hdecided := runOn_prepare_units (e := Interrupted.engine) (q := Scenario.request)
    (s := fresh) rfl rfl rfl hdecide
  obtain ⟨hbaseline, rfl⟩ := Prod.mk.inj (hstarted.symm.trans hdecided)
  obtain rfl : v = .ok Interrupted.baseline := by
    cases v with
    | error detail => cases hbaseline
    | ok baseline => cases hbaseline; rfl
  rcases hconclude : conclude Interrupted.engine twoAtATime first.1 "" Interrupted.scenario.units
    (.ok Interrupted.baseline) Interrupted.archive.site with ⟨⟨r, last⟩, view⟩
  have hlast : Act Interrupted.engine twoAtATime rows first (f.put 0 Interrupted.archive.baselines
      (.asking "" Interrupted.scenario.units visit) Interrupted.archive.site) _ :=
    .conclude (congrArg Station.bearing (Floor.put_self ..)) hverdict
      (by rw [show first.2 = 0 from rfl, Floor.put_self]; exact hconclude)
  refine ⟨_, r, last, view, .tail (.trans (.single hstart) hcall) hlast.of_put, ?_⟩
  cases concludes hconclude with
  | report hphases _ => exact Interrupted.asked_phases hphases
  | fault hphases _ =>
      obtain ⟨r', session, hphases', -⟩ := Engine.phases_candid
        (Interrupted.guarded Interrupted.archive.site) (by decide) .start
        Interrupted.not_fired_archive (r := Interrupted.engine.blank Scenario.request "")
        Evidence.covers_nil
      cases hphases'.symm.trans hphases

theorem steps_both : ∃ p, Steps Interrupted.engine twoAtATime rows may
      (opening Interrupted.engine twoAtATime rows fresh) p ∧
    ∀ job ∈ flaggedRows rows, ∃ r last,
      (p.state.station job.2).bearing = .ended r last ∧ Interrupted.fired last.world := by
  let p₀ := opening Interrupted.engine twoAtATime rows fresh
  let p₁ : Crew Shelf := { p₀ with next := 1, workers := [.working first, .ready] }
  let p₂ : Crew Shelf := { p₀ with next := 2, workers := [.working first, .working second] }
  have hcrew : p₀.workers = [.ready, .ready] := by
    show List.replicate (twoAtATime.workers _ (flaggedRows rows).length) Worker.ready = _
    rw [flaggedRows_eq]
    rfl
  have hstart : Steps Interrupted.engine twoAtATime rows may p₀ p₁ := by
    have hfetch : Steps Interrupted.engine twoAtATime rows may p₀
        ({ p₀ with next := p₀.next + 1 }.setWorker 0 (.working first)) :=
      steps_fetch rfl (by rw [hcrew]; rfl) (by rw [flaggedRows_eq]; rfl)
    rwa [Pool.setWorker, show ({ p₀ with next := p₀.next + 1 } : Crew Shelf).workers = _ from hcrew]
      at hfetch
  have hsecond : Steps Interrupted.engine twoAtATime rows may p₁
      ({ p₁ with next := p₁.next + 1 }.setWorker 1 (.working second)) :=
    steps_fetch rfl rfl (by rw [flaggedRows_eq]; rfl)
  have hidle : Idle p₂.state := by
    rintro k ⟨now, units, hbuilds⟩
    cases hbuilds
  obtain ⟨B, r, last, view, hacts, hfired⟩ := first_acts hidle rfl rfl
  let p₃ : Crew Shelf := { p₂ with state := p₂.state.put 0 B (.ended r last) view }
  have hworking : p₂.workers[0]? = some (.working first) := rfl
  have hfirst : Steps Interrupted.engine twoAtATime rows may p₂ p₃ :=
    steps_of_acts hworking hacts
  -- The other row has not begun, and its worker sees the request now.
  have haway : p₃.state.station 1 = ⟨.away, fresh.site⟩ := Floor.put_other _ _ _ _ (by decide)
  let p₄ : Crew Shelf := { p₃ with state := p₃.state.put 1 B .away last }
  have hdrift : Step Interrupted.engine twoAtATime rows may p₃ p₄ := by
    have hdrift : Step Interrupted.engine twoAtATime rows may p₃ _ :=
      .drift 1 last (by rw [haway]; rintro now units visit ⟨⟩)
    rwa [haway] at hdrift
  have hlook : Interrupted.engine.lab.cancelled last.world = (true, last.world) :=
    Prod.ext hfired rfl
  have hprepare : prepare Interrupted.engine twoAtATime second.1 last =
      (.ended (notStarted Interrupted.engine twoAtATime second.1 "") last, last) :=
    prepare_stop hlook rfl
  have hact : Act Interrupted.engine twoAtATime rows second p₄.state
      (p₄.state.put 1 B
        (.ended (notStarted Interrupted.engine twoAtATime second.1 "") last) last) := by
    refine .prepare (congrArg Station.bearing (Floor.put_self ..)) ?_
    rw [show p₄.state.station second.2 = ⟨.away, last⟩ from Floor.put_self ..]
    exact hprepare
  have hworking' : p₄.workers[1]? = some (.working second) := rfl
  refine ⟨_, .tail (.tail (.trans (.trans hstart hsecond) hfirst) hdrift)
    (.act hworking' hact), ?_⟩
  rw [flaggedRows_eq]
  refine List.forall_mem_cons.mpr ⟨⟨r, last, ?_, hfired⟩, List.forall_mem_cons.mpr
    ⟨⟨_, last, congrArg Station.bearing (Floor.put_self ..), hfired⟩, by simp⟩⟩
  have hne : (0 : Nat) ≠ 1 := by decide
  exact congrArg Station.bearing ((Floor.put_other _ _ _ _ hne).trans
    ((Floor.put_other _ _ _ _ hne).trans (Floor.put_self ..)))

end TwoRows

/-- Of two rows that are bisected at the same time, one meets the request in its search and the
other before it begins. -/
theorem run_candid_twoRows : ∃ p,
    Steps Interrupted.engine twoAtATime TwoRows.rows TwoRows.may
      (opening Interrupted.engine twoAtATime TwoRows.rows fresh) p ∧ p.Over ∧
    Complete TwoRows.rows (collect Interrupted.engine TwoRows.rows "" p.results) ∧
    ∀ x ∈ (collect Interrupted.engine TwoRows.rows "" p.results).entries,
      x.report.status = .aborted ∧ ∃ i ∈ x.report.issues, i.kind = .cancelled := by
  obtain ⟨hends, hentries, -⟩ := run_candid Interrupted.engine twoAtATime TwoRows.rows fresh
    Interrupted.fired TwoRows.may
  obtain ⟨p, hsteps, hboth⟩ := TwoRows.steps_both
  obtain ⟨p', hrest, hover⟩ := hends p hsteps
  obtain ⟨hcomplete, htold⟩ := hentries p' "" (hsteps.trans hrest) hover
  refine ⟨p', hsteps.trans hrest, hover, hcomplete, fun x hx => ?_⟩
  obtain ⟨last, hlast, hcandid⟩ := htold x hx
  obtain ⟨r, last', hbearing, hfired⟩ :=
    hboth (x.row, x.index) (mem_flaggedRows.mpr (hcomplete.own x hx))
  have haccounts := accounts_steps
    (accounts_opening Interrupted.engine twoAtATime TwoRows.rows fresh) hsteps
  have hsame := (ended_steps haccounts hbearing hrest).symm.trans hlast
  cases hsame
  exact hcandid (TwoRows.guarded x.row) hfired

/-! ### A request while the baseline of the row is built -/

/-- The request comes with the first build, which is that of the baseline. -/
def cutBaseline : Scenario where
  units := [⟨"a.c"⟩, ⟨"b.c"⟩]
  symbols := fun _ => []
  ends := fun p => .ok ⟨.code 0, if p.variant = [] then "" else "x", "", 1⟩
  stops := fun built => !built.isEmpty

/-- The row is said to have no baseline, and the request is not reported. -/
theorem report_cutBaseline :
    ((bisectRow cutBaseline.engine twoAtATime TwoRows.first.1 fresh).1.status,
      (bisectRow cutBaseline.engine twoAtATime TwoRows.first.1 fresh).1.issues) =
        (.noBaseline,
          [⟨.noBaseline, "double g++ -O0", "build failure: build failed: cancelled"⟩]) := by
  decide +kernel

end Survey

end Culprit
