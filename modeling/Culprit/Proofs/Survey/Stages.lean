import Culprit.Proofs.Baseline.Callers
import Culprit.Proofs.Bisection.Outline
import Culprit.Survey

/-!
The bisection of a row in parts: its start, its call for a baseline, and what follows the verdict.
Taken together they come to what the bisection in one go comes to.
-/

namespace Culprit

variable {σ : Type}

namespace Survey

/-- What is asked for the baseline of a row. -/
def inquiry (e : Engine σ) (o : SurveyOptions) (row : ResultRow) : Inquiry σ :=
  ⟨e.setup (request o row).jobs, e.trusted, (request o row).target⟩

def notStarted (e : Engine σ) (o : SurveyOptions) (row : ResultRow) (now : String) : Report :=
  { e.blank (request o row) now with status := .aborted }.addIssue
    ⟨.cancelled, (request o row).variant.display, "not started"⟩

def failed (e : Engine σ) (o : SurveyOptions) (row : ResultRow) (fault : Error) (now : String) :
    Report :=
  failedReport (e.blank (request o row) now) (request o row).variant.display fault

/-- How far the bisection of a row is. -/
inductive Bearing (σ : Type) where
  | away
  /-- The units are listed; how far the call for the baseline is. -/
  | asking (now : String) (units : List SourceUnit) (visit : Visit)
  /-- The report, and the outside when the last thing that it tells of was over. -/
  | ended (report : Report) (last : Site σ)

namespace Bearing

/-- Holds the slot of its baseline. -/
def Builds (b : Bearing σ) : Prop :=
  ∃ now units, b = .asking now units .building

/-- The report, once there is one. -/
def report : Bearing σ → Report
  | .ended r _ => r
  | _ => .blank "" "" "" "" ""

/-- An upper bound of the actions that are still to come. -/
def rank : Bearing σ → Nat
  | .away => 6
  | .asking _ _ visit => visit.rank + 2
  | .ended _ _ => 0

end Bearing

/-- The units, unless there are none. -/
def someUnits (e : Engine σ) : Except Error (List SourceUnit) → Except Error (List SourceUnit)
  | .error fault => .error fault
  | .ok units => if units.isEmpty then .error (.noUnits e.lab.pipeline.name) else .ok units

/-- Everything before the call for the baseline. -/
def prepare (e : Engine σ) (o : SurveyOptions) (row : ResultRow) : StateM (Site σ) (Bearing σ) := do
  let stop ← Site.lift e.lab.cancelled
  let looked ← get
  let now ← Site.lift e.lab.now
  if stop then pure (.ended (notStarted e o row now) looked)
  else
    match someUnits e (← Site.lift e.lab.pipeline.units.result) with
    | .ok units => pure (.asking now units .called)
    | .error fault => do
      let last ← get
      let later ← Site.lift e.lab.now
      pure (.ended (failed e o row fault later) last)

/-- Everything after it. -/
def conclude (e : Engine σ) (o : SurveyOptions) (row : ResultRow) (now : String)
    (units : List SourceUnit) : Verdict → StateM (Site σ) (Report × Site σ)
  | .error detail => fun s =>
    let (later, site) := Site.lift e.lab.now s
    ((failed e o row (.baseline ((request o row).target.display ++ " with " ++ e.trusted.display)
      detail) later, s), site)
  | .ok baseline => fun s =>
    let (done, session) := (e.phases (e.experiment (request o row) baseline) units
      (e.blank (request o row) now)).runOn (.start s)
    match done with
    | .ok r =>
      let (stop, site) := Site.lift e.lab.cancelled session.site
      ((Engine.closeReport stop session r, session.site), site)
    | .error fault =>
      let (later, site) := Site.lift e.lab.now session.site
      ((failed e o row fault later, session.site), site)

/-- The ways in which a preparation can end. -/
inductive Prepares (e : Engine σ) (o : SurveyOptions) (row : ResultRow) (site : Site σ) :
    Bearing σ → Site σ → Prop
  | stop {now : String} {w w₁ : σ} (hlook : e.lab.cancelled site.world = (true, w))
      (hnow : e.lab.now w = (now, w₁)) :
      Prepares e o row site (.ended (notStarted e o row now) { site with world := w })
        { site with world := w₁ }
  | units {now : String} {units : List SourceUnit} {w w₁ w₂ : σ}
      {listed : Except Error (List SourceUnit)}
      (hlook : e.lab.cancelled site.world = (false, w)) (hnow : e.lab.now w = (now, w₁))
      (hlist : e.lab.pipeline.units.runOn w₁ = (listed, w₂))
      (hsome : someUnits e listed = .ok units) :
      Prepares e o row site (.asking now units .called) { site with world := w₂ }
  | none {now later : String} {fault : Error} {w w₁ w₂ w₃ : σ}
      {listed : Except Error (List SourceUnit)}
      (hlook : e.lab.cancelled site.world = (false, w)) (hnow : e.lab.now w = (now, w₁))
      (hlist : e.lab.pipeline.units.runOn w₁ = (listed, w₂))
      (hnone : someUnits e listed = .error fault) (hlater : e.lab.now w₂ = (later, w₃)) :
      Prepares e o row site (.ended (failed e o row fault later) { site with world := w₂ })
        { site with world := w₃ }

/-- The ways in which a row can end once there is a verdict on its baseline. -/
inductive Concludes (e : Engine σ) (o : SurveyOptions) (row : ResultRow) (now : String)
    (units : List SourceUnit) (site : Site σ) : Verdict → Report → Site σ → Site σ → Prop
  | refused {detail later : String} {w : σ} (hlater : e.lab.now site.world = (later, w)) :
      Concludes e o row now units site (.error detail)
        (failed e o row (.baseline ((request o row).target.display ++ " with " ++
          e.trusted.display) detail) later) site { site with world := w }
  | report {baseline : Baseline} {r : Report} {session : Session σ} {stop : Bool} {w : σ}
      (hphases : (e.phases (e.experiment (request o row) baseline) units
        (e.blank (request o row) now)).runOn (.start site) = (.ok r, session))
      (hlook : e.lab.cancelled session.site.world = (stop, w)) :
      Concludes e o row now units site (.ok baseline) (Engine.closeReport stop session r)
        session.site { session.site with world := w }
  | fault {baseline : Baseline} {fault : Error} {session : Session σ} {later : String} {w : σ}
      (hphases : (e.phases (e.experiment (request o row) baseline) units
        (e.blank (request o row) now)).runOn (.start site) = (.error fault, session))
      (hlater : e.lab.now session.site.world = (later, w)) :
      Concludes e o row now units site (.ok baseline) (failed e o row fault later)
        session.site { session.site with world := w }

section Parts

variable {e : Engine σ} {o : SurveyOptions} {row : ResultRow} {now later : String}
  {units : List SourceUnit} {fault : Error} {w w₁ w₂ w₃ : σ}

theorem listed_of_someUnits {listed : Except Error (List SourceUnit)}
    (h : someUnits e listed = .ok units) : listed = .ok units := by
  cases listed with
  | error fault => cases h
  | ok listed =>
      rw [someUnits] at h
      split at h
      · cases h
      · exact h

/-! What `prepare` and `conclude` come to, one branch each. -/

theorem prepare_stop {site : Site σ} (hlook : e.lab.cancelled site.world = (true, w))
    (hnow : e.lab.now w = (now, w₁)) :
    prepare e o row site =
      (.ended (notStarted e o row now) { site with world := w }, { site with world := w₁ }) := by
  rw [prepare, bind_of (Site.lift_eq hlook)]
  refine (bind_of (rfl : (get : StateM (Site σ) _) { site with world := w } = (_, _))).trans ?_
  rw [bind_of (Site.lift_eq hnow)]
  rfl

theorem prepare_units {site : Site σ} (hlook : e.lab.cancelled site.world = (false, w))
    (hnow : e.lab.now w = (now, w₁))
    {listed : Except Error (List SourceUnit)} (hlist : e.lab.pipeline.units.runOn w₁ = (listed, w₂))
    (hsome : someUnits e listed = .ok units) :
    prepare e o row site = (.asking now units .called, { site with world := w₂ }) := by
  rw [prepare, bind_of (Site.lift_eq hlook)]
  refine (bind_of (rfl : (get : StateM (Site σ) _) { site with world := w } = (_, _))).trans ?_
  rw [bind_of (Site.lift_eq hnow)]
  refine (bind_of (Site.lift_eq (a := e.lab.pipeline.units.result)
    (s := { site with world := w₁ }) hlist)).trans ?_
  rw [hsome]
  rfl

theorem prepare_none {site : Site σ} (hlook : e.lab.cancelled site.world = (false, w))
    (hnow : e.lab.now w = (now, w₁))
    {listed : Except Error (List SourceUnit)} (hlist : e.lab.pipeline.units.runOn w₁ = (listed, w₂))
    (hnone : someUnits e listed = .error fault) (hlater : e.lab.now w₂ = (later, w₃)) :
    prepare e o row site =
      (.ended (failed e o row fault later) { site with world := w₂ },
        { site with world := w₃ }) := by
  rw [prepare, bind_of (Site.lift_eq hlook)]
  refine (bind_of (rfl : (get : StateM (Site σ) _) { site with world := w } = (_, _))).trans ?_
  rw [bind_of (Site.lift_eq hnow)]
  refine (bind_of (Site.lift_eq (a := e.lab.pipeline.units.result)
    (s := { site with world := w₁ }) hlist)).trans ?_
  rw [hnone]
  refine (bind_of (rfl : (get : StateM (Site σ) _) { site with world := w₂ } = (_, _))).trans ?_
  rw [bind_of (Site.lift_eq hlater)]
  rfl

theorem prepares {b : Bearing σ} {site site' : Site σ} (h : prepare e o row site = (b, site')) :
    Prepares e o row site b site' := by
  rcases hlook : e.lab.cancelled site.world with ⟨stop, w⟩
  rcases hnow : e.lab.now w with ⟨now, w₁⟩
  cases stop with
  | true =>
      rw [prepare_stop hlook hnow] at h
      obtain ⟨rfl, rfl⟩ := Prod.mk.inj h
      exact .stop hlook hnow
  | false =>
      rcases hlist : e.lab.pipeline.units.runOn w₁ with ⟨listed, w₂⟩
      cases hsome : someUnits e listed with
      | ok units =>
          rw [prepare_units hlook hnow hlist hsome] at h
          obtain ⟨rfl, rfl⟩ := Prod.mk.inj h
          exact .units hlook hnow hlist hsome
      | error fault =>
          rcases hlater : e.lab.now w₂ with ⟨later, w₃⟩
          rw [prepare_none hlook hnow hlist hsome hlater] at h
          obtain ⟨rfl, rfl⟩ := Prod.mk.inj h
          exact .none hlook hnow hlist hsome hlater

variable {s s₁ : Archive σ} {site site' last : Site σ} {r : Report}

theorem bisectRow_stop (hlook : e.lab.cancelled s.site.world = (true, w))
    (hnow : e.lab.now w = (now, w₁)) :
    bisectRow e o row s = (notStarted e o row now, { s with site.world := w₁ }) := by
  rw [bisectRow]
  refine (bind_of (Archive.onSite_eq (Site.lift_eq hlook))).trans ?_
  refine (bind_of (Archive.onSite_eq (s := { s with site.world := w })
    (Site.lift_eq (s := { s.site with world := w }) hnow))).trans ?_
  rfl

theorem bisectRow_report (hlook : e.lab.cancelled s.site.world = (false, w))
    (hbisect : (e.bisect (request o row)).runOn { s with site.world := w } = (.ok r, s₁)) :
    bisectRow e o row s = (r, s₁) := by
  rw [bisectRow]
  refine (bind_of (Archive.onSite_eq (Site.lift_eq hlook))).trans ?_
  refine (bind_of (a := (e.bisect (request o row)).run) hbisect).trans ?_
  rfl

theorem bisectRow_fault (hlook : e.lab.cancelled s.site.world = (false, w))
    (hbisect : (e.bisect (request o row)).runOn { s with site.world := w } = (.error fault, s₁))
    (hlater : e.lab.now s₁.site.world = (later, w₁)) :
    bisectRow e o row s = (failed e o row fault later, { s₁ with site.world := w₁ }) := by
  rw [bisectRow]
  refine (bind_of (Archive.onSite_eq (Site.lift_eq hlook))).trans ?_
  refine (bind_of (a := (e.bisect (request o row)).run) hbisect).trans ?_
  refine (bind_of (Archive.onSite_eq (Site.lift_eq hlater))).trans ?_
  rfl

theorem concludes {v : Verdict} (h : conclude e o row now units v site = ((r, last), site')) :
    Concludes e o row now units site v r last site' := by
  cases v with
  | error detail =>
      rcases hlater : e.lab.now site.world with ⟨later, w⟩
      simp only [conclude, Site.lift_eq hlater] at h
      cases h
      exact .refused hlater
  | ok baseline =>
      rcases hphases : (e.phases (e.experiment (request o row) baseline) units
        (e.blank (request o row) now)).runOn (.start site) with ⟨fault | r₀, session⟩
      · rcases hlater : e.lab.now session.site.world with ⟨later, w⟩
        simp only [conclude, hphases, Site.lift_eq hlater] at h
        cases h
        exact .fault hphases hlater
      · rcases hlook : e.lab.cancelled session.site.world with ⟨stop, w⟩
        simp only [conclude, hphases, Site.lift_eq hlook] at h
        cases h
        exact .report hphases hlook

theorem runOn_listUnits {listed : Except Error (List SourceUnit)}
    (hlist : e.lab.pipeline.units.runOn s.site.world = (listed, w)) :
    e.listUnits.runOn s = (someUnits e listed, { s with site.world := w }) := by
  have hlisted : Attempt.runOn (ExceptT.mk
      (Archive.onSite (Site.lift e.lab.pipeline.units.result))) s =
        (listed, { s with site.world := w }) :=
    Archive.onSite_eq (Site.lift_eq (a := e.lab.pipeline.units.result) hlist)
  rw [Engine.listUnits, Attempt.runOn_bind, hlisted]
  cases listed with
  | error fault => rfl
  | ok units => cases units <;> rfl

section Preparation

variable {q : Request} {listed : Except Error (List SourceUnit)} {v : Verdict}
  (hnow : e.lab.now s.site.world = (now, w)) (hlist : e.lab.pipeline.units.runOn w = (listed, w₁))

include hnow hlist

/-- The first part of a bisection, when there are no units. -/
theorem runOn_prepare_none (hnone : someUnits e listed = .error fault) :
    (e.prepare q).runOn s = (.error fault, { s with site.world := w₁ }) := by
  rw [Engine.prepare, Attempt.runOn_lift_bind, Archive.onSite_eq (Site.lift_eq hnow),
    Attempt.runOn_bind, runOn_listUnits (s := { s with site.world := w }) hlist, hnone]

theorem runOn_prepare_units (hsome : someUnits e listed = .ok units)
    (hdecide : Archive.decide (e.setup q.jobs) e.trusted q.target
      ⟨{ s.site with world := w₁ }, s.baselines.reserve (Baselines.key e.trusted q.target)⟩ =
        (v, s₁)) :
    (e.prepare q).runOn s =
      ((v.mapError (.baseline (q.target.display ++ " with " ++ e.trusted.display))).map
        (now, units, ·), s₁) := by
  rw [Engine.prepare, Attempt.runOn_lift_bind, Archive.onSite_eq (Site.lift_eq hnow),
    Attempt.runOn_bind, runOn_listUnits (s := { s with site.world := w }) hlist, hsome]
  simp only
  rw [Attempt.runOn_bind, Archive.establish_eq (q := ⟨e.setup q.jobs, e.trusted, q.target⟩)
    (s := ⟨{ s.site with world := w₁ }, s.baselines⟩) hdecide]
  cases v <;> rfl

end Preparation

/-- A row that ends before its call for the baseline. -/
theorem bisectRow_ended (h : prepare e o row s.site = (.ended r last, site)) :
    bisectRow e o row s = (r, { s with site := site }) := by
  cases prepares h with
  | stop hlook hnow => exact bisectRow_stop hlook hnow
  | @none now later fault w w₁ w₂ w₃ listed hlook hnow hlist hnone hlater =>
      have hprepare : (e.prepare (request o row)).runOn { s with site.world := w } =
          (.error fault, { s with site.world := w₂ }) :=
        runOn_prepare_none (s := { s with site.world := w }) hnow hlist hnone
      have hbisect : (e.bisect (request o row)).runOn { s with site.world := w } =
          (.error fault, { s with site.world := w₂ }) := Engine.runOn_bisect_refusal hprepare
      have hfailed := bisectRow_fault hlook hbisect hlater
      exact hfailed

/-- A row that comes to its call for the baseline: the call and the rest follow. -/
theorem bisectRow_asking {visit : Visit} {v : Verdict}
    (h : prepare e o row s.site = (.asking now units visit, site))
    (hdecide : Archive.decide (inquiry e o row).setup (inquiry e o row).trusted
      (inquiry e o row).target ⟨site, s.baselines.reserve (inquiry e o row).key⟩ = (v, s₁))
    (hconclude : conclude e o row now units v s₁.site = ((r, last), site')) :
    bisectRow e o row s = (r, { s₁ with site := site' }) := by
  cases prepares h with
  | @units _ _ w w₁ w₂ listed hlook hnow hlist hsome =>
      have hprepare : (e.prepare (request o row)).runOn { s with site.world := w } = _ :=
        runOn_prepare_units (s := { s with site.world := w }) hnow hlist hsome hdecide
      cases concludes hconclude with
      | refused hlater =>
          exact bisectRow_fault hlook (Engine.runOn_bisect_refusal hprepare) hlater
      | report hphases hlook' =>
          exact bisectRow_report hlook (Engine.runOn_bisect hprepare hphases hlook')
      | @fault _ fault session _ _ hphases hlater =>
          have hbisect : (e.bisect (request o row)).runOn { s with site.world := w } =
              (.error fault, { s₁ with site := session.site }) :=
            Engine.runOn_bisect_error hprepare hphases
          have hfailed := bisectRow_fault hlook hbisect hlater
          exact hfailed

end Parts

end Survey

end Culprit
