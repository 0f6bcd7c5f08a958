import Culprit.Proofs.Baseline.Founding
import Culprit.Proofs.Bisection.Signs
import Culprit.Proofs.Survey.Serial

/-!
A survey on an outside that gives each question one answer. Each row then comes to what its
bisection comes to on its own, whichever rows are bisected at the same time, in whatever order, and
whether its baseline is its own or was built for another row.
-/

namespace Culprit

variable {σ : Type}

/-! ### What is seen of an entry -/

/-- The scores as they are, and of the texts what `blur` leaves. -/
def Look.blurred (blur : String → String) : Look := ⟨id, blur⟩

def SurveyEntry.through (g : Look) (x : SurveyEntry) : SurveyEntry :=
  { x with report := x.report.through g }

def SurveyEntry.renumber (π : Nat → Nat) (x : SurveyEntry) : SurveyEntry :=
  { x with index := π x.index }

/-! ### Outsides with one answer to each question -/

/-- What is seen of the answers, which depends on nothing but what is asked. Trusted flags are
always the same. -/
structure Answers where
  units : Except Error (List SourceUnit)
  /-- The symbols of a unit. -/
  listed : SourceUnit → Except String (List LinkSymbol)
  /-- What the baseline of a target prints, or why there is none. -/
  output : Target → Except String String
  /-- What the trial of a partition with these variant flags comes to. -/
  outcome : Flags → Target → Partition → Outcome

namespace Answers

/-- The partitions that the bisection of a row can submit. -/
def Tries (a : Answers) (units : List SourceUnit) (p : Partition) : Prop :=
  (fileSpace units).Accepts p ∨
    ∃ u ∈ units, ∃ symbols, a.listed u = .ok symbols ∧ (symbolSpace u symbols).Accepts p

/-- The verdict looks like the answer, with some times. -/
def Gives (a : Answers) (g : Look) (trusted : Flags) (target : Target) (v : Verdict) : Prop :=
  ∃ buildMs runMs, v.mapError g.text =
    (a.output target).map fun text => ⟨target, trusted, text, buildMs, runMs⟩

variable {a : Answers} {g : Look} {trusted : Flags} {target : Target} {v : Verdict}

theorem Gives.refused (h : a.Gives g trusted target v) {detail : String}
    (houtput : a.output target = .error detail) : ∃ d, v = .error d ∧ g.text d = detail := by
  obtain ⟨buildMs, runMs, h⟩ := h
  rw [houtput] at h
  cases v with
  | error d => exact ⟨d, rfl, Except.error.inj h⟩
  | ok baseline => cases h

theorem Gives.founded (h : a.Gives g trusted target v) {text : String}
    (houtput : a.output target = .ok text) :
    ∃ buildMs runMs, v = .ok ⟨target, trusted, text, buildMs, runMs⟩ := by
  obtain ⟨buildMs, runMs, h⟩ := h
  rw [houtput] at h
  cases v with
  | error d => cases h
  | ok baseline => exact ⟨buildMs, runMs, congrArg _ (Except.ok.inj h)⟩

end Answers

/-- An outside for which `calm` holds is not asked to stop. What the bisection of `q` asks is
answered in a way that looks like `a`, and the outside is calm again afterwards. What others do to
it in the meantime may be part of what it does. -/
structure Engine.Answered (e : Engine σ) (g : Look) (a : Answers) (calm : σ → Prop) (q : Request) :
    Prop where
  going {w : σ} : calm w → (e.lab.cancelled w).1 = false
  looked {w : σ} : calm w → calm (e.lab.cancelled w).2
  timed {w : σ} : calm w → calm (e.lab.now w).2
  lists {w : σ} : calm w → ∃ w', e.lab.pipeline.units.runOn w = (a.units, w') ∧ calm w'
  founds {units : List SourceUnit} {w : σ} : a.units = .ok units → calm w →
    ∃ inv : Track → σ → Prop, inv .empty w ∧ (∀ t w', inv t w' → t.Housed → calm w') ∧
      (e.setup q.jobs).Founds e.trusted q.target units g.text (a.output q.target) inv
  tries {units : List SourceUnit} {w : σ} {text : String} (buildMs runMs : Nat) :
    a.units = .ok units → a.output q.target = .ok text → calm w →
    ∃ inv : Track → σ → Prop, inv .empty w ∧ (∀ t w', inv t w' → t.Housed → calm w') ∧
      (e.experiment q ⟨q.target, e.trusted, text, buildMs, runMs⟩).SteadyThrough g (a.Tries units)
        (a.outcome q.variant q.target) inv ∧
      ∀ u ∈ units, e.ListsThrough g inv u (a.listed u)

namespace Survey

variable {e : Engine σ} {g : Look} {a : Answers} {calm : σ → Prop} {o o' : SurveyOptions}
  {row : ResultRow} {now now' : String} {units : List SourceUnit}
  {site site' site₁ site₁' last last' : Site σ} {v v' : Verdict} {r r' : Report}

/-! ### One row, whenever it is bisected -/

theorem target_request (htest : o.defaultTest = o'.defaultTest) (row : ResultRow) :
    (request o row).target = (request o' row).target := by
  rw [request, request, Request.target, Request.target, htest]

theorem blank_through (htest : o.defaultTest = o'.defaultTest) (now now' : String) :
    (e.blank (request o row) now).through g = (e.blank (request o' row) now').through g := by
  simp [Engine.blank, Report.blank, Report.through, request, htest]

theorem failed_through (htest : o.defaultTest = o'.defaultTest) (fault : Error)
    (now now' : String) :
    (failed e o row fault now).through g = (failed e o' row fault now').through g := by
  simp only [failed, Engine.blank, request, htest]
  cases fault <;> rfl

/-- Of the reason why there is no baseline only what is seen counts. -/
theorem unfounded_through (htest : o.defaultTest = o'.defaultTest) {detail detail' : String}
    (h : g.text detail = g.text detail') (context context' : String) (now now' : String) :
    (failed e o row (.baseline context detail) now).through g =
      (failed e o' row (.baseline context' detail') now').through g := by
  simp only [failed, failedReport, Report.withoutBaseline, Engine.blank, request, htest]
  exact Report.addIssue_alike rfl (congrArg (Issue.mk .noBaseline _) h)

/-- The phases come to the same whatever happened outside before, and leave it calm. -/
theorem phases_alike (hg : g.Shown) (ha : e.Answered g a calm (request o row))
    (ha' : e.Answered g a calm (request o' row)) (htest : o.defaultTest = o'.defaultTest)
    (hunits : a.units = .ok units) {text : String}
    (houtput : a.output (request o row).target = .ok text) (buildMs runMs buildMs' runMs' : Nat)
    (hcalm : calm site.world) (hcalm' : calm site'.world) {done done' : Except Error Report}
    {session session' : Session σ}
    (h : (e.phases (e.experiment (request o row) ⟨(request o row).target, e.trusted, text, buildMs,
      runMs⟩) units (e.blank (request o row) now)).runOn (.start site) = (done, session))
    (h' : (e.phases (e.experiment (request o' row) ⟨(request o' row).target, e.trusted, text,
      buildMs', runMs'⟩) units (e.blank (request o' row) now')).runOn (.start site') =
        (done', session')) :
    Alike (InvImage Eq (Report.through g)) done done' ∧
      session.through g = session'.through g ∧ calm session.site.world ∧
      calm session'.site.world := by
  have htarget := target_request htest row
  obtain ⟨inv, hstart, hback, hsteady, hlists⟩ := ha.tries buildMs runMs hunits houtput hcalm
  obtain ⟨inv', hstart', hback', hsteady', hlists'⟩ :=
    ha'.tries buildMs' runMs' hunits (htarget ▸ houtput) hcalm'
  have houtcome : a.outcome (request o' row).variant (request o' row).target =
      a.outcome (request o row).variant (request o row).target := by
    rw [htarget]
    rfl
  rw [houtcome] at hsteady'
  have hblank : (e.blank (request o row) now).through g =
      (e.blank (request o' row) now').through g := blank_through htest now now'
  have hstep := Engine.phases_inStep (Engine.inStep_of_through hg rfl rfl (fun _ => .inl)
    (fun u hu symbols hlisted p hp => .inr ⟨u, hu, symbols, hlisted, hp⟩) hsteady hsteady' hlists
    hlists') hblank
  have habreast : Session.Abreast g inv inv' (.start site) (.start site') :=
    ⟨⟨.empty, hstart, fun _ hq => absurd hq List.not_mem_nil⟩,
      ⟨.empty, hstart', fun _ hq => absurd hq List.not_mem_nil⟩, rfl⟩
  obtain ⟨halike, ⟨t, hworld, hhoused⟩, ⟨t', hworld', hhoused'⟩, hsessions⟩ :=
    hstep _ _ habreast
  rw [h, h'] at halike hsessions
  rw [h] at hworld
  rw [h'] at hworld'
  exact ⟨halike, hsessions, hback t _ hworld hhoused, hback' t' _ hworld' hhoused'⟩

/-- Once there is a baseline, the phases run, and the report tells what they came to. -/
theorem Concludes.phases {baseline : Baseline}
    (h : Concludes e o row now units site (.ok baseline) r last site₁) :
    ∃ done session, (e.phases (e.experiment (request o row) baseline) units
        (e.blank (request o row) now)).runOn (.start site) = (done, session) ∧
      match done with
      | .ok r₀ => r = Engine.closeReport (e.lab.cancelled session.site.world).1 session r₀ ∧
          site₁.world = (e.lab.cancelled session.site.world).2
      | .error f => ∃ later, r = failed e o row f later ∧
          site₁.world = (e.lab.now session.site.world).2 := by
  cases h with
  | report hphases hlook => exact ⟨_, _, hphases, by simp [hlook]⟩
  | fault hphases hlater => exact ⟨_, _, hphases, _, rfl, by simp [hlater]⟩

/-- What follows the verdict comes to the same whatever happened outside before, and leaves it
calm. -/
theorem Concludes.alike (hg : g.Shown) (ha : e.Answered g a calm (request o row))
    (ha' : e.Answered g a calm (request o' row)) (htest : o.defaultTest = o'.defaultTest)
    (hunits : a.units = .ok units) (hcalm : calm site.world) (hcalm' : calm site'.world)
    (hv : a.Gives g e.trusted (request o row).target v)
    (hv' : a.Gives g e.trusted (request o' row).target v')
    (h : Concludes e o row now units site v r last site₁)
    (h' : Concludes e o' row now' units site' v' r' last' site₁') :
    r.through g = r'.through g ∧ calm site₁.world := by
  have htarget := target_request htest row
  cases houtput : a.output (request o row).target with
  | error detail =>
      obtain ⟨d, rfl, hd⟩ := hv.refused houtput
      obtain ⟨d', rfl, hd'⟩ := hv'.refused (htarget ▸ houtput)
      cases h with
      | refused hlater =>
          cases h' with
          | refused hlater' =>
              exact ⟨unfounded_through htest (hd.trans hd'.symm) _ _ _ _,
                by simpa [hlater] using ha.timed hcalm⟩
  | ok text =>
      obtain ⟨buildMs, runMs, rfl⟩ := hv.founded houtput
      obtain ⟨buildMs', runMs', rfl⟩ := hv'.founded (htarget ▸ houtput)
      obtain ⟨done, session, hphases, hend⟩ := h.phases
      obtain ⟨done', session', hphases', hend'⟩ := h'.phases
      obtain ⟨halike, hsessions, hback, hback'⟩ := phases_alike hg ha ha' htest hunits houtput
        buildMs runMs buildMs' runMs' hcalm hcalm' hphases hphases'
      cases halike with
      | error fault =>
          obtain ⟨later, rfl, hworld⟩ := hend
          obtain ⟨later', rfl, -⟩ := hend'
          exact ⟨failed_through htest _ _ _, hworld ▸ ha.timed hback⟩
      | ok hr =>
          obtain ⟨rfl, hworld⟩ := hend
          obtain ⟨rfl, -⟩ := hend'
          rw [ha.going hback, ha.going hback']
          exact ⟨Engine.closeReport_alike hsessions hr false, hworld ▸ ha.looked hback⟩

/-- What a row can come to where the answers are these, whenever it is bisected. -/
inductive Comes (e : Engine σ) (g : Look) (a : Answers) (calm : σ → Prop) (o : SurveyOptions)
    (row : ResultRow) : Report → Prop
  | refused {fault : Error} {now : String} (hnone : someUnits e a.units = .error fault) :
      Comes e g a calm o row (failed e o row fault now)
  | concluded {units : List SourceUnit} {now : String} {v : Verdict} {r : Report}
      {site last site₁ : Site σ} (hsome : someUnits e a.units = .ok units) (hcalm : calm site.world)
      (hv : a.Gives g e.trusted (request o row).target v)
      (hend : Concludes e o row now units site v r last site₁) : Comes e g a calm o row r

/-- A row comes to one report, up to the times. -/
theorem Comes.through_eq (hg : g.Shown) (ha : e.Answered g a calm (request o row))
    (ha' : e.Answered g a calm (request o' row)) (htest : o.defaultTest = o'.defaultTest)
    (h : Comes e g a calm o row r) (h' : Comes e g a calm o' row r') :
    r.through g = r'.through g := by
  cases h with
  | refused hnone =>
      cases h' with
      | refused hnone' =>
          obtain rfl := Except.error.inj (hnone.symm.trans hnone')
          exact failed_through htest _ _ _
      | concluded hsome' _ _ _ => cases hnone.symm.trans hsome'
  | concluded hsome hcalm hv hend =>
      cases h' with
      | refused hnone' => cases hsome.symm.trans hnone'
      | concluded hsome' hcalm' hv' hend' =>
          obtain rfl := Except.ok.inj (hsome.symm.trans hsome')
          exact (hend.alike hg ha ha' htest (listed_of_someUnits hsome) hcalm hcalm' hv hv' hend').1

/-- Where a row is while the answers are these. -/
def Station.Abides (e : Engine σ) (g : Look) (a : Answers) (calm : σ → Prop) (o : SurveyOptions)
    (row : ResultRow) (s : Station σ) : Prop :=
  calm s.view.world ∧
    match s.bearing with
    | .away => True
    | .asking _ units visit => someUnits e a.units = .ok units ∧
        ∀ v, visit.verdict? = some v → a.Gives g e.trusted (request o row).target v
    | .ended r _ => Comes e g a calm o row r

theorem Prepares.abides {b : Bearing σ} (ha : e.Answered g a calm (request o row))
    (hcalm : calm site.world) (h : Prepares e o row site b site₁) :
    Station.Abides e g a calm o row ⟨b, site₁⟩ := by
  have hlisted {now : String} {w w₁ w₂ : σ} {listed : Except Error (List SourceUnit)}
      (hlook : e.lab.cancelled site.world = (false, w)) (hnow : e.lab.now w = (now, w₁))
      (hlist : e.lab.pipeline.units.runOn w₁ = (listed, w₂)) : listed = a.units ∧ calm w₂ := by
    have hw : calm w := by simpa [hlook] using ha.looked hcalm
    have hw₁ : calm w₁ := by simpa [hnow] using ha.timed hw
    obtain ⟨w₃, hanswer, hw₃⟩ := ha.lists hw₁
    obtain ⟨rfl, rfl⟩ := Prod.mk.inj (hlist.symm.trans hanswer)
    exact ⟨rfl, hw₃⟩
  cases h with
  | stop hlook hnow => exact absurd (congrArg Prod.fst hlook) (by simp [ha.going hcalm])
  | units hlook hnow hlist hsome =>
      obtain ⟨rfl, hw⟩ := hlisted hlook hnow hlist
      exact ⟨hw, hsome, fun v hv => by cases hv⟩
  | none hlook hnow hlist hnone hlater =>
      obtain ⟨rfl, hw⟩ := hlisted hlook hnow hlist
      exact ⟨by simpa [hlater] using ha.timed hw, .refused hnone⟩

/-- The build of a baseline comes to the answer and leaves the outside calm. -/
theorem compute_gives (ha : e.Answered g a calm (request o row)) (hunits : a.units = .ok units)
    (hcalm : calm site.world)
    (h : (Archive.compute (inquiry e o row).setup (inquiry e o row).trusted
      (inquiry e o row).target).run site = (v, site₁)) :
    a.Gives g e.trusted (request o row).target v ∧ calm site₁.world := by
  obtain ⟨w, hlist, hw⟩ := ha.lists hcalm
  obtain ⟨inv, hstart, hback, hfounds⟩ := ha.founds hunits hw
  obtain ⟨v', buildMs, runMs, site₂, t, hcompute, hv, hworld, hhoused⟩ :=
    Archive.compute_output hfounds (hunits ▸ hlist) hstart fun _ hq => absurd hq List.not_mem_nil
  obtain ⟨rfl, rfl⟩ := Prod.mk.inj (h.symm.trans hcompute)
  exact ⟨⟨buildMs, runMs, hv⟩, hback t _ hworld hhoused⟩

/-! ### All rows at the same time -/

/-- The verdicts that are kept for these rows are the answers. -/
def Truthful (e : Engine σ) (g : Look) (a : Answers) (o : SurveyOptions) (rows : List ResultRow)
    (B : Baselines) : Prop :=
  ∀ row ∈ rows, row.isFlagged = true → ∀ v,
    B.slot? (inquiry e o row).key = some (some v) → a.Gives g e.trusted (request o row).target v

/-- The outside answers what is asked for these rows, and other targets have other keys. -/
structure Settled (e : Engine σ) (g : Look) (a : Answers) (calm : σ → Prop) (o : SurveyOptions)
    (rows : List ResultRow) : Prop where
  answers : ∀ row ∈ rows, row.isFlagged = true → e.Answered g a calm (request o row)
  keys : ∀ row ∈ rows, ∀ row' ∈ rows, row.isFlagged = true → row'.isFlagged = true →
    (inquiry e o row).key = (inquiry e o row').key →
      (request o row).target = (request o row').target

/-- The baselines and every row are where the answers lead. -/
structure Floor.Abides (e : Engine σ) (g : Look) (a : Answers) (calm : σ → Prop) (o : SurveyOptions)
    (rows : List ResultRow) (f : Floor σ) : Prop where
  truthful : Truthful e g a o rows f.baselines
  stations : ∀ job ∈ flaggedRows rows, (f.station job.2).Abides e g a calm o job.1

section Crews

variable {rows : List ResultRow} {job : ResultRow × Nat} {f f' : Floor σ} {B : Baselines}

theorem flagged_of_mem (hjob : job ∈ flaggedRows rows) :
    job.1 ∈ rows ∧ job.1.isFlagged = true := by
  obtain ⟨hget, hflagged⟩ := mem_flaggedRows.mp hjob
  exact ⟨List.mem_of_getElem? hget, hflagged⟩

theorem Truthful.reserve (h : Truthful e g a o rows B) (key : String) :
    Truthful e g a o rows (B.reserve key) := by
  intro row hrow hflagged v hslot
  rw [Baselines.slot?_reserve] at hslot
  split at hslot
  · next heq =>
      refine h row hrow hflagged v ?_
      rw [heq]
      cases hfound : B.slot? key with
      | none => simp [hfound] at hslot
      | some found => simpa [hfound] using hslot
  · exact h row hrow hflagged v hslot

theorem Truthful.store (hs : Settled e g a calm o rows) (h : Truthful e g a o rows B)
    (hjob : job ∈ flaggedRows rows) (hv : a.Gives g e.trusted (request o job.1).target v) :
    Truthful e g a o rows (B.store (inquiry e o job.1).key v) := by
  obtain ⟨hjob, hjobFlagged⟩ := flagged_of_mem hjob
  intro row hrow hflagged v' hslot
  rw [Baselines.slot?_store] at hslot
  split at hslot
  · next heq =>
      obtain ⟨found, -, rfl⟩ : ∃ found, _ ∧ v = v' := by simpa using hslot
      exact hs.keys row hrow job.1 hjob hflagged hjobFlagged heq ▸ hv
  · exact h row hrow hflagged v' hslot

theorem Floor.Abides.put (h : f.Abides e g a calm o rows) (hjob : job ∈ flaggedRows rows)
    (hB : Truthful e g a o rows B) {s : Station σ} (hs : s.Abides e g a calm o job.1) :
    (f.put job.2 B s.bearing s.view).Abides e g a calm o rows := by
  refine ⟨hB, fun job' hjob' => ?_⟩
  by_cases hk : job'.2 = job.2
  · obtain rfl := eq_of_position hjob' hjob hk
    rw [Floor.put_self]
    exact hs
  · rw [Floor.put_other _ _ _ _ hk]
    exact h.stations job' hjob'

theorem Act.abides (hg : g.Shown) (hs : Settled e g a calm o rows) (hjob : job ∈ flaggedRows rows)
    (hf : f.Abides e g a calm o rows) (h : Act e o rows job f f') :
    f'.Abides e g a calm o rows := by
  have ha := hs.answers _ (flagged_of_mem hjob).1 (flagged_of_mem hjob).2
  obtain ⟨hcalm, hbearing⟩ := hf.stations job hjob
  cases h with
  | prepare haway hprepare =>
      exact hf.put hjob hf.truthful (s := ⟨_, _⟩) ((prepares hprepare).abides ha hcalm)
  | reserve hasking =>
      rw [hasking] at hbearing
      exact hf.put hjob (hf.truthful.reserve _) (s := ⟨.asking _ _ .waiting, _⟩)
        ⟨hcalm, hbearing.1, nofun⟩
  | @answer now units v hasking hfree hfound =>
      rw [hasking] at hbearing
      refine hf.put hjob hf.truthful (s := ⟨.asking _ _ (.given v), _⟩) ⟨hcalm, hbearing.1, ?_⟩
      rintro _ ⟨⟩
      exact hf.truthful job.1 (flagged_of_mem hjob).1 (flagged_of_mem hjob).2 v hfound
  | enter hasking hfree hempty =>
      rw [hasking] at hbearing
      exact hf.put hjob (B := f.baselines.countBuild) hf.truthful (s := ⟨.asking _ _ .building, _⟩)
        ⟨hcalm, hbearing.1, nofun⟩
  | @leave now units v view stop w hasking hran hlook =>
      rw [hasking] at hbearing
      obtain ⟨hv, hview⟩ := compute_gives ha (listed_of_someUnits hbearing.1) hcalm hran
      obtain rfl := (congrArg Prod.fst hlook).symm.trans (ha.going hview)
      refine hf.put hjob (hf.truthful.store hs hjob hv) (s := ⟨.asking _ _ (.built v true), _⟩)
        ⟨by simpa [hlook] using ha.looked hview, hbearing.1, ?_⟩
      rintro v ⟨⟩
      exact hv
  | conclude hasking hverdict hconclude =>
      rw [hasking] at hbearing
      have hend := concludes hconclude
      have hv := hbearing.2 _ hverdict
      exact hf.put hjob hf.truthful (s := ⟨.ended _ _, _⟩)
        ⟨(hend.alike hg ha ha rfl (listed_of_someUnits hbearing.1) hcalm hcalm hv hv hend).2,
          .concluded hbearing.1 hcalm hv hend⟩

theorem acts_abide (hg : g.Shown) (hs : Settled e g a calm o rows) (hjob : job ∈ flaggedRows rows)
    (hf : f.Abides e g a calm o rows) (hacts : Relation.ReflTransGen (Act e o rows job) f f') :
    f'.Abides e g a calm o rows := by
  induction hacts with
  | refl => exact hf
  | tail _ hact ih => exact hact.abides hg hs hjob ih

/-- The outside is calm, and the verdicts that are kept are the answers. -/
structure Kept (e : Engine σ) (g : Look) (a : Answers) (calm : σ → Prop) (o : SurveyOptions)
    (rows : List ResultRow) (s : Archive σ) : Prop where
  calm : calm s.site.world
  truthful : Truthful e g a o rows s.baselines

variable {archive s : Archive σ} {p : Crew σ}

/-- Before any row has begun. -/
theorem Kept.abides (h : Kept e g a calm o rows s) :
    Floor.Abides e g a calm o rows ⟨s.baselines, fun _ => ⟨.away, s.site⟩⟩ :=
  ⟨h.truthful, fun _ _ => ⟨h.calm, trivial⟩⟩

theorem bisectRow_comes (hg : g.Shown) (hs : Settled e g a calm o rows)
    (hjob : job ∈ flaggedRows rows) (h : Kept e g a calm o rows s) :
    Comes e g a calm o job.1 (bisectRow e o job.1 s).1 ∧
      Kept e g a calm o rows (bisectRow e o job.1 s).2 := by
  have hidle : Idle (⟨s.baselines, fun _ => ⟨.away, s.site⟩⟩ : Floor σ) := by
    rintro k ⟨now, units, hbuilds⟩
    cases hbuilds
  obtain ⟨last, hacts⟩ := row_acts e o rows job s hidle rfl rfl
  have hf := acts_abide hg hs hjob h.abides hacts
  have hstation := hf.stations job hjob
  rw [Floor.put_self] at hstation
  exact ⟨hstation.2, hstation.1, hf.truthful⟩

/-- The outside that others leave to a row is calm. -/
def Calmly (calm : σ → Prop) (_ : Bearing σ) (view view' : Site σ) : Prop :=
  calm view.world → calm view'.world

theorem steps_abide (hg : g.Shown) (hs : Settled e g a calm o rows)
    (h : Kept e g a calm o rows archive)
    (hsteps : Steps e o rows (Calmly calm) (opening e o rows archive) p) :
    p.state.Abides e g a calm o rows := by
  refine floor_steps (Floor.Abides e g a calm o rows) (accounts_opening e o rows archive) h.abides
    (fun f k view hf hcalmly => ?_)
    (fun job f f' hjob hf hact => hact.abides hg hs hjob hf) hsteps
  refine ⟨hf.truthful, fun job hjob => ?_⟩
  by_cases hk : job.2 = k
  · subst hk
    rw [Floor.put_self]
    exact ⟨hcalmly (hf.stations job hjob).1, (hf.stations job hjob).2⟩
  · rw [Floor.put_other _ _ _ _ hk]
    exact hf.stations job hjob

theorem kept_moment (hg : g.Shown) (hs : Settled e g a calm o rows)
    (h : Kept e g a calm o rows archive) (schedule : List Nat) :
    Kept e g a calm o rows (moment e o rows archive schedule).state :=
  (Pool.accounts_start archive).state_run (I := Kept e g a calm o rows) (steadfast_shift e o)
    (labelled_shift e o) (fun _ hjob _ hkept => (bisectRow_comes hg hs hjob hkept).2) schedule h

end Crews

/-! ### Whole surveys -/

/-- What is seen of the entries of the rows, each bisected on its own after `s`. -/
def entriesAlone (e : Engine σ) (g : Look) (o : SurveyOptions) (rows : List ResultRow)
    (s : Archive σ) : List SurveyEntry :=
  (flaggedRows rows).map fun job =>
    SurveyEntry.through g ⟨job.2, job.1, (bisectRow e o job.1 s).1⟩

section Entries

variable {alone : SurveyOptions} {rows rows' : List ResultRow} {archive s : Archive σ}
  {π : Equiv.Perm Nat}

theorem entries_eq (hg : g.Shown) (hs : Settled e g a calm o rows)
    (hs' : Settled e g a calm alone rows) (htest : o.defaultTest = alone.defaultTest)
    (hkept : Kept e g a calm alone rows s) {x : SurveyReport} (hcomplete : Complete rows x)
    (hcomes : ∀ y ∈ x.entries, Comes e g a calm o y.row y.report) :
    x.entries.map (SurveyEntry.through g) = entriesAlone e g alone rows s := by
  rw [entriesAlone, ← hcomplete.labels, List.map_map]
  refine List.map_congr_left fun y hy => ?_
  have hjob : label y ∈ flaggedRows rows := hcomplete.labels ▸ List.mem_map_of_mem hy
  obtain ⟨hrow, hflagged⟩ := flagged_of_mem hjob
  have hreport := (hcomes y hy).through_eq hg (hs.answers _ hrow hflagged)
    (hs'.answers _ hrow hflagged) htest (bisectRow_comes hg hs' hjob hkept).1
  exact congrArg (SurveyEntry.mk y.index y.row) hreport

/-- However the crew got there, its entries are those of the rows on their own. -/
theorem steps_entries (hg : g.Shown) (hs : Settled e g a calm o rows)
    (hs' : Settled e g a calm alone rows) (htest : o.defaultTest = alone.defaultTest)
    (hkept : Kept e g a calm alone rows s) (harchive : Kept e g a calm o rows archive) {p : Crew σ}
    (hsteps : Steps e o rows (Calmly calm) (opening e o rows archive) p) (hover : p.Over)
    (now : String) : (collect e rows now p.results).entries.map (SurveyEntry.through g) =
      entriesAlone e g alone rows s := by
  obtain ⟨hcomplete, htold⟩ := complete_steps hsteps hover now
  refine entries_eq hg hs hs' htest hkept hcomplete fun x hx => ?_
  obtain ⟨last, hlast⟩ := htold x hx
  have hjob : label x ∈ flaggedRows rows := hcomplete.labels ▸ List.mem_map_of_mem hx
  have hstation := ((steps_abide hg hs harchive hsteps).stations _ hjob).2
  rwa [show (p.state.station (label x).2).bearing = .ended x.report last from hlast] at hstation

theorem flaggedRows_perm (hπ : ∀ i, rows'[i]? = rows[π i]?) :
    ((flaggedRows rows').map fun job => (job.1, π job.2)).Perm (flaggedRows rows) := by
  have hnodup (rows : List ResultRow) : ((flaggedRows rows).map Prod.snd).Nodup :=
    List.pairwise_map.mpr ((pairwise_flaggedRows rows).imp Nat.ne_of_lt)
  have hmoved : ((flaggedRows rows').map fun job => (job.1, π job.2)).Nodup := by
    refine (List.Nodup.of_map Prod.snd (hnodup rows')).map fun job job' heq => ?_
    obtain ⟨hrow, hindex⟩ := Prod.mk.inj heq
    exact Prod.ext hrow (π.injective hindex)
  refine (List.perm_ext_iff_of_nodup hmoved (.of_map Prod.snd (hnodup rows))).mpr
    fun ⟨row, i⟩ => ⟨fun hmem => ?_, fun hmem => ?_⟩
  · obtain ⟨⟨row', i'⟩, hjob, heq⟩ := List.mem_map.mp hmem
    obtain ⟨rfl, rfl⟩ := Prod.mk.inj heq
    rw [mem_flaggedRows, hπ] at hjob
    exact mem_flaggedRows.mpr hjob
  · refine List.mem_map.mpr ⟨(row, π.symm i), ?_, by simp⟩
    rw [mem_flaggedRows, hπ, π.apply_symm_apply]
    exact mem_flaggedRows.mp hmem

theorem entriesAlone_perm (hπ : ∀ i, rows'[i]? = rows[π i]?) :
    ((entriesAlone e g o rows' s).map (SurveyEntry.renumber π)).Perm
      (entriesAlone e g o rows s) := by
  have hperm := (flaggedRows_perm hπ).map fun job =>
    SurveyEntry.through g ⟨job.2, job.1, (bisectRow e o job.1 s).1⟩
  rw [List.map_map] at hperm
  rw [entriesAlone, List.map_map]
  exact hperm

theorem Settled.moved (hs : Settled e g a calm o rows) (hπ : ∀ i, rows'[i]? = rows[π i]?) :
    Settled e g a calm o rows' := by
  have hmem {row : ResultRow} (hrow : row ∈ rows') : row ∈ rows := by
    obtain ⟨i, hget⟩ := List.mem_iff_getElem?.mp hrow
    exact List.mem_of_getElem? (hπ i ▸ hget)
  exact ⟨fun row hrow => hs.answers row (hmem hrow),
    fun row hrow row' hrow' => hs.keys row (hmem hrow) row' (hmem hrow')⟩

/-- Whatever the workers do, they can come to their end, and what is seen of the entries is `xs`
then; and so it is in the survey that takes the rows one after the other. -/
structure Yields (e : Engine σ) (g : Look) (calm : σ → Prop) (o : SurveyOptions)
    (rows : List ResultRow) (archive : Archive σ) (xs : List SurveyEntry) : Prop where
  ends : ∀ p, Steps e o rows (Calmly calm) (opening e o rows archive) p →
    ∃ p', Steps e o rows (Calmly calm) p p' ∧ p'.Over
  entries : ∀ p now, Steps e o rows (Calmly calm) (opening e o rows archive) p → p.Over →
    (collect e rows now p.results).entries.map (SurveyEntry.through g) = xs
  serial : (run e o rows archive).1.entries.map (SurveyEntry.through g) = xs

theorem yields_alone (hg : g.Shown) (hs : Settled e g a calm o rows)
    (hs' : Settled e g a calm alone rows) (htest : o.defaultTest = alone.defaultTest)
    (hkept : Kept e g a calm alone rows s) (harchive : Kept e g a calm o rows archive) :
    Yields e g calm o rows archive (entriesAlone e g alone rows s) where
  ends _ hsteps := completes_opening hsteps
  entries _ now hsteps hover := steps_entries hg hs hs' htest hkept harchive hsteps hover now
  serial := by
    have hmay (schedule : List Nat) : Calmly calm (.away : Bearing σ) archive.site
        (moment e o rows archive schedule).state.site :=
      fun _ => (kept_moment hg hs harchive schedule).calm
    obtain ⟨p, now, hsteps, hover, hrun⟩ := run_steps hmay
    rw [hrun]
    exact steps_entries hg hs hs' htest hkept harchive hsteps hover now

end Entries

/-- Where the outside answers each question in one way, up to what `blur` takes out of the texts,
nobody asks to stop, and other targets have other keys, a survey comes to what each flagged row
comes to on its own with nothing built before, up to the times and those texts: however many rows
are bisected at the same time, with however many jobs, in whatever order the workers act, whoever
builds a baseline first, and whatever true verdicts are kept already. Rows in another order have the
same entries, with other numbers. -/
theorem run_alone (e : Engine σ) (blur : String → String) (a : Answers) (calm : σ → Prop)
    (alone : SurveyOptions) (rows : List ResultRow) (start : σ) (hstart : calm start)
    (hsettled : ∀ o : SurveyOptions, o.defaultTest = alone.defaultTest →
      Settled e (.blurred blur) a calm o rows) :
    (∀ o archive, o.defaultTest = alone.defaultTest →
      Kept e (.blurred blur) a calm o rows archive →
      Yields e (.blurred blur) calm o rows archive
        (entriesAlone e (.blurred blur) alone rows ⟨⟨start, .empty⟩, .empty⟩)) ∧
    ∀ (rows' : List ResultRow) (π : Equiv.Perm Nat), (∀ i, rows'[i]? = rows[π i]?) →
      (∀ o archive, o.defaultTest = alone.defaultTest →
        Kept e (.blurred blur) a calm o rows' archive →
        Yields e (.blurred blur) calm o rows' archive
          (entriesAlone e (.blurred blur) alone rows' ⟨⟨start, .empty⟩, .empty⟩)) ∧
      ((entriesAlone e (.blurred blur) alone rows' ⟨⟨start, .empty⟩, .empty⟩).map
          (SurveyEntry.renumber π)).Perm
        (entriesAlone e (.blurred blur) alone rows ⟨⟨start, .empty⟩, .empty⟩) := by
  have hshown : (Look.blurred blur).Shown := fun _ => rfl
  have hfresh (rows : List ResultRow) :
      Kept e (.blurred blur) a calm alone rows ⟨⟨start, .empty⟩, .empty⟩ :=
    ⟨hstart, fun row _ _ v hslot => by cases hslot⟩
  have hyields {rows : List ResultRow} (hs : ∀ o : SurveyOptions,
      o.defaultTest = alone.defaultTest → Settled e (.blurred blur) a calm o rows)
      (o : SurveyOptions) (archive : Archive σ) (htest : o.defaultTest = alone.defaultTest)
      (harchive : Kept e (.blurred blur) a calm o rows archive) :=
    yields_alone hshown (hs o htest) (hs alone rfl) htest (hfresh rows) harchive
  refine ⟨hyields hsettled, fun rows' π hπ => ⟨?_, entriesAlone_perm hπ⟩⟩
  exact hyields fun o htest => (hsettled o htest).moved hπ

end Survey

/-! ### Three rows on a shelf -/

namespace Scenario

variable (c : Scenario)

/-- The trials of a request on a shelf, with a baseline that prints `text`. -/
def trials (q : Request) (text : String) (buildMs runMs : Nat) : Experiment Shelf :=
  c.engine.experiment q ⟨q.target, c.engine.trusted, text, buildMs, runMs⟩

/-- What the build with trusted flags prints, or why it does not. -/
def printed : Except String String :=
  match c.ends (.allTrusted .units (keysOf c.units)) with
  | .error e => .error (Failure.display ⟨.build, e.message⟩)
  | .ok ended =>
    if ended.success then .ok ended.stdout else .error (Failure.display ⟨.run, ended.summary⟩)

def answers : Answers where
  units := .ok c.units
  listed := fun u => .ok (c.symbols u)
  output := fun _ => c.printed
  outcome := fun _ _ => c.truth (c.trials request (c.printed.toOption.getD "") 0 0)

variable {c}

theorem founds (hstops : ∀ ps, c.stops ps = false) (start : Shelf) (q : Request) :
    (c.engine.setup q.jobs).Founds c.engine.trusted q.target c.units id c.printed
      (c.Agrees start) := by
  let x : Experiment Shelf := { c.trials q "" 0 0 with variant := c.engine.trusted }
  have hx : x.Steady (fun _ => True) (c.truth x) (c.Agrees start) := steady _ start rfl rfl hstops
  have hran {t : Track} {w w' : Shelf} {dir : String} {made : Built}
      {r : Except Failure (String × Nat)} (hw : c.Agrees start t w)
      (hmem : ⟨dir, .allTrusted .units (keysOf c.units), made⟩ ∈ t.products)
      (hrun : (x.execute made.executable x.target dir).run w = (r, w')) :
      (r.map Prod.fst).mapError Failure.display = c.printed := by
    obtain ⟨hmade, ended, hends⟩ := hw.products _ hmem
    rw [execute_eq rfl rfl hmade hends] at hrun
    obtain ⟨rfl, -⟩ := Prod.mk.inj hrun
    rw [printed, show c.ends (.allTrusted .units (keysOf c.units)) = .ok ended from hends]
    cases hsuccess : ended.success <;> simp [hsuccess, Except.map, Except.mapError]
  refine {
    entered := hx.entered
    barred := fun _ hmake => ?_
    stored := fun hw hdir hempty hbuild => hx.stored hw trivial hdir hempty hbuild
    unbuilt := fun hw hdir hempty hbuild =>
      ⟨?_, (hx.unbuilt hw trivial hdir hempty hbuild).2⟩
    failed := fun hw hmem hrun => ⟨(hran hw hmem hrun).symm, (hx.ran hw trivial hmem hrun).2⟩
    printed := fun hw hmem hrun => ⟨(hran hw hmem hrun).symm, (hx.ran hw trivial hmem hrun).2⟩
    left := hx.left }
  · rw [show (c.engine.setup q.jobs).lab = c.lab from rfl, makeDirectory_eq] at hmake
    cases hmake
  · have hbuild' := (build_eq (x := x) rfl hstops _ _ _).symm.trans hbuild
    rw [printed]
    cases hends : c.ends (.allTrusted .units (keysOf c.units)) with
    | ok ended =>
        simp only [hends] at hbuild'
        cases hbuild'
    | error e =>
        simp only [hends] at hbuild'
        cases hbuild'
        rfl

theorem answered (hstops : ∀ ps, c.stops ps = false) (q : Request) :
    c.engine.Answered (.blurred id) c.answers (fun _ => True) q where
  going _ := hstops _
  looked _ := trivial
  timed _ := trivial
  lists {w} _ := ⟨w, rfl, trivial⟩
  founds {units w} hunits _ := by
    obtain rfl : c.units = units := Except.ok.inj hunits
    exact ⟨_, c.agrees_start w, fun _ _ _ _ => trivial, founds hstops w q⟩
  tries {units w text} buildMs runMs hunits houtput _ := by
    obtain rfl : c.units = units := Except.ok.inj hunits
    have hx : (c.trials q text buildMs runMs).Steady (c.answers.Tries c.units)
        (c.truth (c.trials q text buildMs runMs)) (c.Agrees w) := steady _ w rfl rfl hstops
    refine ⟨_, c.agrees_start w, fun _ _ _ _ => trivial, hx.through fun p _ => ?_, fun u _ => ?_⟩
    · have hprinted : c.printed.toOption.getD "" = text := by
        rw [show c.printed = .ok text from houtput]
        rfl
      show _ = c.truth (c.trials request (c.printed.toOption.getD "") 0 0) p
      rw [hprinted]
      show (c.truth (c.trials request text 0 0) p).through _ = _
      cases c.truth (c.trials request text 0 0) p <;> rfl
    · intro t s hs hhoused
      obtain ⟨t', s', hrun, hworld, hhoused', -⟩ :=
        runOn_within_symbols hx rfl (c.lists w u) hs hhoused
      exact ⟨_, t', s', hrun, rfl, hworld, hhoused'⟩

end Scenario

namespace Survey

/-- The first two rows have one baseline. -/
def sharedRows : List ResultRow :=
  [⟨"t", "double", "g++", "-O3", "", some 1⟩, ⟨"t", "double", "g++", "-O2", "", some 1⟩,
    ⟨"u", "double", "g++", "-O3", "", some 2⟩]

/-- The three rows from the last to the first. -/
def sharedRowsBack : List ResultRow :=
  [⟨"u", "double", "g++", "-O3", "", some 2⟩, ⟨"t", "double", "g++", "-O2", "", some 1⟩,
    ⟨"t", "double", "g++", "-O3", "", some 1⟩]

theorem sharedRowsBack_eq (i : Nat) :
    sharedRowsBack[i]? = sharedRows[Equiv.swap 0 2 i]? := by
  match i with
  | 0 => rfl
  | 1 => rfl
  | 2 => rfl
  | i + 3 =>
      rw [Equiv.swap_apply_of_ne_of_ne (by omega) (by omega)]
      rfl

theorem settled_sharedRows (o : SurveyOptions) :
    Settled (printing "x").engine (.blurred id) (printing "x").answers (fun _ => True) o
      sharedRows where
  answers row _ _ := Scenario.answered (fun _ => rfl) (request o row)
  keys row hrow row' hrow' _ _ hkey := by
    have hflags : '|' ∉ (printing "x").engine.trusted.display.toList := by decide +kernel
    have hprecision : ∀ row ∈ sharedRows, '|' ∉ row.precision.toList := by decide +kernel
    exact (Baselines.key_inj hflags hflags (hprecision row hrow) (hprecision row' hrow') hkey).2

theorem kept_fresh (rows : List ResultRow) (o : SurveyOptions) :
    Kept (printing "x").engine (.blurred id) (printing "x").answers (fun _ => True) o rows fresh :=
  ⟨trivial, fun _ _ _ _ hslot => by cases hslot⟩

/-- Two workers, three jobs in each build, and two rows that share a baseline. -/
theorem run_alone_sharedRows :
    Yields (printing "x").engine (.blurred id) (fun _ => True) ⟨2, 3, "t"⟩ sharedRows fresh
      (entriesAlone (printing "x").engine (.blurred id) ⟨1, 1, "t"⟩ sharedRows fresh) ∧
    Yields (printing "x").engine (.blurred id) (fun _ => True) ⟨2, 3, "t"⟩ sharedRowsBack fresh
      (entriesAlone (printing "x").engine (.blurred id) ⟨1, 1, "t"⟩ sharedRowsBack fresh) ∧
    ((entriesAlone (printing "x").engine (.blurred id) ⟨1, 1, "t"⟩ sharedRowsBack fresh).map
        (SurveyEntry.renumber (Equiv.swap 0 2))).Perm
      (entriesAlone (printing "x").engine (.blurred id) ⟨1, 1, "t"⟩ sharedRows fresh) := by
  obtain ⟨hyields, hmoved⟩ := run_alone (printing "x").engine id (printing "x").answers
    (fun _ => True) ⟨1, 1, "t"⟩ sharedRows .empty trivial fun o _ => settled_sharedRows o
  obtain ⟨hback, hperm⟩ := hmoved sharedRowsBack (Equiv.swap 0 2) sharedRowsBack_eq
  exact ⟨hyields _ fresh rfl (kept_fresh _ _), hback _ fresh rfl (kept_fresh _ _), hperm⟩

end Survey

end Culprit
