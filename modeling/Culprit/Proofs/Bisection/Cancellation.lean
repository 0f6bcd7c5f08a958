import Culprit.Proofs.Bisection.Listing
import Culprit.Proofs.Bisection.Outline
import Culprit.Proofs.Search.Culprits
import Culprit.Proofs.Search.Stopped
import Culprit.Proofs.Session.Kept

/-!
A bisection that may be asked to stop. Where a look follows, a request to stop that comes during a
batch is reported as such, and no failure is blamed on what it cut short. At the trial of a whole,
the trials of single members and the listing of symbols there is no such look.
-/

namespace Culprit

variable {σ : Type}

namespace Session

/-- There was a request to stop. -/
def Asked (fired : σ → Prop) (s : Session σ) : Prop :=
  fired s.site.world

/-- The outcome of a partition is remembered. -/
def Knows (s : Session σ) (p : Partition) : Prop :=
  p.signature ∈ s.signatures

end Session

namespace Engine

/-- The states that a bisection comes to when it starts nothing after a request to stop. -/
inductive Reached (e : Engine σ) (x : Experiment σ) (fired : σ → Prop) (site : Site σ) :
    Session σ → Prop
  | start : Reached e x fired site (.start site)
  | look {s : Session σ} (h : Reached e x fired site s) :
      Reached e x fired site (x.bench.cancelled s).2
  | batch {s : Session σ} (ps : List Partition) (h : Reached e x fired site s)
      (hgoing : ¬s.Asked fired) : Reached e x fired site (x.batch ps s).2
  | list {s : Session σ} (unit : SourceUnit) (h : Reached e x fired site s)
      (hgoing : ¬s.Asked fired) : Reached e x fired site (e.listSymbols x unit s).2

/-- The trials and the listings that were over before a request to stop. -/
def evidence (e : Engine σ) (x : Experiment σ) (fired : σ → Prop) (site : Site σ) : Evidence where
  tried p o := ∃ s ps, e.Reached x fired site s ∧ ¬s.Asked fired ∧
    ¬(x.batch ps s).2.Asked fired ∧ (p, o) ∈ ps.zip (x.batch ps s).1
  listed unit symbols := ∃ s, e.Reached x fired site s ∧ ¬s.Asked fired ∧
    ¬(e.listSymbols x unit s).2.Asked fired ∧ (e.listSymbols x unit s).1 = symbols

variable {e : Engine σ} {x : Experiment σ} {fired : σ → Prop} {site : Site σ}

theorem bench_watched (e : Engine σ) (site : Site σ) (hx : x.Latched fired) :
    x.bench.Watched (·.Asked fired) (e.Reached x fired site) Session.Knows
      (e.evidence x fired site) where
  looked h := h.look
  seen := hx.seen
  latched h := hx.keeps.lab.cancelled _ h
  recalls h := h
  tried ps h hgoing := h.batch ps hgoing
  answered ps s := Experiment.length_batch ps s
  remembers hgoing _ hp := (Experiment.batch_remembers hx hp _).resolve_left hgoing
  evidence h hgoing hgoing' hmem := ⟨_, _, h, hgoing, hgoing', hmem⟩

/-- Requests to stop come where a look follows. -/
structure Guarded (e : Engine σ) (x : Experiment σ) (fired : σ → Prop) (site : Site σ)
    (units : List SourceUnit) : Prop where
  latched : x.Latched fired
  files : x.bench.Calm (·.Asked fired) (e.Reached x fired site) Session.Knows e.verify
    (fileSpace units)
  symbols {unit : SourceUnit} (listed : List LinkSymbol) : unit ∈ units →
    x.bench.Calm (·.Asked fired) (e.Reached x fired site) Session.Knows e.verify
      (symbolSpace unit listed)
  lists {unit : SourceUnit} {s : Session σ} : unit ∈ units → e.Reached x fired site s →
    ¬s.Asked fired → ¬(e.listSymbols x unit s).2.Asked fired

/-- The report of a bisection that has come to the state `s`. -/
abbrev CandidReport (e : Engine σ) (x : Experiment σ) (fired : σ → Prop) (site : Site σ)
    (r : Report) (s : Session σ) : Prop :=
  Candid (·.Asked fired) (e.Reached x fired site) (e.evidence x fired site) r.issues
    r.interactions s

section Phases

variable {units : List SourceUnit} {r : Report} {s : Session σ}

theorem candidReport_going (h : e.Reached x fired site s) (hgoing : ¬s.Asked fired)
    (hr : (e.evidence x fired site).Covers r.issues r.interactions) :
    e.CandidReport x fired site r s :=
  ⟨h, fun hasked => absurd hasked hgoing, hr⟩

theorem CandidReport.noteSearch {α : Type} {found : SearchResult α} {s' : Session σ}
    (hr : (e.evidence x fired site).Covers r.issues r.interactions)
    (h : Candid (·.Asked fired) (e.Reached x fired site) (e.evidence x fired site) found.issues
      found.interactions s') : e.CandidReport x fired site (noteSearch r found) s' where
  world := h.world
  told hasked := by
    obtain ⟨i, hi, hkind⟩ := h.told hasked
    exact ⟨i, List.mem_append_right _ hi, hkind⟩
  covers := hr.append h.covers

/-- A search, and the trial of its suspects where one is wanted. -/
theorem search_verify_candid {α : Type} [Candidate α] {space : Space α}
    (hkeys : (Search.keys space).Nodup) (hx : x.Latched fired)
    (hcalm : x.bench.Calm (·.Asked fired) (e.Reached x fired site) Session.Knows e.verify space)
    (whole : Score) (context : String) (h : e.Reached x fired site s) (hgoing : ¬s.Asked fired)
    (hr : (e.evidence x fired site).Covers r.issues r.interactions) :
    ∃ found s₁ verified r' s₂,
      (Search.search x.bench space whole).runOn s = (.ok found, s₁) ∧
      (e.verifySuspects x space found.suspects context (noteSearch r found)).runOn s₁ =
        (.ok (verified, r'), s₂) ∧
      (found.suspects.map (·.candidate)).Sublist space.candidates ∧
      e.CandidReport x fired site r' s₂ := by
  have hb := bench_watched e site hx
  obtain ⟨found, s₁, hsearch, hcandid⟩ := Search.search_candid hkeys hb hcalm whole h hgoing
  have hsub := Search.suspects_sublist hkeys hb.toLatched trivial hsearch
  have hnoted := CandidReport.noteSearch hr hcandid
  -- The trial of the suspects starts without a look, which is why `Calm` speaks of it.
  by_cases hverifies : e.verify = true ∧ found.suspects ≠ []
  · obtain ⟨hverify, hsome⟩ := hverifies
    rw [hverify] at hcalm
    obtain ⟨o, s₂, htrial, h₂, hgoing₂, htried⟩ :=
      Search.verify_candid hkeys hb hcalm h hgoing hsearch hcandid.world hsome
    refine ⟨found, s₁, _, _, s₂, hsearch,
      runOn_verifySuspects hverify hsome htrial context (noteSearch r found), hsub, ?_⟩
    cases o with
    | ok score => exact candidReport_going h₂ hgoing₂ hnoted.covers
    | error f =>
        refine candidReport_going h₂ hgoing₂ (hnoted.covers.addIssue ?_)
        exact Evidence.grounded_ofFailure htried context
  · exact ⟨found, s₁, none, noteSearch r found, s₁, hsearch,
      runOn_verifySuspects_skip hverifies context _ s₁, hsub, hnoted⟩

theorem listSymbols_fst (unit : SourceUnit) {symbols : List LinkSymbol}
    (h : (e.listSymbols x unit s).1 = .ok symbols) :
    ∃ listed, symbols = LinkSymbol.distinct [] listed := by
  rcases hwithin : Session.onSite (ExceptT.run (Site.within e.lab ("symbols-" ++ unit.objectStem)
    fun workdir => e.lab.pipeline.symbols unit e.trusted workdir x.buildTimeout)) s with ⟨r, s'⟩
  rw [listSymbols, bind_of hwithin] at h
  cases r with
  | error fault => cases h
  | ok listed => exact ⟨listed, (Except.ok.inj h).symm⟩

theorem searchSymbols_candid (hg : e.Guarded x fired site units) {unit : SourceUnit}
    (hunit : unit ∈ units) (found : Score) (listed : List LinkSymbol)
    (h : e.Reached x fired site s) (hgoing : ¬s.Asked fired)
    (hr : (e.evidence x fired site).Covers r.issues r.interactions) :
    ∃ finding r' s', (e.searchSymbols x ⟨unit, found, [], none⟩ (LinkSymbol.distinct [] listed)
      r).runOn s = (.ok (finding, r'), s') ∧ e.CandidReport x fired site r' s' := by
  have hkeys : (Search.keys (symbolSpace unit listed)).Nodup :=
    (LinkSymbol.nodup_distinct [] listed).1
  have hcalm := hg.symbols listed hunit
  obtain ⟨o, s₁, hconfirm, h₁, hgoing₁, htried⟩ :=
    Search.confirm_candid hkeys (bench_watched e site hg.latched) hcalm h hgoing
  have hspace : (⟨.symbols unit.path, LinkSymbol.distinct [] listed⟩ : Space LinkSymbol) =
      symbolSpace unit listed := rfl
  simp only [searchSymbols, hspace]
  rw [Attempt.runOn_bind, hconfirm]
  cases o with
  | error f =>
      refine ⟨_, _, s₁, rfl, candidReport_going h₁ hgoing₁ (hr.addIssue ?_)⟩
      exact Evidence.grounded_ofFailure htried _
  | ok whole =>
      cases hdivergent : whole.isDivergent with
      | false =>
          simp only [hdivergent, Bool.false_eq_true, if_false]
          exact ⟨_, _, s₁, rfl, candidReport_going h₁ hgoing₁ (hr.addIssue trivial)⟩
      | true =>
          obtain ⟨result, s₂, verified, r', s₃, hsearch, hverify, -, hcandid⟩ :=
            search_verify_candid hkeys hg.latched hcalm whole
              ("suspect symbols of " ++ unit.path ++ " variant") h₁ hgoing₁ hr
          simp only [hdivergent, if_true]
          rw [Attempt.runOn_bind, hsearch]
          simp only
          rw [Attempt.runOn_bind, hverify]
          exact ⟨_, r', s₃, rfl, hcandid⟩

theorem symbolPhase_candid (hg : e.Guarded x fired site units) {unit : SourceUnit}
    (hunit : unit ∈ units) (found : Score) (h : e.Reached x fired site s)
    (hgoing : ¬s.Asked fired)
    (hr : (e.evidence x fired site).Covers r.issues r.interactions) :
    ∃ finding r' s', (e.symbolPhase x ⟨unit, found, [], none⟩ r).runOn s =
      (.ok (finding, r'), s') ∧ e.CandidReport x fired site r' s' := by
  have hgoing₁ := hg.lists hunit h hgoing
  have h₁ := h.list unit hgoing
  have hlisted : (e.evidence x fired site).listed unit (e.listSymbols x unit s).1 :=
    ⟨s, h, hgoing, hgoing₁, rfl⟩
  rcases hlist : e.listSymbols x unit s with ⟨fault | symbols, s₁⟩ <;>
    rw [hlist] at hgoing₁ h₁ hlisted
  · rw [runOn_symbolPhase_error ⟨unit, found, [], none⟩ hlist]
    refine ⟨_, _, s₁, rfl, candidReport_going h₁ hgoing₁ (hr.addIssue ?_)⟩
    exact ⟨unit, rfl, .inr ⟨fault, hlisted, rfl⟩⟩
  · by_cases hsome : symbols = []
    · subst hsome
      rw [runOn_symbolPhase_nil ⟨unit, found, [], none⟩ hlist]
      refine ⟨_, _, s₁, rfl, candidReport_going h₁ hgoing₁ (hr.addIssue ?_)⟩
      exact ⟨unit, rfl, .inl ⟨hlisted, rfl⟩⟩
    · rw [runOn_symbolPhase ⟨unit, found, [], none⟩ hsome hlist]
      obtain ⟨listed, rfl⟩ := listSymbols_fst unit (congrArg Prod.fst hlist)
      exact searchSymbols_candid hg hunit found listed h₁ hgoing₁ hr

theorem suspectPhase_candid (hg : e.Guarded x fired site units) {suspect : Suspect SourceUnit}
    (hunit : suspect.candidate ∈ units) (hr : e.CandidReport x fired site r s) :
    ∃ r' s', (e.suspectPhase x suspect r).runOn s = (.ok r', s') ∧
      e.CandidReport x fired site r' s' := by
  have hb := bench_watched e site hg.latched
  cases hsymbols : e.symbols with
  | false =>
      refine ⟨{ r with files := r.files ++ [⟨suspect.candidate, suspect.score, [], none⟩] }, s,
        ?_, hr⟩
      rw [suspectPhase, hsymbols]
      rfl
  | true =>
      rw [suspectPhase, hsymbols]
      simp only [if_true]
      rcases hlook : x.bench.cancelled s with ⟨_ | _, s₁⟩
      · obtain ⟨finding, r', s', hphase, hcandid⟩ := symbolPhase_candid hg hunit suspect.score
          (hb.of_cancelled hr.world hlook) (hb.going hlook).1 hr.covers
        rw [Attempt.runOn_lift_bind, hlook]
        simp only [Bool.false_eq_true, if_false]
        rw [Attempt.runOn_bind, hphase]
        exact ⟨_, s', rfl, hcandid⟩
      · rw [Attempt.runOn_lift_bind, hlook]
        exact ⟨_, s₁, rfl, hb.of_cancelled hr.world hlook,
          fun _ => ⟨_, List.mem_append_right _ List.mem_cons_self, rfl⟩,
          hr.covers.addIssue trivial⟩

theorem suspectPhases_candid (hg : e.Guarded x fired site units)
    {suspects : List (Suspect SourceUnit)} (hunits : ∀ u ∈ suspects, u.candidate ∈ units)
    (hr : e.CandidReport x fired site r s) :
    ∃ r' s', (e.suspectPhases x suspects r).runOn s = (.ok r', s') ∧
      e.CandidReport x fired site r' s' := by
  induction suspects generalizing r s with
  | nil => exact ⟨r, s, rfl, hr⟩
  | cons suspect rest ih =>
      obtain ⟨hunit, hrest⟩ := List.forall_mem_cons.mp hunits
      obtain ⟨r₁, s₁, hfirst, hr₁⟩ := suspectPhase_candid hg hunit hr
      obtain ⟨r₂, s₂, hothers, hr₂⟩ := ih hrest hr₁
      refine ⟨r₂, s₂, ?_, hr₂⟩
      rw [suspectPhases, Attempt.runOn_bind, hfirst]
      exact hothers

theorem phases_candid (hg : e.Guarded x fired site units)
    (hkeys : (Search.keys (fileSpace units)).Nodup) (h : e.Reached x fired site s)
    (hgoing : ¬s.Asked fired)
    (hr : (e.evidence x fired site).Covers r.issues r.interactions) :
    ∃ r' s', (e.phases x units r).runOn s = (.ok r', s') ∧ e.CandidReport x fired site r' s' := by
  obtain ⟨o, s₁, hconfirm, h₁, hgoing₁, htried⟩ :=
    Search.confirm_candid hkeys (bench_watched e site hg.latched) hg.files h hgoing
  rw [phases, Attempt.runOn_bind, ← fileSpace, hconfirm]
  cases o with
  | error f =>
      refine ⟨_, s₁, rfl, candidReport_going h₁ hgoing₁ (hr.addIssue ?_)⟩
      exact Evidence.grounded_ofFailure htried _
  | ok whole =>
      cases hdivergent : whole.isDivergent with
      | false =>
          simp only [hdivergent, Bool.false_eq_true, if_false]
          exact ⟨_, s₁, rfl, candidReport_going h₁ hgoing₁ hr⟩
      | true =>
          obtain ⟨found, s₂, verified, r', s₃, hsearch, hverify, hsub, hcandid⟩ :=
            search_verify_candid (r := { r with whole? := some whole }) hkeys hg.latched hg.files
              whole "suspect files variant" h₁ hgoing₁ hr
          have hunits : ∀ u ∈ found.suspects, u.candidate ∈ units :=
            fun u hu => hsub.subset (List.mem_map_of_mem hu)
          simp only [hdivergent, if_true]
          rw [Attempt.runOn_bind, hsearch]
          simp only
          rw [Attempt.runOn_bind, hverify]
          exact suspectPhases_candid hg hunits
            (r := { r' with verification? := verified }) hcandid

end Phases

end Engine

/-- A bisection whose phases start before any request to stop, and whose requests come where a look
follows, either cannot tell its units apart or comes to a report. It starts no trials and no
listing after a request. The report has an issue for a request that came before the end of the
phases, and nothing in it was caused by what a request cut short. -/
theorem bisect_candid (e : Engine σ) (q : Request) (now : String) (units : List SourceUnit)
    (baseline : Baseline) (fired : σ → Prop) (s s₁ : Archive σ)
    (hprepare : (e.prepare q).runOn s = (.ok (now, units, baseline), s₁))
    (hgoing : ¬fired s₁.site.world)
    (hg : e.Guarded (e.experiment q baseline) fired s₁.site units) :
    (¬(keysOf units).Nodup ∧ ∃ fault s', (e.bisect q).runOn s = (.error fault, s')) ∨
      ∃ r s' r₀ session, (e.bisect q).runOn s = (.ok r, s') ∧
        (e.phases (e.experiment q baseline) units (e.blank q now)).runOn (.start s₁.site) =
          (.ok r₀, session) ∧
        e.Reached (e.experiment q baseline) fired s₁.site session ∧
        (fired session.site.world → ∃ i ∈ r.issues, i.kind = .cancelled) ∧
        (e.evidence (e.experiment q baseline) fired s₁.site).Covers r.issues r.interactions := by
  by_cases hkeys : (keysOf units).Nodup
  · obtain ⟨r₀, session, hphases, hcandid⟩ := Engine.phases_candid hg hkeys .start hgoing
      (r := e.blank q now) Evidence.covers_nil
    exact .inr ⟨_, _, r₀, session, Engine.runOn_bisect hprepare hphases rfl, hphases,
      hcandid.world, hcandid.told, hcandid.covers⟩
  · obtain ⟨fault, hphases⟩ := e.phases_repeated (e.experiment q baseline) hkeys (e.blank q now)
      (.start s₁.site)
    exact .inl ⟨hkeys, fault, _, Engine.runOn_bisect_error hprepare hphases⟩

/-! ### Requests on a shelf -/

namespace Interrupted

/-- Three files of which all diverge. The request to stop comes while two of them are tried. -/
def scenario : Scenario where
  units := [⟨"a.c"⟩, ⟨"b.c"⟩, ⟨"c.c"⟩]
  symbols := fun _ => []
  ends := fun p => .ok ⟨.code 0, if p.variant = [] then "" else "x", "", 1⟩
  stops := fun built => built.any fun p => decide (p.trusted ≠ [] ∧ 2 ≤ p.variant.length)

/-- Suspects are not tried together. -/
def engine : Engine Shelf :=
  { scenario.engine with verify := false }

def baseline : Baseline :=
  ⟨⟨"t", "double"⟩, ⟨"g++", "-O0", []⟩, "", 0, 1⟩

def experiment : Experiment Shelf :=
  engine.experiment Scenario.request baseline

def fired (w : Shelf) : Prop :=
  scenario.stops w.built = true

theorem stops_cons (p : Partition) (ps : List Partition) : scenario.stops (p :: ps) = true ↔
    (p.trusted ≠ [] ∧ 2 ≤ p.variant.length) ∨ scenario.stops ps = true := by
  simp [scenario]

section Lab

variable {x : Experiment Shelf} (hlab : x.lab = scenario.lab)

include hlab

theorem latched_lab : x.Latched fired where
  keeps := Scenario.keeps (c := scenario) hlab _ (fun ps => scenario.stops ps = true)
    fun p ps _ h => (stops_cons p ps).mpr (.inr h)
  seen := by rw [hlab]; exact Iff.rfl

theorem calm {α : Type} [Candidate α] (inv : Session Shelf → Prop) (space : Space α) :
    x.bench.Calm (·.Asked fired) inv Session.Knows false space where
  verified hverify := absurd hverify Bool.false_ne_true
  unwatched {s ps} _ hgoing hps := by
    have hkeeps : x.Keeps (fun p => p.trusted = [] ∨ p.variant.length = 1)
        fun w => ¬fired w := by
      refine Scenario.keeps (c := scenario) hlab _ (fun ps => ¬scenario.stops ps = true)
        fun p ps hp h => ?_
      rw [stops_cons]
      rintro (⟨hne, hlarge⟩ | h')
      · rcases hp with hnil | hone
        · exact hne hnil
        · omega
      · exact h h'
    exact Experiment.batch_keeps hkeeps hps.few hgoing

theorem guarded_lab (site : Site Shelf) (units : List SourceUnit) :
    engine.Guarded x fired site units where
  latched := latched_lab hlab
  files := calm hlab _ _
  symbols _ _ := calm hlab _ _
  lists _ _ hgoing := hgoing

end Lab

theorem latched : experiment.Latched fired := latched_lab rfl

theorem guarded (site : Site Shelf) :
    engine.Guarded experiment fired site scenario.units :=
  guarded_lab rfl site _

/-- The trials of the first batch of halves. -/
def halves : List Partition :=
  [⟨.units, ["a.c", "b.c"], ["c.c"]⟩, ⟨.units, ["c.c"], ["a.c", "b.c"]⟩]

def whole : Partition := ⟨.units, ["a.c", "b.c", "c.c"], []⟩

theorem signatures_nodup : ((whole :: halves).map Partition.signature).Nodup := by
  have hsub : whole :: halves ⊆ Search.threeTrials := by decide
  refine List.Nodup.map_on (fun p hp q hq heq => ?_) (by decide)
  exact List.inj_on_of_nodup_map Search.signatures_threeTrials (hsub hp) (hsub hq) heq

/-- Before the first trial. -/
def archive : Archive Shelf :=
  ((engine.prepare Scenario.request).runOn ⟨⟨.empty, .empty⟩, .empty⟩).2

theorem not_fired_archive : ¬fired archive.site.world := by
  show ¬(scenario.stops _ = true)
  decide +kernel

/-- After the trial of the whole. -/
def afterWhole : Session Shelf :=
  (experiment.batch [whole] (.start archive.site)).2

theorem confirm_eq : (Search.confirm experiment.bench (fileSpace scenario.units)).runOn
    (.start archive.site) = (.ok (.ok ⟨1⟩), afterWhole) := by
  have houtcomes : (experiment.batch [whole] (.start archive.site)).1 = [.ok ⟨1⟩] := by
    decide +kernel
  have hbatch : experiment.batch [whole] (.start archive.site) = ([.ok ⟨1⟩], afterWhole) := by
    rw [afterWhole, ← houtcomes, Prod.mk.eta]
  have hwhole : Search.partition (fileSpace scenario.units)
      (fileSpace scenario.units).candidates.zipIdx = .ok whole := by decide
  rw [Search.confirm, hwhole, Attempt.runOn_of_ok_bind]
  exact Attempt.runOn_lift (bind_of hbatch)

/-- After the look before the first halves. -/
def beforeHalves : Session Shelf :=
  (experiment.bench.cancelled afterWhole).2

theorem cancelled_afterWhole :
    experiment.bench.cancelled afterWhole = (false, beforeHalves) := by
  have hgoing : (experiment.bench.cancelled afterWhole).1 = false := by decide +kernel
  rw [beforeHalves, ← hgoing, Prod.mk.eta]

theorem remembered?_halves : ∀ p ∈ halves, beforeHalves.remembered? p.signature = none := by
  have hlooked (s : Session Shelf) :
      (experiment.bench.cancelled s).2.signatures = s.signatures := rfl
  have hknown : beforeHalves.signatures ⊆ [whole.signature] := by
    rw [beforeHalves, hlooked]
    exact Experiment.signatures_batch experiment [whole] (.start archive.site)
  intro p hp
  refine Session.remembered?_eq_none.mpr fun hmem => ?_
  have heq := List.mem_singleton.mp (hknown hmem)
  exact (List.nodup_cons.mp signatures_nodup).1 (heq ▸ List.mem_map_of_mem hp)

/-- The request comes during the first halves. -/
theorem asked_halves : (experiment.batch halves beforeHalves).2.Asked fired := by
  obtain ⟨hfirst, hsecond⟩ := List.forall_mem_cons.mp remembered?_halves
  have hne : halves[1].signature ∉ [halves[0].signature] := by
    have hnodup := (List.nodup_cons.mp signatures_nodup).2
    simpa [halves, eq_comm] using hnodup
  have hrecall : experiment.recallAll [] halves beforeHalves =
      (halves.map fun p => ⟨p, p.signature, .waiting⟩, beforeHalves) :=
    Experiment.recallAll_new hfirst List.not_mem_nil
      (Experiment.recallAll_new (List.forall_mem_cons.mp hsecond).1 hne rfl)
  rw [Experiment.batch, bind_of hrecall]
  show scenario.stops _ = true
  decide +kernel

/-- The look after the halves finds the request, and the search ends. -/
theorem search_afterWhole : ∃ issues s,
    (Search.search experiment.bench (fileSpace scenario.units) ⟨1⟩).runOn afterWhole =
      (.ok ⟨[], [], issues, true⟩, s) ∧ s.Asked fired := by
  have hasked := asked_halves
  rcases hbatch : experiment.batch halves beforeHalves with ⟨os, s⟩
  rw [hbatch] at hasked
  have htrials : Search.trials (fileSpace scenario.units)
      (Search.halfSets (fileSpace scenario.units).candidates.zipIdx) = halves := by decide
  let stopped : Search.Tally SourceUnit := Search.Tally.stop .empty .units 1
  have hresult : stopped.result = ⟨[], [], stopped.issues, true⟩ := by
    rw [Search.Tally.result, show stopped.found = [] from rfl, List.mergeSort_nil]
    rfl
  have hexplore : (Search.explore experiment.bench (fileSpace scenario.units)
      [⟨(fileSpace scenario.units).candidates.zipIdx, ⟨1⟩⟩] .empty).runOn afterWhole =
        (.ok stopped, s) :=
    Search.runOn_explore_putBack (by decide) (List.Sublist.refl _) (by decide)
      cancelled_afterWhole (htrials ▸ hbatch) (Prod.ext hasked rfl)
  refine ⟨stopped.issues, s, ?_, hasked⟩
  rw [Search.runOn_search, Search.Moment.finish, Search.opening, if_neg (by decide), hexplore,
    ← hresult]
  rfl

/-- So the phases end with a request that nothing was started after. -/
theorem asked_phases {r r' : Report} {session : Session Shelf}
    (h : (engine.phases experiment scenario.units r).runOn (.start archive.site) =
      (.ok r', session)) : session.Asked fired := by
  obtain ⟨issues, s, hsearch, hasked⟩ := search_afterWhole
  rw [Engine.phases, Attempt.runOn_bind, ← fileSpace, confirm_eq] at h
  simp only [show (⟨1⟩ : Score).isDivergent = true from by decide, if_true] at h
  rw [Attempt.runOn_bind, hsearch] at h
  obtain ⟨-, rfl⟩ := Prod.mk.inj h
  exact hasked

end Interrupted

/-- Three files are told apart, and what is left unexplored is reported. -/
theorem bisect_candid_interrupted :
    ∃ r s', (Interrupted.engine.bisect Scenario.request).runOn ⟨⟨.empty, .empty⟩, .empty⟩ =
        (.ok r, s') ∧ ∃ i ∈ r.issues, i.kind = .cancelled := by
  obtain ⟨hrepeated, -⟩ | ⟨r, s', r₀, session, hbisect, hphases, -, htold, -⟩ :=
    bisect_candid Interrupted.engine Scenario.request "" Interrupted.scenario.units
      Interrupted.baseline Interrupted.fired ⟨⟨.empty, .empty⟩, .empty⟩
      Interrupted.archive rfl Interrupted.not_fired_archive
      (Interrupted.guarded Interrupted.archive.site)
  · exact absurd (by decide) hrepeated
  · exact ⟨r, s', hbisect, htold (Interrupted.asked_phases hphases)⟩

/-! ### A request where no look follows -/

/-- The request to stop comes during the first trial. -/
def cutShort : Scenario where
  units := [⟨"a.c"⟩, ⟨"b.c"⟩]
  symbols := fun _ => []
  ends := fun p => .ok ⟨.code 0, if p.variant = [] then "" else "x", "", 1⟩
  stops := fun built => built.any fun p => p.variant ≠ []

/-- The trial that the request cut short is reported as a failure, and the request is not. -/
theorem issues_cutShort :
    ((cutShort.engine.bisect Scenario.request).runOn ⟨⟨.empty, .empty⟩, .empty⟩).1.map (·.issues) =
      .ok [⟨.buildFailure, "all files variant", "build failed: cancelled"⟩] := by
  decide +kernel

end Culprit
