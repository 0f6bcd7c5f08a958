import Culprit.Proofs.Bisection.Conclusion
import Culprit.Proofs.Bisection.InStep
import Culprit.Proofs.Bisection.Lodging
import Culprit.Proofs.Session.Books

/-!
The trials of a report. There is one for each partition that was submitted, in the order in which
they came to an end, numbered from one on; the log and the observer got the same ones in the same
order. As many were built as are not cached. A cached one comes after the one trial of its
signature that is not, and has its outcome, unless there was a request to stop.
-/

namespace Culprit

variable {σ τ : Type}

/-! ### What is submitted -/

/-- Everything as it is. -/
def Look.plain : Look := ⟨id, id⟩

theorem Look.shown_plain : plain.Shown :=
  fun _ => rfl

namespace Testbed

/-- The testbed that writes down what it is asked to try, with what that came to. -/
def noting (d : Testbed τ) : Testbed (τ × List (Partition × Outcome)) where
  bench :=
    { cancelled := fun s => ((d.bench.cancelled s.1).1, (d.bench.cancelled s.1).2, s.2)
      batch := fun ps s => ((d.bench.batch ps s.1).1, (d.bench.batch ps s.1).2,
        s.2 ++ ps.zip (d.bench.batch ps s.1).1) }
  list := fun u s => ((d.list u s.1).1, (d.list u s.1).2, s.2)
  verify := d.verify
  symbols := d.symbols

/-- What the phases submit, in order. -/
def submissions (d : Testbed τ) (units : List SourceUnit) (r : Report) (s : τ) :
    List (Partition × Outcome) :=
  ((d.noting.phases units r).runOn (s, [])).2.2

/-- What lasts while partitions are submitted one batch after the other. -/
structure Chronicles (d : Testbed τ) (K : List (Partition × Outcome) → τ → Prop) : Prop where
  looked {log : List (Partition × Outcome)} {s : τ} : K log s → K log (d.bench.cancelled s).2
  tried {log : List (Partition × Outcome)} {s : τ} (ps : List Partition) : K log s →
    K (log ++ ps.zip (d.bench.batch ps s).1) (d.bench.batch ps s).2
  listed {log : List (Partition × Outcome)} {s : τ} (u : SourceUnit) : K log s →
    K log (d.list u s).2

variable {d : Testbed τ} {K : List (Partition × Outcome) → τ → Prop}

theorem noting_inStep (hK : d.Chronicles K) (units : List SourceUnit) :
    d.InStep .plain d.noting (fun s t => t.1 = s ∧ K t.2 s) (fun _ => True) units where
  verify := rfl
  symbols := rfl
  bench :=
    { shown := Look.shown_plain
      looked := by
        rintro s ⟨_, log⟩ ⟨rfl, hlog⟩
        exact ⟨rfl, rfl, hK.looked hlog⟩
      tried := by
        rintro ps - s ⟨_, log⟩ ⟨rfl, hlog⟩
        exact ⟨rfl, rfl, hK.tried ps hlog⟩ }
  files _ := trivial
  listed {u} _ := by
    rintro s ⟨_, log⟩ ⟨rfl, hlog⟩
    exact ⟨⟨rfl, fun _ _ _ _ => trivial⟩, rfl, hK.listed u hlog⟩

/-- Writing down what is submitted changes nothing else, and what lasts holds of it in the end. -/
theorem phases_noting (hK : d.Chronicles K) (units : List SourceUnit) (r : Report) {s : τ}
    (hs : K [] s) :
    Alike (InvImage Eq (Report.through .plain)) ((d.phases units r).runOn s).1
        ((d.noting.phases units r).runOn (s, [])).1 ∧
      ((d.noting.phases units r).runOn (s, [])).2.1 = ((d.phases units r).runOn s).2 ∧
      K (d.submissions units r s) ((d.phases units r).runOn s).2 := by
  obtain ⟨halike, hstate, hlog⟩ :=
    phases_inStep (noting_inStep hK units) (r := r) rfl s (s, []) ⟨rfl, hs⟩
  exact ⟨halike, hstate, hlog⟩

end Testbed

/-! ### What a session keeps of it -/

/-- The books after the trials `log`. -/
structure Session.Chronicled (fired : σ → Prop) (logged seen : σ → List Trial)
    (before : List Trial × List Trial) (log : List (Partition × Outcome)) (s : Session σ) :
    Prop where
  notes : s.notes = notesOf log
  counted : Experiment.Counted [] s
  filed : s.Filed logged seen before
  agrees : Experiment.Agrees fired [] [] s

namespace Engine

variable {e : Engine σ} {fired : σ → Prop} {logged seen : σ → List Trial}
  {before : List Trial × List Trial}

theorem chronicled_start (site : Site σ) : (Session.start site).Chronicled fired logged seen
    (logged site.world, seen site.world) [] :=
  ⟨rfl, rfl, Session.filed_start site, .inr (Session.start_agreed site)⟩

theorem listSymbols_filed {x : Experiment σ} (h : e.lab.Files logged seen) (unit : SourceUnit) :
    Preserves (Session.Filed logged seen before) (e.listSymbols x unit) := by
  refine Preserves.bind (Session.onSite_filed fun lists => ?_) fun _ => Preserves.ret _
  exact (h.keeps lists).within ("symbols-" ++ unit.objectStem)
    (fun dir => e.lab.pipeline.symbols unit e.trusted dir x.buildTimeout)
    fun dir w hw => (h.others.symbols unit e.trusted dir _ w).trans hw

theorem testbed_chronicles (hlab : e.lab.Latched fired) (h : e.lab.Files logged seen)
    (q : Request) (baseline : Baseline) :
    (e.testbed (e.experiment q baseline)).Chronicles
      (Session.Chronicled fired logged seen before) where
  looked {_ s} hs :=
    { notes := hs.notes
      counted := hs.counted
      filed := (Experiment.upholds_filed (x := e.experiment q baseline) h).cancelled s hs.filed
      agrees := (onward_look (hlab.experiment q baseline) s).agrees hs.agrees }
  tried {log s} ps hs :=
    { notes := by
        rw [notesOf_append, ← hs.notes]
        exact (Experiment.batch_accounted (e.experiment q baseline) ps s).1
      counted := Experiment.batch_counted (e.experiment q baseline) ps hs.counted
      filed := (Experiment.upholds_filed (x := e.experiment q baseline) h).batch ps s hs.filed
      agrees := Experiment.batch_agrees (hlab.experiment q baseline) ps hs.agrees }
  listed {_ s} unit hs :=
    { notes := hs.notes
      counted := hs.counted
      filed := listSymbols_filed h unit s hs.filed
      agrees := (onward_list hlab unit s).agrees hs.agrees }

/-- Nothing is logged or shown before the first trial. -/
theorem prepare_files (h : e.lab.Files logged seen) (q : Request) (s : Archive σ) :
    (logged ((e.prepare q).runOn s).2.site.world, seen ((e.prepare q).runOn s).2.site.world) =
      (logged s.site.world, seen s.site.world) := by
  let silenced : Engine σ := { e with lab := e.lab.silenced }
  let lists := (logged s.site.world, seen s.site.world)
  have hhouses : silenced.lab.Houses fun _ w => (logged w, seen w) = lists :=
    { spares := h.others.comp fun lists' _ => lists' = lists
      made := fun hw hmake => (h.keeps lists).makeDirectory _ |>.of_eq hmake hw
      barred := fun hw hmake => (h.keeps lists).makeDirectory _ |>.of_eq hmake hw
      left := fun hw => by
        split
        · exact (h.keeps lists).removeDirectory _ _ hw
        · exact hw }
  have hprepared := prepare_lodged hhouses Nat.one_pos q s (Site.Lodged.start (s := s.site) rfl)
  exact hprepared.world

end Engine

/-! ### The trials of a report -/

/-- Before each cached record there is exactly one of its signature that is not, and both have the
same outcome. -/
def RepeatsFollow (trials : List Trial) : Prop :=
  ∀ before t after, trials = before ++ t :: after → t.cached = true →
    ∃ u, before.filter (fun u => !u.cached && u.signature == t.signature) = [u] ∧
      u.score? = t.score? ∧ u.failure? = t.failure?

/-- The trials of a report are all there. There is one for each partition that was submitted, with
the outcome it came to; they are numbered from one on, those that are not cached are the ones that
were built, and the log and the observer got the same list. When nobody asked to stop, a cached
trial repeats the one trial of its signature before it that is not cached. -/
theorem bisect_chronicled (e : Engine σ) (q : Request) (fired : σ → Prop)
    (logged seen : σ → List Trial) (s s' : Archive σ) (r : Report) (hlab : e.lab.Latched fired)
    (hfiles : e.lab.Files logged seen) (hrun : (e.bisect q).runOn s = (.ok r, s')) :
    ∃ now units baseline s₁, (e.prepare q).runOn s = (.ok (now, units, baseline), s₁) ∧
      (r.trials.map Trial.gist).Perm
        (((e.testbed (e.experiment q baseline)).submissions units (e.blank q now)
          (.start s₁.site)).map fun a => Trial.note a.1 a.2) ∧
      r.trials.map (·.seq) = List.range' 1 r.trials.length ∧
      r.executed = r.trials.countP (!·.cached) ∧
      logged s'.site.world = logged s.site.world ++ r.trials ∧
      seen s'.site.world = seen s.site.world ++ r.trials ∧
      (¬fired s'.site.world → RepeatsFollow r.trials) := by
  obtain ⟨now, units, baseline, s₁, r₀, session, hprepare, -, -, hphases, rfl, hworld⟩ :=
    Engine.exists_phases hrun
  have hstart : (Session.start s₁.site).Chronicled fired logged seen
      (logged s₁.site.world, seen s₁.site.world) [] := Engine.chronicled_start s₁.site
  obtain ⟨-, -, hbooks⟩ := Testbed.phases_noting (Engine.testbed_chronicles hlab hfiles q baseline)
    units (e.blank q now) hstart
  rw [Engine.phases_testbed, hphases] at hbooks
  -- The preparations come before the first trial, and the last look for a request after the last.
  have hbefore : (logged s₁.site.world, seen s₁.site.world) =
      (logged s.site.world, seen s.site.world) := by
    have hkept := Engine.prepare_files hfiles q s
    rwa [hprepare] at hkept
  have hafter : (logged s'.site.world, seen s'.site.world) =
      (logged s₁.site.world ++ session.trials, seen s₁.site.world ++ session.trials) := by
    rw [hworld]
    exact (hfiles.others.cancelled session.site.world).trans hbooks.filed.lists
  obtain ⟨hlogged₁, hseen₁⟩ := Prod.mk.inj hbefore
  obtain ⟨hlogged, hseen⟩ := Prod.mk.inj hafter
  rw [hlogged₁] at hlogged
  rw [hseen₁] at hseen
  refine ⟨now, units, baseline, s₁, hprepare, ?_, hbooks.filed.numbers, ?_, hlogged, hseen,
    fun hgoing before t after hsplit hcached => ?_⟩
  · exact Multiset.coe_eq_coe.mp hbooks.notes
  · exact hbooks.counted
  · have hunasked : ¬session.Asked fired := fun hasked =>
      hgoing (hworld ▸ hlab.keeps.cancelled _ hasked)
    have hagreed := hbooks.agrees.resolve_left hunasked
    exact hagreed.recalls.one_first hagreed.owing.distinct hsplit hcached

/-! ### A lab that keeps its records -/

/-- The outside, with the records that were logged and shown. -/
structure Filing (σ : Type) where
  world : σ
  logged : List Trial
  seen : List Trial

namespace Filing

def quiet {α : Type} (a : StateM σ α) : StateM (Filing σ) α := fun s =>
  ((a s.world).1, { s with world := (a s.world).2 })

def attempt {α : Type} (a : Attempt σ α) : Attempt (Filing σ) α :=
  ExceptT.mk (quiet a.result)

end Filing

open Filing (quiet attempt)

/-- The lab with a log and an observer that keep what they get. -/
def Lab.filing (lab : Lab σ) : Lab (Filing σ) where
  cancelled := quiet lab.cancelled
  pipeline :=
    { name := lab.pipeline.name
      units := attempt lab.pipeline.units
      symbols := fun unit flags dir timeout =>
        attempt (lab.pipeline.symbols unit flags dir timeout)
      build := fun q => attempt (lab.pipeline.build q)
      compilerOf := lab.pipeline.compilerOf }
  runner call limit := attempt (lab.runner call limit)
  comparator := lab.comparator
  readText path := quiet (lab.readText path)
  makeDirectory label := attempt (lab.makeDirectory label)
  removeDirectory path := attempt (lab.removeDirectory path)
  deletes := lab.deletes
  appendLog t := ExceptT.mk fun s => (.ok (), { s with logged := s.logged ++ [t] })
  observe t s := ((), { s with seen := s.seen ++ [t] })
  now := quiet lab.now
  cwd := lab.cwd

def Engine.filing (e : Engine σ) : Engine (Filing σ) where
  lab := e.lab.filing
  run := e.run
  trusted := e.trusted
  buildTimeout := e.buildTimeout
  verify := e.verify
  symbols := e.symbols

theorem Lab.filing_files (lab : Lab σ) : lab.filing.Files Filing.logged Filing.seen where
  others := by constructor <;> intros <;> rfl
  made _ _ := rfl
  removed _ _ := rfl
  appended _ _ := ⟨_, rfl, rfl, rfl⟩
  observed _ _ := ⟨rfl, rfl⟩

theorem Lab.Latched.filing {lab : Lab σ} {fired : σ → Prop} (h : lab.Latched fired) :
    lab.filing.Latched fun s => fired s.world where
  keeps :=
    { cancelled := fun s hs => h.keeps.cancelled s.world hs
      runner := fun call limit s hs => h.keeps.runner call limit s.world hs
      readText := fun path s hs => h.keeps.readText path s.world hs
      makeDirectory := fun label s hs => h.keeps.makeDirectory label s.world hs
      removeDirectory := fun path s hs => h.keeps.removeDirectory path s.world hs
      appendLog := fun _ _ hs => hs
      observe := fun _ _ hs => hs }
  builds q s hs := h.builds q s.world hs
  lists unit flags dir timeout s hs := h.lists unit flags dir timeout s.world hs
  seen := h.seen

set_option maxRecDepth 10000 in
/-- The file is verified by the trial of all units, and the symbol by that of all symbols. -/
theorem bisect_chronicled_oneSymbol :
    ∃ r s', (oneSymbol.engine.filing.bisect Scenario.request).runOn
        ⟨⟨⟨.empty, [], []⟩, .empty⟩, .empty⟩ = (.ok r, s') ∧
      r.trials.map (·.cached) = [false, true, false, true] ∧ r.executed = 2 ∧
      s'.site.world.logged = r.trials ∧ s'.site.world.seen = r.trials ∧
      RepeatsFollow r.trials := by
  have hcached : ((oneSymbol.engine.filing.bisect Scenario.request).runOn
      ⟨⟨⟨.empty, [], []⟩, .empty⟩, .empty⟩).1.map (fun r => (r.trials.map (·.cached), r.executed)) =
        .ok ([false, true, false, true], 2) := by
    decide +kernel
  rcases hrun : (oneSymbol.engine.filing.bisect Scenario.request).runOn
    ⟨⟨⟨.empty, [], []⟩, .empty⟩, .empty⟩ with ⟨fault | r, s'⟩ <;> rw [hrun] at hcached
  · cases hcached
  · obtain ⟨htrials, hexecuted⟩ := Prod.mk.inj (Except.ok.inj hcached)
    have hlatched : oneSymbol.engine.filing.lab.Latched fun _ => False :=
      (Scenario.latched (c := oneSymbol) fun _ => rfl).filing
    obtain ⟨_, _, _, _, -, -, -, -, hlogged, hseen, hrepeats⟩ :=
      bisect_chronicled oneSymbol.engine.filing Scenario.request (fun _ => False) Filing.logged
        Filing.seen _ s' r hlatched (Lab.filing_files _) hrun
    exact ⟨r, s', rfl, htrials, hexecuted, hlogged, hseen, hrepeats id⟩

end Culprit
