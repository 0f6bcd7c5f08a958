import Culprit.Proofs.Bisection.InStep

/-!
Bisections whose trials fail alike and diverge alike. Of the scores only their signs steer a
bisection, so such bisections differ in their magnitudes and times only.
-/

namespace Culprit

variable {σ σ' : Type}

/-! ### What is left of a report -/

def SymbolFinding.sign (f : SymbolFinding) : SymbolFinding :=
  { f with score := f.score.sign }

def FileFinding.sign (f : FileFinding) : FileFinding :=
  { f with
    score := f.score.sign
    symbols := f.symbols.map SymbolFinding.sign
    verification? := f.verification?.map Score.sign }

/-- The time of the report is dropped too. -/
def Report.sign (r : Report) : Report :=
  { r with
    whole? := r.whole?.map Score.sign
    files := r.files.map FileFinding.sign
    verification? := r.verification?.map Score.sign
    trials := r.trials.map Trial.sign
    generatedAt := "" }

theorem Trial.through_signs : Trial.through .signs = Trial.sign := by
  have hfailure : Failure.through .signs = id := rfl
  funext t
  rw [through, hfailure, Option.map_id]
  rfl

/-- What is seen of a report of which only the signs of the scores are shown. -/
theorem Report.through_signs (r : Report) : r.through .signs = r.sign := by
  have hissue : Issue.through .signs = id := rfl
  rw [through, Trial.through_signs, hissue, List.map_id]
  rfl

namespace Conduct

/-- The same is listed, trials fail alike, and the other scores are zero or not alike. -/
structure Agrees (c c' : Conduct) : Prop where
  units : c.units = c'.units
  listed : ∀ u ∈ c.units, c.listed u = c'.listed u
  truth : ∀ p, c.Tries p → (c.truth p).map Score.isDivergent = (c'.truth p).map Score.isDivergent

theorem Agrees.tries {c c' : Conduct} (h : c.Agrees c') {p : Partition} (hp : c.Tries p) :
    c'.Tries p := by
  rcases hp with hp | ⟨u, hu, symbols, hlisted, hp⟩
  · exact .inl (h.units ▸ hp)
  · exact .inr ⟨u, h.units ▸ hu, symbols, (h.listed u hu) ▸ hlisted, hp⟩

end Conduct

namespace Engine

/-- What a bisection of `q` that starts in `s` meets with: an error before its first trial, or an
outside that conducts itself in one way whatever is asked of it, and never asks to stop. -/
inductive Meets (e : Engine σ) (q : Request) (s : Archive σ) : Except Error Conduct → Prop
  | refusal {fault : Error} {s₁ : Archive σ}
      (hprepare : (e.prepare q).runOn s = (.error fault, s₁)) : Meets e q s (.error fault)
  | conduct {c : Conduct} {now : String} {baseline : Baseline} {s₁ : Archive σ}
      {inv : Track → σ → Prop}
      (hprepare : (e.prepare q).runOn s = (.ok (now, c.units, baseline), s₁))
      (hstart : inv .empty s₁.site.world)
      (hsteady : (e.experiment q baseline).Steady c.Tries c.truth inv)
      (hlists : ∀ u ∈ c.units, e.ListsAs inv u (c.listed u)) : Meets e q s (.ok c)

theorem inStep_of_agrees {e : Engine σ} {e' : Engine σ'} {q : Request} {c c' : Conduct}
    {baseline baseline' : Baseline} {inv : Track → σ → Prop} {inv' : Track → σ' → Prop}
    (hverify : e.verify = e'.verify) (hsymbols : e.symbols = e'.symbols) (hagree : c.Agrees c')
    (hx : (e.experiment q baseline).Steady c.Tries c.truth inv)
    (hx' : (e'.experiment q baseline').Steady c'.Tries c'.truth inv')
    (hlists : ∀ u ∈ c.units, e.ListsAs inv u (c.listed u))
    (hlists' : ∀ u ∈ c'.units, e'.ListsAs inv' u (c'.listed u)) :
    e.InStep .signs e' (e.experiment q baseline) (e'.experiment q baseline')
      (Session.Abreast .signs inv inv') c.Tries c.units := by
  have hspaces (u : SourceUnit) (hu : u ∈ c.units) (symbols : List LinkSymbol)
      (hlisted : Look.signs.listing (c.listed u) = .ok symbols) (p : Partition)
      (hp : (symbolSpace u symbols).Accepts p) : c.Tries p := by
    cases hraw : c.listed u with
    | error fault => rw [hraw] at hlisted; cases hlisted
    | ok raw =>
        rw [hraw] at hlisted
        obtain rfl := Except.ok.inj hlisted
        exact .inr ⟨u, hu, raw, hraw, hp⟩
  refine inStep_of_through Look.shown_signs hverify hsymbols (fun p => .inl) hspaces
    (hx.through fun p _ => rfl) ((hx'.mono fun p => hagree.tries).through fun p hp => ?_)
    (fun u hu => (hlists u hu).through) (fun u hu => ?_)
  · exact (Outcome.signs_congr (hagree.truth p hp)).symm
  · rw [hagree.listed u hu]
    exact (hlists' u (hagree.units ▸ hu)).through

/-- Phases in step end in reports that differ by magnitudes only. -/
theorem bisect_of_phases {e : Engine σ} {e' : Engine σ'} {q : Request} {s s₁ : Archive σ}
    {s' s₁' : Archive σ'} {now now' : String} {units : List SourceUnit}
    {baseline baseline' : Baseline} {inv : Track → σ → Prop} {inv' : Track → σ' → Prop}
    (hprepare : (e.prepare q).runOn s = (.ok (now, units, baseline), s₁))
    (hprepare' : (e'.prepare q).runOn s' = (.ok (now', units, baseline'), s₁'))
    (hstart : inv .empty s₁.site.world) (hstart' : inv' .empty s₁'.site.world)
    (hgo : ∀ {t w}, inv t w → (e.lab.cancelled w).1 = false)
    (hgo' : ∀ {t w}, inv' t w → (e'.lab.cancelled w).1 = false)
    (hphases : Attempt.InStep (Session.Abreast .signs inv inv')
      (InvImage Eq (Report.through .signs))
      (e.phases (e.experiment q baseline) units (e.blank q now))
      (e'.phases (e'.experiment q baseline') units (e'.blank q now'))) :
    ((e.bisect q).runOn s).1.map Report.sign = ((e'.bisect q).runOn s').1.map Report.sign := by
  have habreast : Session.Abreast .signs inv inv' (.start s₁.site) (.start s₁'.site) :=
    ⟨⟨.empty, hstart, fun _ hq => absurd hq List.not_mem_nil⟩,
      ⟨.empty, hstart', fun _ hq => absurd hq List.not_mem_nil⟩, rfl⟩
  obtain ⟨halike, ⟨t, hworld, -⟩, ⟨t', hworld', -⟩, hsessions⟩ := hphases _ _ habreast
  rcases hrun : (e.phases (e.experiment q baseline) units (e.blank q now)).runOn
    (.start s₁.site) with ⟨done, session⟩
  rcases hrun' : (e'.phases (e'.experiment q baseline') units (e'.blank q now')).runOn
    (.start s₁'.site) with ⟨done', session'⟩
  rw [hrun, hrun'] at halike hsessions
  rw [hrun] at hworld
  rw [hrun'] at hworld'
  cases halike with
  | error fault => rw [runOn_bisect_error hprepare hrun, runOn_bisect_error hprepare' hrun']
  | @ok r r' hr =>
      rw [runOn_bisect hprepare hrun (Prod.ext (hgo hworld) rfl),
        runOn_bisect hprepare' hrun' (Prod.ext (hgo' hworld') rfl)]
      have hclosed := closeReport_alike hsessions hr false
      rw [Report.through_signs, Report.through_signs] at hclosed
      exact congrArg Except.ok hclosed

end Engine

/-- Of the scores only their signs steer a bisection. Where two outsides list the same, fail alike
and diverge alike, the same trials are submitted in the same order, are repeated from memory alike,
and the reports differ in their magnitudes and times only. -/
theorem bisect_sign (e : Engine σ) (e' : Engine σ') (q : Request) (s : Archive σ) (s' : Archive σ')
    (o o' : Except Error Conduct) (hverify : e.verify = e'.verify)
    (hsymbols : e.symbols = e'.symbols) (htrusted : e.trusted = e'.trusted)
    (h : e.Meets q s o) (h' : e'.Meets q s' o') (hagree : Alike Conduct.Agrees o o') :
    ((e.bisect q).runOn s).1.map Report.sign = ((e'.bisect q).runOn s').1.map Report.sign := by
  cases hagree with
  | error fault =>
      cases h with
      | refusal hprepare =>
          cases h' with
          | refusal hprepare' =>
              rw [Engine.runOn_bisect_refusal hprepare, Engine.runOn_bisect_refusal hprepare']
  | ok hagree =>
      cases h with
      | @conduct c now baseline s₁ inv hprepare hstart hx hlists =>
          cases h' with
          | @conduct c' now' baseline' s₁' inv' hprepare' hstart' hx' hlists' =>
              have hstep := Engine.inStep_of_agrees hverify hsymbols hagree hx hx' hlists hlists'
              have hblank : (e.blank q now).through .signs = (e'.blank q now').through .signs := by
                simp [Engine.blank, Report.blank, Report.through, htrusted]
              have hphases := Engine.phases_inStep hstep hblank
              rw [← hagree.units] at hprepare'
              exact Engine.bisect_of_phases hprepare hprepare' hstart hstart' hx.going hx'.going
                hphases

/-- The first of two files diverges by its only symbol, and prints `text` then. -/
def printing (text : String) : Scenario where
  units := [⟨"a.c"⟩, ⟨"b.c"⟩]
  symbols := fun u => if u.path = "a.c" then [.ofName "a.c" "g"] else []
  ends := fun p =>
    .ok ⟨.code 0, if "a.c" ∈ p.variant ∨ "g" ∈ p.variant then text else "", "", 1⟩
  stops := fun _ => false

def printingConduct (text : String) : Conduct where
  units := (printing text).units
  listed := fun u => .ok ((printing text).symbols u)
  truth := (printing text).truth ((printing text).engine.experiment Scenario.request
    ⟨⟨"t", "double"⟩, ⟨"g++", "-O0", []⟩, "", 0, 1⟩)

theorem printing_meets (text : String) :
    (printing text).engine.Meets Scenario.request ⟨⟨.empty, .empty⟩, .empty⟩
      (.ok (printingConduct text)) := by
  have hx := Scenario.steady (c := printing text)
    (x := (printing text).engine.experiment Scenario.request
      ⟨⟨"t", "double"⟩, ⟨"g++", "-O0", []⟩, "", 0, 1⟩) (printingConduct text).Tries
    (((printing text).engine.prepare Scenario.request).runOn
      ⟨⟨.empty, .empty⟩, .empty⟩).2.site.world rfl rfl fun _ => rfl
  have hprepare : ((printing text).engine.prepare Scenario.request).runOn
      ⟨⟨.empty, .empty⟩, .empty⟩ = (.ok ("", (printingConduct text).units,
        ⟨⟨"t", "double"⟩, ⟨"g++", "-O0", []⟩, "", 0, 1⟩), _) := rfl
  refine .conduct hprepare ((printing text).agrees_start _) hx fun u _ t s hs hhoused => ?_
  obtain ⟨t', s', hrun, hworld, hhoused', -⟩ :=
    runOn_within_symbols hx rfl ((printing text).lists _ u) hs hhoused
  exact ⟨t', s', hrun, hworld, hhoused'⟩

theorem truth_printing (text : String) (p : Partition) : (printingConduct text).truth p =
    ((printing text).experiment.judge
      (.ok (if "a.c" ∈ p.variant ∨ "g" ∈ p.variant then text else "", 1))).1 := rfl

/-- A longer text is another difference, but no less of one. -/
theorem printing_agrees : (printingConduct "x").Agrees (printingConduct "xyz") where
  units := rfl
  listed _ _ := rfl
  truth p _ := by
    rw [truth_printing, truth_printing]
    split <;> decide

theorem bisect_sign_printing :
    (printingConduct "x").truth ⟨.units, ["a.c", "b.c"], []⟩ = .ok ⟨1⟩ ∧
      (printingConduct "xyz").truth ⟨.units, ["a.c", "b.c"], []⟩ = .ok ⟨3⟩ ∧
      (((printing "x").engine.bisect Scenario.request).runOn
        ⟨⟨.empty, .empty⟩, .empty⟩).1.map Report.sign =
      (((printing "xyz").engine.bisect Scenario.request).runOn
        ⟨⟨.empty, .empty⟩, .empty⟩).1.map Report.sign :=
  ⟨by decide, by decide, bisect_sign _ _ Scenario.request _ _ _ _ rfl rfl rfl
    (printing_meets "x") (printing_meets "xyz") (.ok printing_agrees)⟩

end Culprit
