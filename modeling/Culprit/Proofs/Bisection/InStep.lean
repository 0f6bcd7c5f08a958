import Culprit.Proofs.Bisection.Listing
import Culprit.Proofs.Bisection.Outline
import Culprit.Proofs.Session.Abreast

/-!
Two bisections side by side. Where outsides list the same and the outcomes of their trials look
alike, the same trials are submitted, and the reports look alike, up to the times.
-/

namespace Culprit

variable {σ σ' : Type} {g : Look}

/-! ### What is seen of a report -/

def SymbolFinding.through (g : Look) (f : SymbolFinding) : SymbolFinding :=
  { f with score := g.score f.score }

def FileFinding.through (g : Look) (f : FileFinding) : FileFinding :=
  { f with
    score := g.score f.score
    symbols := f.symbols.map (SymbolFinding.through g)
    verification? := f.verification?.map g.score }

/-- The time of the report is dropped too. -/
def Report.through (g : Look) (r : Report) : Report :=
  { r with
    whole? := r.whole?.map g.score
    files := r.files.map (FileFinding.through g)
    issues := r.issues.map (Issue.through g)
    verification? := r.verification?.map g.score
    trials := r.trials.map (Trial.through g)
    generatedAt := "" }

/-- What is seen of a listing of symbols. -/
def Look.listing (g : Look) (l : Except Error (List LinkSymbol)) :
    Except String (List LinkSymbol) :=
  l.mapError fun fault => g.text fault.message

theorem Look.cases_of_listing {l l' : Except Error (List LinkSymbol)}
    (h : g.listing l = g.listing l') :
    (∃ fault fault', l = .error fault ∧ l' = .error fault' ∧
      g.text fault.message = g.text fault'.message) ∨
      ∃ symbols, l = .ok symbols ∧ l' = .ok symbols := by
  cases l with
  | error fault =>
      cases l' with
      | error fault' => exact .inl ⟨fault, fault', rfl, rfl, Except.error.inj h⟩
      | ok symbols' => cases h
  | ok symbols =>
      cases l' with
      | error fault' => cases h
      | ok symbols' => exact .inr ⟨symbols, rfl, congrArg _ (Except.ok.inj h).symm⟩

theorem Report.through_addIssue (r : Report) (i : Issue) :
    (r.addIssue i).through g = (r.through g).addIssue (i.through g) := by
  simp [through, addIssue]

theorem Report.addIssue_alike {r r' : Report} (hr : r.through g = r'.through g) {i i' : Issue}
    (hi : i.through g = i'.through g) : (r.addIssue i).through g = (r'.addIssue i').through g := by
  rw [through_addIssue, through_addIssue, hr, hi]

namespace Engine

theorem through_noteSearch {α : Type} (r : Report) (found : SearchResult α) :
    (noteSearch r found).through g = noteSearch (r.through g) (found.through g) := by
  simp only [noteSearch, Report.through, SearchResult.through, List.map_append]
  rfl

theorem through_closeReport (stop : Bool) (s : Session σ) (r : Report) :
    (closeReport stop s r).through g = closeReport stop (s.through g) (r.through g) := rfl

theorem closeReport_alike {s : Session σ} {s' : Session σ'} {r r' : Report}
    (hs : s.through g = s'.through g) (hr : r.through g = r'.through g) (stop : Bool) :
    (closeReport stop s r).through g = (closeReport stop s' r').through g := by
  rw [through_closeReport, through_closeReport, hs, hr]

/-! ### The phases side by side -/

/-- The reports look alike, and so do the values that `f` is read off. -/
def NotedAlike {α β : Type} (g : Look) (f : α → β) (p p' : α × Report) : Prop :=
  f p.1 = f p'.1 ∧ p.2.through g = p'.2.through g

theorem noteVerification_alike {r r' : Report} (hr : r.through g = r'.through g) (context : String)
    {o o' : Outcome} (ho : o.through g = o'.through g) :
    NotedAlike g (Option.map g.score) (noteVerification r context o)
      (noteVerification r' context o') := by
  obtain ⟨f, f', rfl, rfl, hf⟩ | ⟨s, s', rfl, rfl, hs⟩ := Outcome.cases_of_through ho
  · exact ⟨rfl, Report.addIssue_alike hr (congrArg (Issue.ofFailure context) hf)⟩
  · exact ⟨congrArg some hs, hr⟩

end Engine

namespace Testbed

open Engine (NotedAlike noteSearch noteVerification_alike through_noteSearch)

variable {τ τ' : Type}

/-- Two testbeds whose searches and listings keep `rel`. The trials of their searches are of
partitions of `domain`. -/
structure InStep (g : Look) (d : Testbed τ) (d' : Testbed τ') (rel : τ → τ' → Prop)
    (domain : Partition → Prop) (units : List SourceUnit) : Prop where
  verify : d.verify = d'.verify
  symbols : d.symbols = d'.symbols
  bench : d.bench.InStep g d'.bench rel domain
  files {p : Partition} : (fileSpace units).Accepts p → domain p
  listed {u : SourceUnit} : u ∈ units → Culprit.InStep rel (fun l l' => g.listing l = g.listing l' ∧
    ∀ symbols, l = .ok symbols → ∀ p, (⟨.symbols u.path, symbols⟩ : Space LinkSymbol).Accepts p →
      domain p) (d.list u) (d'.list u)

variable {d : Testbed τ} {d' : Testbed τ'} {rel : τ → τ' → Prop}
  {domain : Partition → Prop} {units : List SourceUnit}

theorem verifySuspects_inStep {α : Type} [Candidate α] {space : Space α}
    (h : d.InStep g d' rel domain units) (hspace : ∀ p, space.Accepts p → domain p)
    {suspects suspects' : List (Suspect α)}
    (hsuspects : suspects.map (Suspect.through g) = suspects'.map (Suspect.through g))
    (context : String) {r r' : Report} (hr : r.through g = r'.through g) :
    Attempt.InStep rel (NotedAlike g (Option.map g.score))
      (d.verifySuspects space suspects context r)
      (d'.verifySuspects space suspects' context r') := by
  have hcandidates : suspects.map (·.candidate) = suspects'.map (·.candidate) := by
    simpa [List.map_map, Function.comp_def, Suspect.through] using
      congrArg (List.map (·.candidate)) hsuspects
  have hempty : suspects.isEmpty = suspects'.isEmpty := by
    simpa using congrArg List.isEmpty hsuspects
  rw [verifySuspects, verifySuspects, h.verify, hempty, hcandidates]
  split
  · refine Attempt.InStep.bind (Search.verify_inStep (h.bench.mono hspace) _) fun o o' ho => ?_
    exact Attempt.InStep.ret (noteVerification_alike hr context ho)
  · exact Attempt.InStep.ret ⟨rfl, hr⟩

theorem symbolFindings_through (suspects : List (Suspect LinkSymbol)) :
    (suspects.map fun s => (⟨s.candidate, s.score⟩ : SymbolFinding)).map (SymbolFinding.through g) =
      (suspects.map (Suspect.through g)).map fun s => ⟨s.candidate, s.score⟩ := by
  rw [List.map_map, List.map_map]
  rfl

theorem searchSymbols_inStep (h : d.InStep g d' rel domain units) {u : SourceUnit}
    {symbols : List LinkSymbol}
    (hspace : ∀ p, (⟨.symbols u.path, symbols⟩ : Space LinkSymbol).Accepts p → domain p)
    {score score' : Score} (hscore : g.score score = g.score score') {r r' : Report}
    (hr : r.through g = r'.through g) :
    Attempt.InStep rel (NotedAlike g (FileFinding.through g))
      (d.searchSymbols ⟨u, score, [], none⟩ symbols r)
      (d'.searchSymbols ⟨u, score', [], none⟩ symbols r') := by
  have hb := h.bench.mono hspace
  have hfinding : (⟨u, score, [], none⟩ : FileFinding).through g =
      (⟨u, score', [], none⟩ : FileFinding).through g := by
    simp [FileFinding.through, hscore]
  have hadd (i : Issue) : (r.addIssue i).through g = (r'.addIssue i).through g :=
    Report.addIssue_alike hr rfl
  rw [searchSymbols, searchSymbols]
  refine Attempt.InStep.bind (Search.confirm_inStep hb) fun o o' ho => ?_
  obtain ⟨f, f', rfl, rfl, hf⟩ | ⟨whole, whole', rfl, rfl, hwhole⟩ := Outcome.cases_of_through ho
  · exact Attempt.InStep.ret ⟨hfinding, Report.addIssue_alike hr (congrArg (Issue.ofFailure _) hf)⟩
  simp only [h.bench.shown.congr hwhole]
  split
  · refine Attempt.InStep.bind (Search.search_inStep hb hwhole) fun found found' hfound => ?_
    have hnoted : (noteSearch r found).through g = (noteSearch r' found').through g := by
      rw [through_noteSearch, hr, hfound.scores, through_noteSearch]
    have hsuspects := congrArg SearchResult.suspects hfound.scores
    refine Attempt.InStep.bind (verifySuspects_inStep h hspace hsuspects _ hnoted) ?_
    rintro ⟨verified, r₁⟩ ⟨verified', r₁'⟩ ⟨hverified, hr₁⟩
    have hsymbols : (found.suspects.map fun s => (⟨s.candidate, s.score⟩ : SymbolFinding)).map
        (SymbolFinding.through g) = (found'.suspects.map fun s =>
          (⟨s.candidate, s.score⟩ : SymbolFinding)).map (SymbolFinding.through g) := by
      rw [symbolFindings_through, symbolFindings_through]
      exact congrArg _ hsuspects
    refine Attempt.InStep.ret ⟨?_, hr₁⟩
    simp only [FileFinding.through, hscore, hsymbols]
    exact congrArg _ hverified
  · exact Attempt.InStep.ret ⟨hfinding, hadd _⟩

theorem through_addFinding {p p' : FileFinding × Report}
    (h : NotedAlike g (FileFinding.through g) p p') :
    ({ p.2 with files := p.2.files ++ [p.1] } : Report).through g =
      ({ p'.2 with files := p'.2.files ++ [p'.1] } : Report).through g := by
  obtain ⟨hfinding, hr⟩ := h
  calc ({ p.2 with files := p.2.files ++ [p.1] } : Report).through g =
        { p.2.through g with files := (p.2.through g).files ++ [p.1.through g] } := by
          simp [Report.through]
    _ = { p'.2.through g with files := (p'.2.through g).files ++ [p'.1.through g] } := by
          rw [hr, hfinding]
    _ = _ := by simp [Report.through]

theorem symbolPhase_inStep (h : d.InStep g d' rel domain units) {u : SourceUnit}
    (hu : u ∈ units) {score score' : Score} (hscore : g.score score = g.score score')
    {r r' : Report} (hr : r.through g = r'.through g) :
    Attempt.InStep rel (NotedAlike g (FileFinding.through g)) (d.symbolPhase ⟨u, score, [], none⟩ r)
      (d'.symbolPhase ⟨u, score', [], none⟩ r') := by
  have hfinding : (⟨u, score, [], none⟩ : FileFinding).through g =
      (⟨u, score', [], none⟩ : FileFinding).through g := by
    simp [FileFinding.through, hscore]
  rw [symbolPhase, symbolPhase]
  refine Attempt.InStep.bind (Attempt.InStep.lift (h.listed hu)) ?_
  rintro l l' ⟨hsame, hspace⟩
  obtain ⟨fault, fault', rfl, rfl, hfault⟩ | ⟨symbols, rfl, rfl⟩ := Look.cases_of_listing hsame
  · exact Attempt.InStep.ret
      ⟨hfinding, Report.addIssue_alike hr (congrArg (Issue.mk .noSymbols _) hfault)⟩
  match symbols with
  | [] => exact Attempt.InStep.ret ⟨hfinding, Report.addIssue_alike hr rfl⟩
  | first :: rest => exact searchSymbols_inStep h (hspace _ rfl) hscore hr

theorem suspectPhase_inStep (h : d.InStep g d' rel domain units) {u : SourceUnit}
    (hu : u ∈ units) {score score' : Score} (hscore : g.score score = g.score score')
    {r r' : Report} (hr : r.through g = r'.through g) :
    Attempt.InStep rel (InvImage Eq (Report.through g)) (d.suspectPhase ⟨u, score⟩ r)
      (d'.suspectPhase ⟨u, score'⟩ r') := by
  have hfinding : (⟨u, score, [], none⟩ : FileFinding).through g =
      (⟨u, score', [], none⟩ : FileFinding).through g := by
    simp [FileFinding.through, hscore]
  -- The finding is added to the report at the end of each branch.
  have hadded (p p' : FileFinding × Report) (hp : NotedAlike g (FileFinding.through g) p p') :
      Attempt.InStep rel (InvImage Eq (Report.through g))
        (pure { p.2 with files := p.2.files ++ [p.1] })
        (pure { p'.2 with files := p'.2.files ++ [p'.1] }) :=
    Attempt.InStep.ret (through_addFinding hp)
  rw [suspectPhase, suspectPhase, h.symbols]
  split
  · refine Attempt.InStep.bind (Attempt.InStep.lift h.bench.looked) ?_
    rintro stop _ rfl
    cases stop with
    | true =>
        exact hadded (_, r.addIssue _) (_, r'.addIssue _)
          ⟨hfinding, Report.addIssue_alike hr rfl⟩
    | false => exact Attempt.InStep.bind (symbolPhase_inStep h hu hscore hr) hadded
  · exact hadded (_, r) (_, r') ⟨hfinding, hr⟩

theorem suspectPhases_inStep (h : d.InStep g d' rel domain units)
    {suspects suspects' : List (Suspect SourceUnit)} (hwithin : ∀ s ∈ suspects, s.candidate ∈ units)
    (hsuspects : suspects.map (Suspect.through g) = suspects'.map (Suspect.through g))
    {r r' : Report} (hr : r.through g = r'.through g) :
    Attempt.InStep rel (InvImage Eq (Report.through g)) (d.suspectPhases suspects r)
      (d'.suspectPhases suspects' r') := by
  induction suspects generalizing suspects' r r' with
  | nil =>
      obtain rfl : suspects' = [] := by simpa using hsuspects
      exact Attempt.InStep.ret hr
  | cons s suspects ih =>
      match suspects', hsuspects with
      | s' :: suspects', hsuspects =>
          obtain ⟨hu, hothers⟩ := List.forall_mem_cons.mp hwithin
          obtain ⟨hfirst, hrest⟩ := List.cons.inj hsuspects
          obtain ⟨u, score⟩ := s
          obtain ⟨u', score'⟩ := s'
          obtain rfl : u = u' := congrArg Suspect.candidate hfirst
          have hscore : g.score score = g.score score' := congrArg Suspect.score hfirst
          exact Attempt.InStep.bind (suspectPhase_inStep h hu hscore hr)
            fun r r' hr => ih hothers hrest hr

theorem phases_inStep (h : d.InStep g d' rel domain units) {r r' : Report}
    (hr : r.through g = r'.through g) :
    Attempt.InStep rel (InvImage Eq (Report.through g)) (d.phases units r)
      (d'.phases units r') := by
  have hb := h.bench.mono fun p => h.files
  rw [phases, phases]
  refine Attempt.InStep.bind (Search.confirm_inStep hb) fun o o' ho => ?_
  obtain ⟨f, f', rfl, rfl, hf⟩ | ⟨whole, whole', rfl, rfl, hwhole⟩ := Outcome.cases_of_through ho
  · have haborted : ({ r with status := .aborted } : Report).through g =
        ({ r' with status := .aborted } : Report).through g :=
      congrArg (fun r : Report => { r with status := .aborted }) hr
    exact Attempt.InStep.ret (Report.addIssue_alike haborted (congrArg (Issue.ofFailure _) hf))
  have hr₁ : ({ r with whole? := some whole } : Report).through g =
      ({ r' with whole? := some whole' } : Report).through g := by
    have hsome : (some whole).map g.score = (some whole').map g.score :=
      congrArg some hwhole
    exact congrArg₂ (fun w (r : Report) => { r with whole? := w }) hsome hr
  simp only [h.bench.shown.congr hwhole]
  split
  · refine Attempt.InStep.bind (Search.search_inStep hb hwhole) fun found found' hfound => ?_
    have hnoted : (noteSearch { r with whole? := some whole } found).through g =
        (noteSearch { r' with whole? := some whole' } found').through g := by
      rw [through_noteSearch, hr₁, hfound.scores, through_noteSearch]
    have hsuspects := congrArg SearchResult.suspects hfound.scores
    refine Attempt.InStep.bind (verifySuspects_inStep h (fun p => h.files) hsuspects _ hnoted) ?_
    rintro ⟨verified, r₁⟩ ⟨verified', r₁'⟩ ⟨hverified, hr₁⟩
    refine suspectPhases_inStep h hfound.within hsuspects ?_
    exact congrArg₂ (fun v (r : Report) => { r with verification? := v }) hverified hr₁
  · exact Attempt.InStep.ret
      (congrArg (fun r : Report => ({ r with status := .noDivergence } : Report)) hr₁)

end Testbed

namespace Engine

variable {e : Engine σ} {e' : Engine σ'} {x : Experiment σ} {x' : Experiment σ'}
  {rel : Session σ → Session σ' → Prop} {domain : Partition → Prop} {units : List SourceUnit}

/-- Two engines whose testbeds are in step. -/
abbrev InStep (g : Look) (e : Engine σ) (e' : Engine σ') (x : Experiment σ) (x' : Experiment σ')
    (rel : Session σ → Session σ' → Prop) (domain : Partition → Prop) (units : List SourceUnit) :
    Prop :=
  (e.testbed x).InStep g (e'.testbed x') rel domain units

theorem phases_inStep (h : e.InStep g e' x x' rel domain units) {r r' : Report}
    (hr : r.through g = r'.through g) :
    Attempt.InStep rel (InvImage Eq (Report.through g)) (e.phases x units r)
      (e'.phases x' units r') := by
  rw [← phases_testbed, ← phases_testbed]
  exact Testbed.phases_inStep h hr

end Engine

/-! ### What two outsides have in common -/

/-- What an outside makes of a request once there is a baseline. -/
structure Conduct where
  units : List SourceUnit
  /-- What the listing of a unit's symbols comes to. -/
  listed : SourceUnit → Except Error (List LinkSymbol)
  /-- What the trial of a partition comes to. -/
  truth : Partition → Outcome

namespace Conduct

/-- The partitions that a bisection can submit. -/
def Tries (c : Conduct) (p : Partition) : Prop :=
  (fileSpace c.units).Accepts p ∨
    ∃ u ∈ c.units, ∃ symbols, c.listed u = .ok symbols ∧ (symbolSpace u symbols).Accepts p

end Conduct

namespace Engine

/-- The listing of a unit's symbols comes to `listed`, whenever it is made between two batches. -/
def ListsAs (e : Engine σ) (inv : Track → σ → Prop) (unit : SourceUnit)
    (listed : Except Error (List LinkSymbol)) : Prop :=
  ∀ (t : Track) (s : Site σ), inv t s.world → t.Housed → ∃ t' s',
    (Site.within e.lab ("symbols-" ++ unit.objectStem) fun workdir =>
      e.lab.pipeline.symbols unit e.trusted workdir e.buildTimeout).runOn s = (listed, s') ∧
    inv t' s'.world ∧ t'.Housed

/-- The listing of a unit's symbols looks like `listed`, whenever it is made between two batches. -/
def ListsThrough (e : Engine σ) (g : Look) (inv : Track → σ → Prop) (unit : SourceUnit)
    (listed : Except String (List LinkSymbol)) : Prop :=
  ∀ (t : Track) (s : Site σ), inv t s.world → t.Housed → ∃ l t' s',
    (Site.within e.lab ("symbols-" ++ unit.objectStem) fun workdir =>
      e.lab.pipeline.symbols unit e.trusted workdir e.buildTimeout).runOn s = (l, s') ∧
    g.listing l = listed ∧ inv t' s'.world ∧ t'.Housed

theorem ListsAs.through {e : Engine σ} {inv : Track → σ → Prop} {u : SourceUnit}
    {listed : Except Error (List LinkSymbol)} (h : e.ListsAs inv u listed) :
    e.ListsThrough g inv u (g.listing listed) := by
  intro t s hs hhoused
  obtain ⟨t', s', hrun, hworld, hhoused'⟩ := h t s hs hhoused
  exact ⟨listed, t', s', hrun, rfl, hworld, hhoused'⟩

/-- A listing between two batches. -/
theorem runOn_listSymbols {e : Engine σ} (q : Request) (baseline : Baseline)
    {inv : Track → σ → Prop} {u : SourceUnit} {listed : Except String (List LinkSymbol)}
    (hlists : e.ListsThrough g inv u listed) {t : Track} {s : Session σ} (hs : inv t s.site.world)
    (hhoused : t.Housed) :
    ∃ l t' site, e.listSymbols (e.experiment q baseline) u s =
        (l.map (LinkSymbol.distinct []), { s with site := site }) ∧
      g.listing l = listed ∧ inv t' site.world ∧ t'.Housed := by
  obtain ⟨l, t', site, hwithin, hseen, hworld, hhoused'⟩ := hlists t s.site hs hhoused
  exact ⟨l, t', site, bind_of (Session.onSite_eq hwithin), hseen, hworld, hhoused'⟩

/-- Outsides whose listings and trials look alike are in step. -/
theorem inStep_of_through (hg : g.Shown) {e : Engine σ} {e' : Engine σ'} {q q' : Request}
    {units : List SourceUnit} {listed : SourceUnit → Except String (List LinkSymbol)}
    {domain : Partition → Prop} {seen : Partition → Outcome} {baseline baseline' : Baseline}
    {inv : Track → σ → Prop} {inv' : Track → σ' → Prop}
    (hverify : e.verify = e'.verify) (hsymbols : e.symbols = e'.symbols)
    (hfiles : ∀ p, (fileSpace units).Accepts p → domain p)
    (hspaces : ∀ u ∈ units, ∀ symbols, listed u = .ok symbols →
      ∀ p, (symbolSpace u symbols).Accepts p → domain p)
    (hx : (e.experiment q baseline).SteadyThrough g domain seen inv)
    (hx' : (e'.experiment q' baseline').SteadyThrough g domain seen inv')
    (hlists : ∀ u ∈ units, e.ListsThrough g inv u (listed u))
    (hlists' : ∀ u ∈ units, e'.ListsThrough g inv' u (listed u)) :
    e.InStep g e' (e.experiment q baseline) (e'.experiment q' baseline')
      (Session.Abreast g inv inv') domain units where
  verify := hverify
  symbols := hsymbols
  bench := Experiment.bench_inStep hg hx hx'
  files := hfiles _
  listed {u} hu := by
    rintro s s' ⟨⟨t, hworld, hhoused⟩, ⟨t', hworld', hhoused'⟩, hsessions⟩
    obtain ⟨l, t₁, site, hrun, hl, hworld₁, hhoused₁⟩ :=
      runOn_listSymbols q baseline (hlists u hu) hworld hhoused
    obtain ⟨l', t₁', site', hrun', hl', hworld₁', hhoused₁'⟩ :=
      runOn_listSymbols q' baseline' (hlists' u hu) hworld' hhoused'
    rw [show (e.testbed (e.experiment q baseline)).list u s = _ from hrun,
      show (e'.testbed (e'.experiment q' baseline')).list u s' = _ from hrun']
    refine ⟨⟨?_, fun symbols hok p hp => ?_⟩, ⟨t₁, hworld₁, hhoused₁⟩,
      ⟨t₁', hworld₁', hhoused₁'⟩, hsessions⟩
    · have hmapped (l : Except Error (List LinkSymbol)) :
          g.listing (l.map (LinkSymbol.distinct [])) =
            (g.listing l).map (LinkSymbol.distinct []) := by
        cases l <;> rfl
      rw [hmapped, hmapped, hl, hl']
    · cases l with
      | error fault => simp [Except.map] at hok
      | ok symbols' =>
          obtain rfl := Except.ok.inj hok
          exact hspaces u hu symbols' hl.symm p hp

end Engine

end Culprit
