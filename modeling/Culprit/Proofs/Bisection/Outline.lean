import Culprit.Bisection
import Culprit.Proofs.Partition.Accepted
import Culprit.Proofs.Search.Trials
import Culprit.Proofs.Session.Steady

/-!
A bisection in two parts. The first comes to the units and the baseline, the second is the phases
on a fresh series of trials. Units that cannot be told apart end it with an error. The phase of a
suspect unit lists its symbols and then searches them. The phases need no session and no lab: they
can be run at any bench where partitions are tried, with a list of the symbols of a unit, so also at
a bench that writes down what is submitted to it.
-/

namespace Culprit

variable {σ τ : Type}

def fileSpace (units : List SourceUnit) : Space SourceUnit :=
  ⟨.units, units⟩

def symbolSpace (unit : SourceUnit) (listed : List LinkSymbol) : Space LinkSymbol :=
  ⟨.symbols unit.path, LinkSymbol.distinct [] listed⟩

namespace Engine

/-- The experiment of a request once there is a baseline. -/
def experiment (e : Engine σ) (q : Request) (baseline : Baseline) : Experiment σ :=
  { e.setup q.jobs with
    baseline := baseline, trusted := e.trusted, variant := q.variant, target := q.target }

/-- Everything before the first trial. -/
def prepare (e : Engine σ) (q : Request) :
    Attempt (Archive σ) (String × List SourceUnit × Baseline) := do
  let now ← ExceptT.lift (Archive.onSite (Site.lift e.lab.now))
  let units ← e.listUnits
  let baseline ← Archive.establish (e.setup q.jobs) e.trusted q.target
  pure (now, units, baseline)

/-- What follows the phases. -/
def conclude (e : Engine σ) (done : Except Error Report) (session : Session σ) :
    Attempt (Archive σ) Report := do
  let r ← Attempt.of done
  let stop ← ExceptT.lift (Archive.onSite (Site.lift e.lab.cancelled))
  pure (closeReport stop session r)

theorem bisect_eq (e : Engine σ) (q : Request) :
    e.bisect q = (do
      let (now, units, baseline) ← e.prepare q
      let (done, session) ← ExceptT.lift
        (inSession (e.phases (e.experiment q baseline) units (e.blank q now)))
      e.conclude done session) := by
  simp only [bisect, prepare, bind_assoc, pure_bind]
  rfl

/-- The search among the listed symbols of a suspect unit. -/
def searchSymbols (e : Engine σ) (x : Experiment σ) (finding : FileFinding)
    (symbols : List LinkSymbol) (r : Report) : Attempt (Session σ) (FileFinding × Report) := do
  let unit := finding.unit
  let context := "symbols of " ++ unit.path
  let space : Space LinkSymbol := ⟨.symbols unit.path, symbols⟩
  match ← Search.confirm x.bench space with
  | .error f => pure (finding, r.addIssue (.ofFailure context f))
  | .ok whole =>
    if whole.isDivergent then do
      let found ← Search.search x.bench space whole
      let (verified, r) ← e.verifySuspects x space found.suspects
        ("suspect symbols of " ++ unit.path ++ " variant") (noteSearch r found)
      let symbols := found.suspects.map fun s => (⟨s.candidate, s.score⟩ : SymbolFinding)
      pure ({ finding with symbols := symbols, verification? := verified }, r)
    else
      pure (finding, r.addIssue ⟨.symbolsAgree, context, unit.path ++ " diverges but its " ++
        toString symbols.length ++ " symbols do not when swapped together"⟩)

section Verified

variable {α : Type} [Candidate α] {e : Engine σ} {x : Experiment σ} {space : Space α}
  {suspects : List (Suspect α)} {s s' : Session σ}

theorem runOn_verifySuspects {o : Outcome} (hverify : e.verify = true) (hsome : suspects ≠ [])
    (htrial : (Search.verify x.bench space (suspects.map (·.candidate))).runOn s = (.ok o, s'))
    (context : String) (r : Report) :
    (e.verifySuspects x space suspects context r).runOn s =
      (.ok (noteVerification r context o), s') := by
  rw [verifySuspects, hverify]
  simp only [Bool.true_and, Bool.not_eq_true', List.isEmpty_eq_false_iff, ne_eq, hsome,
    not_false_eq_true, if_true]
  rw [Attempt.runOn_bind, htrial]
  rfl

theorem runOn_verifySuspects_skip (hskip : ¬(e.verify = true ∧ suspects ≠ [])) (context : String)
    (r : Report) (s : Session σ) :
    (e.verifySuspects x space suspects context r).runOn s = (.ok (none, r), s) := by
  rw [verifySuspects, if_neg (by simpa using hskip)]
  rfl

end Verified

section Listed

variable {e : Engine σ} {x : Experiment σ} {s s' : Session σ} (finding : FileFinding)

theorem runOn_symbolPhase_error {fault : Error}
    (hlist : e.listSymbols x finding.unit s = (.error fault, s')) (r : Report) :
    (e.symbolPhase x finding r).runOn s =
      (.ok (finding, r.addIssue ⟨.noSymbols, "symbols of " ++ finding.unit.path, fault.message⟩),
        s') := by
  rw [symbolPhase, Attempt.runOn_lift_bind, hlist]
  rfl

theorem runOn_symbolPhase_nil (hlist : e.listSymbols x finding.unit s = (.ok [], s'))
    (r : Report) :
    (e.symbolPhase x finding r).runOn s =
      (.ok (finding, r.addIssue
        ⟨.noSymbols, "symbols of " ++ finding.unit.path, "no global function symbols"⟩), s') := by
  rw [symbolPhase, Attempt.runOn_lift_bind, hlist]
  rfl

/-- Symbols that were listed are searched. -/
theorem runOn_symbolPhase {symbols : List LinkSymbol} (hsome : symbols ≠ [])
    (hlist : e.listSymbols x finding.unit s = (.ok symbols, s')) (r : Report) :
    (e.symbolPhase x finding r).runOn s = (e.searchSymbols x finding symbols r).runOn s' := by
  obtain ⟨first, rest, rfl⟩ := List.exists_cons_of_ne_nil hsome
  rw [symbolPhase, Attempt.runOn_lift_bind, hlist]
  rfl

end Listed

variable {e : Engine σ} {q : Request} {now : String} {units : List SourceUnit}
  {baseline : Baseline} {s s₁ : Archive σ} {session : Session σ}

theorem runOn_bisect_conclude {done : Except Error Report}
    (hprepare : (e.prepare q).runOn s = (.ok (now, units, baseline), s₁))
    (hphases : (e.phases (e.experiment q baseline) units (e.blank q now)).runOn
      (Session.start s₁.site) = (done, session)) :
    (e.bisect q).runOn s = (e.conclude done session).runOn { s₁ with site := session.site } := by
  have hsession : inSession (e.phases (e.experiment q baseline) units (e.blank q now)) s₁ =
      ((done, session), { s₁ with site := session.site }) := by
    rw [inSession]
    exact congrArg (fun done : Except Error Report × Session σ =>
      (done, ({ s₁ with site := done.2.site } : Archive σ))) hphases
  rw [bisect_eq, Attempt.runOn_bind, hprepare]
  simp only [Attempt.runOn_lift_bind, hsession]

/-- A bisection whose phases come to a report adds to it what the session knows. -/
theorem runOn_bisect {r : Report} {stop : Bool} {w : σ}
    (hprepare : (e.prepare q).runOn s = (.ok (now, units, baseline), s₁))
    (hphases : (e.phases (e.experiment q baseline) units (e.blank q now)).runOn
      (Session.start s₁.site) = (.ok r, session))
    (hlook : e.lab.cancelled session.site.world = (stop, w)) :
    (e.bisect q).runOn s =
      (.ok (closeReport stop session r), { s₁ with site := { session.site with world := w } }) := by
  have hstop : Archive.onSite (Site.lift e.lab.cancelled) { s₁ with site := session.site } =
      (stop, { s₁ with site := { session.site with world := w } }) := by
    rw [Archive.onSite, Site.lift_eq hlook]
  rw [runOn_bisect_conclude hprepare hphases, conclude, Attempt.runOn_of_ok_bind,
    Attempt.runOn_lift_bind, hstop]
  rfl

theorem runOn_bisect_error {fault : Error}
    (hprepare : (e.prepare q).runOn s = (.ok (now, units, baseline), s₁))
    (hphases : (e.phases (e.experiment q baseline) units (e.blank q now)).runOn
      (Session.start s₁.site) = (.error fault, session)) :
    (e.bisect q).runOn s = (.error fault, { s₁ with site := session.site }) :=
  runOn_bisect_conclude hprepare hphases

theorem runOn_bisect_refusal {fault : Error}
    (hprepare : (e.prepare q).runOn s = (.error fault, s₁)) :
    (e.bisect q).runOn s = (.error fault, s₁) := by
  rw [bisect_eq, Attempt.runOn_bind, hprepare]

/-- A bisection that comes to a report had its units and its baseline. -/
theorem exists_prepare {r : Report} {s' : Archive σ}
    (hrun : (e.bisect q).runOn s = (.ok r, s')) :
    ∃ now units baseline s₁, (e.prepare q).runOn s = (.ok (now, units, baseline), s₁) := by
  rcases hprepare : (e.prepare q).runOn s with ⟨fault | ⟨now, units, baseline⟩, s₁⟩
  · rw [bisect_eq, Attempt.runOn_bind, hprepare] at hrun
    cases hrun
  · exact ⟨now, units, baseline, s₁, rfl⟩

/-- Units that cannot be told apart end the phases before the first trial. -/
theorem phases_repeated (e : Engine σ) (x : Experiment σ) (hkeys : ¬(keysOf units).Nodup)
    (r : Report) (session : Session σ) :
    ∃ fault, (e.phases x units r).runOn session = (.error fault, session) := by
  rcases hwhole : Search.partition (fileSpace units) (fileSpace units).candidates.zipIdx with
    fault | p
  · refine ⟨fault, ?_⟩
    rw [phases, Attempt.runOn_bind, ← fileSpace, Search.confirm, hwhole]
    rfl
  · rw [Search.partition, Search.memberKeys_zipIdx] at hwhole
    exact absurd (Partition.nodup_of_ok hwhole) hkeys

end Engine

/-! ### The phases at any bench -/

/-- What the phases of a bisection work with. -/
structure Testbed (τ : Type) where
  bench : Bench τ
  /-- The symbols of a unit, one for each name. -/
  list : SourceUnit → StateM τ (Except Error (List LinkSymbol))
  /-- Whether the suspects are tried together at the end of a search. -/
  verify : Bool
  /-- Whether the symbols of suspect units are searched. -/
  symbols : Bool

namespace Testbed

variable (d : Testbed τ)

def verifySuspects {α : Type} [Candidate α] (space : Space α) (suspects : List (Suspect α))
    (context : String) (r : Report) : Attempt τ (Option Score × Report) := do
  if d.verify && !suspects.isEmpty then do
    let o ← Search.verify d.bench space (suspects.map (·.candidate))
    pure (Engine.noteVerification r context o)
  else pure (none, r)

def searchSymbols (finding : FileFinding) (symbols : List LinkSymbol) (r : Report) :
    Attempt τ (FileFinding × Report) := do
  let unit := finding.unit
  let context := "symbols of " ++ unit.path
  let space : Space LinkSymbol := ⟨.symbols unit.path, symbols⟩
  match ← Search.confirm d.bench space with
  | .error f => pure (finding, r.addIssue (.ofFailure context f))
  | .ok whole =>
    if whole.isDivergent then do
      let found ← Search.search d.bench space whole
      let (verified, r) ← d.verifySuspects space found.suspects
        ("suspect symbols of " ++ unit.path ++ " variant") (Engine.noteSearch r found)
      let symbols := found.suspects.map fun s => (⟨s.candidate, s.score⟩ : SymbolFinding)
      pure ({ finding with symbols := symbols, verification? := verified }, r)
    else
      pure (finding, r.addIssue ⟨.symbolsAgree, context, unit.path ++ " diverges but its " ++
        toString symbols.length ++ " symbols do not when swapped together"⟩)

def symbolPhase (finding : FileFinding) (r : Report) : Attempt τ (FileFinding × Report) := do
  let context := "symbols of " ++ finding.unit.path
  match ← ExceptT.lift (d.list finding.unit) with
  | .error fault => pure (finding, r.addIssue ⟨.noSymbols, context, fault.message⟩)
  | .ok [] => pure (finding, r.addIssue ⟨.noSymbols, context, "no global function symbols"⟩)
  | .ok symbols => d.searchSymbols finding symbols r

def suspectPhase (s : Suspect SourceUnit) (r : Report) : Attempt τ Report := do
  let finding : FileFinding := ⟨s.candidate, s.score, [], none⟩
  let (finding, r) ←
    if d.symbols then do
      let stop ← ExceptT.lift d.bench.cancelled
      if stop then
        pure (finding, r.addIssue
          ⟨.cancelled, "symbols of " ++ finding.unit.path, "symbol search skipped"⟩)
      else d.symbolPhase finding r
    else pure (finding, r)
  pure { r with files := r.files ++ [finding] }

def suspectPhases : List (Suspect SourceUnit) → Report → Attempt τ Report
  | [], r => pure r
  | s :: rest, r => do
    let r ← d.suspectPhase s r
    suspectPhases rest r

def phases (units : List SourceUnit) (r : Report) : Attempt τ Report := do
  match ← Search.confirm d.bench (fileSpace units) with
  | .error f => pure ({ r with status := .aborted }.addIssue (.ofFailure "all files variant" f))
  | .ok whole =>
    let r := { r with whole? := some whole }
    if whole.isDivergent then do
      let found ← Search.search d.bench (fileSpace units) whole
      let (verified, r) ← d.verifySuspects (fileSpace units) found.suspects "suspect files variant"
        (Engine.noteSearch r found)
      d.suspectPhases found.suspects { r with verification? := verified }
    else pure { r with status := .noDivergence }

end Testbed

namespace Engine

variable (e : Engine σ) (x : Experiment σ)

/-- The testbed of a series of trials. -/
def testbed : Testbed (Session σ) where
  bench := x.bench
  list := e.listSymbols x
  verify := e.verify
  symbols := e.symbols

theorem suspectPhases_testbed (suspects : List (Suspect SourceUnit)) (r : Report) :
    (e.testbed x).suspectPhases suspects r = e.suspectPhases x suspects r := by
  induction suspects generalizing r with
  | nil => rfl
  | cons s rest ih =>
      rw [Testbed.suspectPhases, suspectPhases]
      exact congrArg _ (funext ih)

/-- The phases are those at the testbed of the session. -/
theorem phases_testbed (units : List SourceUnit) (r : Report) :
    (e.testbed x).phases units r = e.phases x units r := by
  rw [Testbed.phases, phases]
  simp only [suspectPhases_testbed]
  rfl

end Engine

end Culprit
