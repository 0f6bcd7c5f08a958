import Culprit.Proofs.Bisection.Scores
import Culprit.Proofs.Report.Surveys
import Culprit.Proofs.Survey.Serial
import Culprit.Results.Reader

/-!
What a survey reports can be read back from its text. The scores are finite, since every one of them
was made of a comparison of the survey itself. The comparisons of the rows come from outside, and
a row whose comparison has no text of its own is no longer flagged when it is read back.
-/

namespace Culprit

variable {σ : Type}

namespace Survey

variable {e : Engine σ} {o : SurveyOptions} {rows : List ResultRow} {row : ResultRow}
  {may : Bearing σ → Site σ → Site σ → Prop} {good : Score → Prop} {now : String}
  {units : List SourceUnit} {site site' last : Site σ} {b : Bearing σ} {v : Verdict} {r : Report}

/-! ### The scores of a survey -/

/-- Every score in the report, once there is one. -/
def Bearing.Within (good : Score → Prop) : Bearing σ → Prop
  | .ended r _ => r.Within good
  | _ => True

theorem notStarted_within (e : Engine σ) (o : SurveyOptions) (row : ResultRow) (now : String) :
    (notStarted e o row now).Within good :=
  ((Report.Within.blank _ _ _ _ _).withStatus _).addIssue _

theorem failed_within (e : Engine σ) (o : SurveyOptions) (row : ResultRow) (fault : Error)
    (now : String) : (failed e o row fault now).Within good := by
  unfold failed failedReport
  split <;> exact ((Report.Within.blank _ _ _ _ _).withStatus _).addIssue _

theorem Prepares.within (h : Prepares e o row site b site') : b.Within good := by
  cases h with
  | stop _ _ => exact notStarted_within e o row _
  | units _ _ _ _ => trivial
  | none _ _ _ _ _ => exact failed_within e o row _ _

theorem Concludes.within (hgood : ∀ value, good (.ofComparison value))
    (h : Concludes e o row now units site v r last site') : r.Within good := by
  cases h with
  | refused _ => exact failed_within e o row _ _
  | report hphases _ => exact Engine.closeReport_within hgood (.blank _ _ _ _ _) hphases _
  | fault _ _ => exact failed_within e o row _ _

theorem Act.within {job : ResultRow × Nat} {f f' : Floor σ}
    (hgood : ∀ value, good (.ofComparison value)) (h : Act e o rows job f f') :
    (f'.station job.2).bearing.Within good := by
  cases h with
  | prepare _ hprepare =>
      rw [Floor.put_self]
      exact (prepares hprepare).within
  | conclude _ _ hconclude =>
      rw [Floor.put_self]
      exact (concludes hconclude).within hgood
  | _ =>
      rw [Floor.put_self]
      trivial

/-- Whatever holds of all scores made of comparisons holds of every score in a survey. -/
theorem steps_within {archive : Archive σ} {p : Crew σ}
    (hgood : ∀ value, good (.ofComparison value))
    (hsteps : Steps e o rows may (opening e o rows archive) p) (k : Nat) :
    (p.state.station k).bearing.Within good := by
  refine floor_steps (fun f => ∀ k, (f.station k).bearing.Within good)
    (accounts_opening e o rows archive) (fun _ => trivial) (fun f k' view hf _ k => ?_)
    (fun job f f' _ hf hact k => ?_) hsteps k
  · by_cases hk : k = k'
    · rw [hk, Floor.put_self]
      exact hf k'
    · rw [Floor.put_other _ _ _ _ hk]
      exact hf k
  · by_cases hk : k = job.2
    · rw [hk]
      exact hact.within hgood
    · obtain ⟨B, b, view, rfl, -⟩ := hact.puts
      rw [Floor.put_other _ _ _ _ hk]
      exact hf k

end Survey

/-- With what is known of its place. -/
def SurveyReport.inEnvironment (r : SurveyReport) (environment? : Option Environment) :
    SurveyReport :=
  { r with environment? := environment? }

@[simp] theorem SurveyReport.entries_inEnvironment (r : SurveyReport)
    (environment? : Option Environment) : (r.inEnvironment environment?).entries = r.entries := rfl

namespace Survey

variable {e : Engine σ} {o : SurveyOptions} {rows : List ResultRow}

/-- Whatever the results and the options, in whatever order the workers act: a survey can always
come to its end, and then its report, written with whatever is known of the place, can be read back.
What is read is the report itself if and only if no flagged row has a comparison that is infinite or
no number. Every row of an entry is flagged; the text tells of it as of a flagged row if and only if
its comparison is finite. For this the integers have to fit their fields and the finite numbers
have to be exact in their text. -/
theorem run_restored (e : Engine σ) (o : SurveyOptions) (rows : List ResultRow)
    (archive : Archive σ) (may : Bearing σ → Site σ → Site σ → Prop) :
    (∀ p, Steps e o rows may (opening e o rows archive) p →
      ∃ p', Steps e o rows may p p' ∧ p'.Over) ∧
    (∀ p now environment? r, Steps e o rows may (opening e o rows archive) p → p.Over →
      r = (collect e rows now p.results).inEnvironment environment? →
      rows.length < Json.wordBound → (∀ a ∈ environment?, a.Fits) →
      (∀ x ∈ r.entries, x.report.Fits) →
      r.Within (fun v => Decimal.Finite v → Json.Exact v) →
      (Json.parse? r.toJson.pretty).bind SurveyReport.ofJson? = some r.written ∧
      ((Json.parse? r.toJson.pretty).bind SurveyReport.ofJson? = some r ↔
        ∀ row ∈ rows, row.isFlagged = true → ∀ c ∈ row.comparison?, Decimal.Finite c) ∧
      ∀ x ∈ r.entries, x.row.isFlagged = true ∧
        (x.row.written.isFlagged = true ↔ ∀ c ∈ x.row.comparison?, Decimal.Finite c)) ∧
    ((∀ schedule, may .away archive.site (moment e o rows archive schedule).state.site) →
      ∃ p now, Steps e o rows may (opening e o rows archive) p ∧ p.Over ∧
        (run e o rows archive).1 = collect e rows now p.results) := by
  refine ⟨fun p hsteps => completes_opening hsteps, ?_, run_steps⟩
  rintro p now environment? r hsteps hover rfl hrows henvironment hreports hexact
  obtain ⟨hcomplete, htold⟩ := complete_steps hsteps hover now
  have hfits : ((collect e rows now p.results).inEnvironment environment?).Fits := by
    refine ⟨by show SurveyReport.formatVersion < _; decide, henvironment, hrows,
      (Nat.sub_le _ _).trans_lt hrows, fun x hx => ?_, hreports⟩
    obtain ⟨hlt, -⟩ := List.getElem?_eq_some_iff.mp (hcomplete.own x hx).1
    exact hlt.trans hrows
  have hscores : ∀ x ∈ (collect e rows now p.results).entries,
      x.report.Within fun v => Decimal.Finite v.value := by
    intro x hx
    obtain ⟨last, hlast⟩ := htold x hx
    have hwithin : (p.state.station x.index).bearing.Within fun v => Decimal.Finite v.value :=
      steps_within Score.finite_ofComparison hsteps x.index
    rwa [hlast] at hwithin
  have hread := SurveyReport.read_pretty hfits hexact hscores
  have hflagged : ∀ x ∈ (collect e rows now p.results).entries, x.row.isFlagged = true :=
    fun x hx => (hcomplete.own x hx).2
  refine ⟨hread, ?_, fun x hx => ⟨hflagged x hx, ResultRow.isFlagged_written (hflagged x hx)⟩⟩
  rw [hread, Option.some_inj, SurveyReport.written_eq_iff]
  refine ⟨fun hfinite row hrow hrowFlagged => ?_, fun hfinite x hx => ?_⟩
  · obtain ⟨i, hi⟩ := List.getElem?_of_mem hrow
    obtain ⟨x, ⟨hx, rfl⟩, -⟩ := hcomplete.each i row hi hrowFlagged
    obtain rfl := Option.some.inj ((hcomplete.own x hx).1.symm.trans hi)
    exact hfinite x hx
  · exact hfinite x.row (List.mem_of_getElem? (hcomplete.own x hx).1) (hflagged x hx)

/-! ### A survey of one row -/

/-- One worker that takes the only job, does it, and finds no other one. -/
theorem results_drain_single {ι τ ρ : Type} {s : Shift ι τ ρ} (hs : s.Steadfast) (job : ι) (t : τ) :
    (Pool.drain s [job] 1 t).results = [(s.work job t).1] := by
  have hturns : Pool.inTurn 1 [job].length = List.replicate 8 0 := rfl
  rcases hwork : s.work job t with ⟨r, t'⟩
  rw [Pool.drain, hturns]
  simp [List.replicate, Pool.start, Pool.step, Pool.look, Pool.take, Pool.work, Pool.handIn,
    Pool.setWorker, hs.stop, hs.fails, hwork]

theorem entries_of_single {row : ResultRow} {k : Nat} (h : flaggedRows rows = [(row, k)])
    (archive : Archive σ) :
    (run e o rows archive).1.entries = [⟨k, row, (bisectRow e o row archive).1⟩] := by
  have hworkers : o.workers e.run.reentrant [(row, k)].length = 1 :=
    Nat.le_antisymm (Nat.min_le_right _ _) (workers_pos o _ _)
  obtain ⟨now, hrun⟩ := run_eq e o rows archive
  rw [hrun, moment, h, hworkers]
  show List.mergeSort (Pool.drain (shift e o) [(row, k)] 1 archive).results _ = _
  rw [results_drain_single (steadfast_shift e o), List.mergeSort_singleton]
  rfl

def place : Environment :=
  { Environment.bare "linux" with compilers := [("cc", "cc 1.0"), ("g++", "g++ 13.2")] }

/-- One file diverges by its only symbol, which is on its third line. -/
def thirdLine : Scenario where
  units := [⟨"a.c"⟩]
  symbols := fun _ => [⟨"a.c", "g", "g()", some "a.c", some 3⟩]
  ends := fun p => .ok ⟨.code 0, if p.variant = [] then "" else "x", "", 1⟩
  stops := fun _ => false

def halfOff : ResultRow := ⟨"t", "double", "g++", "-O3", "-ffast-math", some 0.5⟩

/-- The second row is not flagged. -/
def twoResults : List ResultRow := [halfOff, ⟨"t", "double", "g++", "", "", some 0⟩]

def halfOffReport : SurveyReport :=
  (run thirdLine.engine twoAtATime twoResults fresh).1.inEnvironment (some place)

set_option maxRecDepth 10000 in
theorem run_restored_halfOff :
    halfOffReport.entries.map (fun x => (x.row, x.report.fileKeys)) = [(halfOff, ["a.c"])] ∧
      (Json.parse? halfOffReport.toJson.pretty).bind SurveyReport.ofJson? = some halfOffReport := by
  obtain ⟨-, hread, hrun⟩ :=
    run_restored thirdLine.engine twoAtATime twoResults fresh fun _ _ _ => True
  obtain ⟨p, now, hsteps, hover, heq⟩ := hrun fun _ => trivial
  have hreport : (bisectRow thirdLine.engine twoAtATime halfOff fresh).1.fileKeys = ["a.c"] ∧
      (bisectRow thirdLine.engine twoAtATime halfOff fresh).1.Fits ∧
      (bisectRow thirdLine.engine twoAtATime halfOff fresh).1.Within fun v =>
        Decimal.Finite v.value → Json.Exact v.value := by
    decide +kernel
  have hcomparison : ∀ c ∈ halfOff.comparison?, Decimal.Finite c → Json.Exact c := by
    decide +kernel
  have hentries : halfOffReport.entries =
      [⟨0, halfOff, (bisectRow thirdLine.engine twoAtATime halfOff fresh).1⟩] := by
    rw [halfOffReport, SurveyReport.entries_inEnvironment, entries_of_single]
    decide +kernel
  -- From here on the report is not evaluated again.
  obtain ⟨r, hr⟩ : ∃ r, r = (bisectRow thirdLine.engine twoAtATime halfOff fresh).1 := ⟨_, rfl⟩
  rw [← hr] at hreport hentries
  have hplace : ∀ a ∈ some place, a.Fits := by
    rintro _ ⟨⟩
    exact ⟨by decide, by decide, by decide⟩
  have hfits : ∀ x ∈ halfOffReport.entries, x.report.Fits := by
    rw [hentries]
    exact List.forall_mem_singleton.mpr hreport.2.1
  have hexact : halfOffReport.Within fun v => Decimal.Finite v → Json.Exact v := by
    refine ⟨?_, ?_⟩ <;> rw [hentries]
    · exact List.forall_mem_singleton.mpr hcomparison
    · exact List.forall_mem_singleton.mpr hreport.2.2
  obtain ⟨-, hrestored, -⟩ := hread p now (some place) halfOffReport hsteps hover
    (by rw [halfOffReport, heq]) (by decide) hplace hfits hexact
  refine ⟨?_, hrestored.mpr (by decide +kernel)⟩
  rw [hentries, List.map_singleton, hreport.1]

/-- A result with this text for its comparison. -/
def resultOf (text : String) : ResultRow := ⟨"", "double", "g++", "", "", Decimal.parse? text⟩

/-- The text of a number that is infinite, none, or too large for a double is accepted in a list of
results and flags its row. When the row is read back, it is not flagged any more. -/
theorem flagged_unwritten : ∀ text ∈ ["inf", "-Infinity", "NaN", "1e400"],
    Results.read ("precision,compiler,comparison\ndouble,g++," ++ text ++ "\n").toUTF8.toList =
        .ok [resultOf text] ∧ (resultOf text).isFlagged = true ∧
      (Json.parse? (resultOf text).toJson.pretty).bind ResultRow.ofJson? =
        some (resultOf text).written ∧ (resultOf text).written.isFlagged = false := by
  have htexts : ∀ text ∈ ["inf", "-Infinity", "NaN", "1e400"],
      Results.read ("precision,compiler,comparison\ndouble,g++," ++ text ++ "\n").toUTF8.toList =
          .ok [resultOf text] ∧ (resultOf text).isFlagged = true ∧
        (resultOf text).written.isFlagged = false ∧
        ∀ c ∈ (resultOf text).comparison?, ¬Decimal.Finite c := by
    decide +kernel
  intro text htext
  obtain ⟨hread, hflagged, hlost, hnot⟩ := htexts text htext
  exact ⟨hread, hflagged,
    ResultRow.read_pretty fun c hc hfinite => absurd hfinite (hnot c hc), hlost⟩

end Survey

end Culprit
