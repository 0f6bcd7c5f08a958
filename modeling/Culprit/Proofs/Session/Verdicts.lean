import Culprit.Proofs.Report.Scores
import Culprit.Proofs.Session.Deeds

/-!
What the outcome of a trial tells of its course. There is a score when every step came to an end as
it should, and it is that of the comparison. Without a directory or a build the build has failed,
and whatever else goes wrong is a failure of the run.
-/

namespace Culprit.Experiment

variable {σ : Type} (x : Experiment σ)

/-- There was no directory for the partition, or no build of it. -/
inductive Unbuilt (p : Partition) (opening : List Deed) : Prop
  | barred (e : Error) (h : .entered (directoryLabel p) (.error e) ∈ opening)
  | failed (dir : String) (e : Error) (h : .built (x.request p dir) (.error e) ∈ opening)

/-- The text to compare is that of the file that was to be written, else what was printed. -/
def Presents (dir : String) (ended : Ended) (closing : List Deed) (text : String) : Prop :=
  match x.run.outputFile? with
  | none => text = ended.stdout
  | some file => .read (Path.join dir file) (.ok text) ∈ closing

/-- The partition was built, its executable ended with exit code zero, there was a text to compare,
and the comparison came to the value. -/
inductive Measures (p : Partition) (opening closing : List Deed) (value : Float) : Prop
  | intro {dir text : String} {made : Built} {ended : Ended}
      (entered : .entered (directoryLabel p) (.ok dir) ∈ opening)
      (built : .built (x.request p dir) (.ok made) ∈ opening)
      (ran : .ran (x.call made.executable dir) (1000 * x.run.timeout) (.ok ended) ∈ closing)
      (clean : ended.exit = .code 0)
      (presented : x.Presents dir ended closing text)
      (compared : x.lab.comparator.compare x.baseline.output text = .ok value)

/-- The outcome is a score exactly when there was a value, a failure of the build exactly when there
was no build, and a failure of the run in all other cases. -/
structure Verdict (p : Partition) (opening closing : List Deed) (o : Outcome) : Prop where
  scored (score : Score) : o = .ok score ↔
    ∃ value, x.Measures p opening closing value ∧ score = Score.ofComparison value
  unbuilt : (∃ detail, o = .error ⟨.build, detail⟩) ↔ x.Unbuilt p opening
  failed : (∃ detail, o = .error ⟨.run, detail⟩) ↔
    ¬x.Unbuilt p opening ∧ ∀ value, ¬x.Measures p opening closing value

variable {x} {p : Partition} {dir executable text : String} {opening closing ds leaving : List Deed}
  {o : Outcome} {ran : Except Failure (String × Nat)}

/-! ### Runs -/

/-- The deeds of a departure are neither runs nor readings. -/
theorem Leaves.mem_append {d : Deed} (h : x.Leaves dir leaving)
    (hd : ∀ answer, d ≠ .left dir answer) : d ∈ ds ++ leaving ↔ d ∈ ds := by
  rw [List.mem_append, or_iff_left]
  intro hmem
  cases h with
  | kept => cases hmem
  | removed answer => exact hd answer (List.mem_singleton.mp hmem)

theorem Executes.stage {f : Failure} (h : x.Executes executable dir ds (.error f)) :
    f.stage = .run := by
  cases h <;> rfl

/-- A run comes to a text exactly when it ended with exit code zero and there was that text. -/
theorem Executes.presents_iff (h : x.Executes executable dir ds ran)
    (hleaves : x.Leaves dir leaving) :
    (∃ ended, .ran (x.call executable dir) (1000 * x.run.timeout) (.ok ended) ∈ ds ++ leaving ∧
      ended.exit = .code 0 ∧ x.Presents dir ended (ds ++ leaving) text) ↔
      ∃ ms, ran = .ok (text, ms) := by
  have hran (answer : Except Error Ended) :
      .ran (x.call executable dir) (1000 * x.run.timeout) answer ∈ ds ++ leaving ↔
        .ran (x.call executable dir) (1000 * x.run.timeout) answer ∈ ds :=
    hleaves.mem_append (by simp)
  have hread (file : String) : .read (Path.join dir file) (.ok text) ∈ ds ++ leaving ↔
      .read (Path.join dir file) (.ok text) ∈ ds :=
    hleaves.mem_append (by simp)
  simp only [Presents, hran, hread]
  cases h with
  | unstarted e => simp
  | failed ended hsuccess =>
      have hexit : ended.exit ≠ .code 0 := of_decide_eq_false hsuccess
      simp [hexit]
  | printed ended hsuccess hfile =>
      have hexit : ended.exit = .code 0 := of_decide_eq_true hsuccess
      simpa [hexit, hfile] using eq_comm
  | unread ended file cause hsuccess hfile => simp [hfile]
  | written ended file written hsuccess hfile =>
      have hexit : ended.exit = .code 0 := of_decide_eq_true hsuccess
      simpa [hexit, hfile] using eq_comm

/-! ### Judgement -/

theorem judge_ok_iff {score : Score} : (x.judge ran).1 = .ok score ↔
    ∃ text ms value, ran = .ok (text, ms) ∧
      x.lab.comparator.compare x.baseline.output text = .ok value ∧
      score = Score.ofComparison value := by
  rcases ran with f | ⟨text, ms⟩
  · simp [judge]
  · cases hcompared : x.lab.comparator.compare x.baseline.output text with
    | error e => simp [judge, compare, hcompared]
    | ok value => simp [judge, compare, hcompared, eq_comm]

/-- A failure after the build is one of the run. -/
theorem judge_stage (hran : ∀ f, ran = .error f → f.stage = .run) {f : Failure}
    (h : (x.judge ran).1 = .error f) : f.stage = .run := by
  rcases ran with f' | ⟨text, ms⟩
  · obtain rfl : f' = f := by simpa [judge] using h
    exact hran f' rfl
  · cases hcompared : x.lab.comparator.compare x.baseline.output text with
    | error e =>
        obtain rfl : _ = f := by simpa [judge, compare, hcompared] using h
        rfl
    | ok value => simp [judge, compare, hcompared] at h

/-! ### Courses -/

/-- A course that came to an executable measures what its run and its comparison come to. -/
theorem measures_iff {made : Built} {value : Float}
    (hexecutes : x.Executes made.executable dir ds ran) (hleaves : x.Leaves dir leaving) :
    x.Measures p [.entered (directoryLabel p) (.ok dir), .built (x.request p dir) (.ok made)]
        (ds ++ leaving) value ↔
      ∃ text ms, ran = .ok (text, ms) ∧
        x.lab.comparator.compare x.baseline.output text = .ok value := by
  constructor
  · rintro ⟨entered, built, hran, clean, presented, compared⟩
    simp only [List.mem_cons, Deed.entered.injEq, Except.ok.injEq, reduceCtorEq, List.not_mem_nil,
      or_false, true_and] at entered
    simp only [List.mem_cons, Deed.built.injEq, Except.ok.injEq, reduceCtorEq, List.not_mem_nil,
      or_false, false_or] at built
    obtain rfl := entered
    obtain ⟨-, rfl⟩ := built
    obtain ⟨ms, hran⟩ := (hexecutes.presents_iff hleaves).mp ⟨_, hran, clean, presented⟩
    exact ⟨_, ms, hran, compared⟩
  · rintro ⟨text, ms, hran, compared⟩
    obtain ⟨ended, hended, clean, presented⟩ := (hexecutes.presents_iff hleaves).mpr ⟨ms, hran⟩
    exact ⟨by simp, by simp, hended, clean, presented, compared⟩

/-- Without a build there is nothing to measure. -/
theorem Unbuilt.not_measures (h : x.Unbuilt p opening) (hcourse : x.Course p opening closing o)
    (value : Float) : ¬x.Measures p opening closing value := by
  rintro ⟨entered, built, -, -, -, -⟩
  cases hcourse with
  | barred e => simp at built
  | unbuilt dir e hleaves => cases hleaves <;> simp at built
  | completed dir made hexecutes hleaves => rcases h with ⟨e, h⟩ | ⟨dir', e, h⟩ <;> simp at h

theorem verdict_of_unbuilt {detail : String} (h : x.Unbuilt p opening)
    (hnone : ∀ value, ¬x.Measures p opening closing value) :
    x.Verdict p opening closing (.error ⟨.build, detail⟩) where
  scored score := by simp [hnone]
  unbuilt := by simp [h]
  failed := by simp [h]

theorem verdict_of_built (h : ¬x.Unbuilt p opening)
    (hscored : ∀ score, o = .ok score ↔
      ∃ value, x.Measures p opening closing value ∧ score = Score.ofComparison value)
    (hstage : ∀ f, o = .error f → f.stage = .run) : x.Verdict p opening closing o where
  scored := hscored
  unbuilt := iff_of_false (fun ⟨detail, ho⟩ => Stage.noConfusion (hstage _ ho)) h
  failed := by
    constructor
    · rintro ⟨detail, rfl⟩
      refine ⟨h, fun value hvalue => ?_⟩
      exact absurd ((hscored _).mpr ⟨value, hvalue, rfl⟩) (by simp)
    · rintro ⟨-, hnone⟩
      rcases o with ⟨stage, detail⟩ | score
      · obtain rfl : stage = .run := hstage _ rfl
        exact ⟨detail, rfl⟩
      · obtain ⟨value, hvalue, -⟩ := (hscored score).mp rfl
        exact absurd hvalue (hnone value)

theorem Course.verdict (h : x.Course p opening closing o) : x.Verdict p opening closing o := by
  have hnone (hun : x.Unbuilt p opening) := hun.not_measures h
  cases h with
  | barred e =>
      have hun : x.Unbuilt p [.entered (directoryLabel p) (.error e)] := .barred e (by simp)
      exact verdict_of_unbuilt hun (hnone hun)
  | @unbuilt dir e leaving hleaves =>
      have hun : x.Unbuilt p (.entered (directoryLabel p) (.ok dir) ::
        .built (x.request p dir) (.error e) :: leaving) := .failed dir e (by simp)
      exact verdict_of_unbuilt hun (hnone hun)
  | @completed dir made execution leaving ran hexecutes hleaves =>
      refine verdict_of_built ?_ (fun score => ?_) fun f => judge_stage fun f' hf' => ?_
      · rintro (⟨e, h⟩ | ⟨dir', e, h⟩) <;> simp at h
      · rw [judge_ok_iff]
        simp only [measures_iff hexecutes hleaves]
        constructor
        · rintro ⟨text, ms, value, hran, hcompared, hscore⟩
          exact ⟨value, ⟨text, ms, hran, hcompared⟩, hscore⟩
        · rintro ⟨value, ⟨text, ms, hran, hcompared⟩, hscore⟩
          exact ⟨text, ms, value, hran, hcompared, hscore⟩
      · subst hf'
        exact hexecutes.stage

/-- A failure never becomes a score. Each partition of a batch that is new has a score exactly when
its directory could be made, it was built, its executable ended with exit code zero, the text to
compare could be had and the comparison came to a value. The score is made of that value: it is
finite, not negative, and zero only for zero. The other outcomes are failures, of the build when
there was no directory or no build, of the run otherwise. -/
theorem batch_judges (x : Experiment σ) (ps : List Partition) (s : Session (Recorded σ)) :
    x.batch ps s.plain = ((x.recorded.batch ps s).1, (x.recorded.batch ps s).2.plain) ∧
    (∃ jobs : List Job,
      jobs.map (fun j => (j.partition, j.position)) = s.newcomers ps ∧
      (x.recorded.batch ps s).2.deeds =
        s.deeds ++ jobs.flatMap (·.opening) ++ jobs.flatMap (·.closing) ∧
      ∀ j ∈ jobs, (x.recorded.batch ps s).1[j.position]? = some j.outcome ∧
        x.Course j.partition j.opening j.closing j.outcome ∧
        x.Verdict j.partition j.opening j.closing j.outcome) ∧
    ∀ value, Decimal.Finite (Score.ofComparison value).value ∧
      0 ≤ (Score.ofComparison value).value ∧
      (Score.ofComparison value).isDivergent = !(value == 0) := by
  refine ⟨batch_erases ps s, ?_, fun value => ⟨Score.finite_ofComparison value,
    Score.zero_le_ofComparison value, Score.isDivergent_ofComparison value⟩⟩
  obtain ⟨jobs, hplaces, hcourse, hdeeds⟩ := batch_courses x ps s
  refine ⟨jobs, hplaces, hdeeds, fun j hj => ?_⟩
  obtain ⟨hcourse, hat⟩ := hcourse j hj
  exact ⟨hat, hcourse, hcourse.verdict⟩

end Culprit.Experiment
