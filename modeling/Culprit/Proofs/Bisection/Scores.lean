import Culprit.Proofs.Bisection.Course
import Culprit.Proofs.Report.Scores
import Culprit.Proofs.Session.Upheld

/-!
The scores of a bisection. Every one of them is the score of a trial, and a trial has no other score
than one that was made of a comparison, which is finite. So what holds of all scores made of
comparisons holds of every score in a report.
-/

namespace Culprit

variable {σ : Type} {good : Score → Prop}

/-! ### Trials -/

/-- The scores on record and those that are remembered. -/
structure Session.Within (good : Score → Prop) (s : Session σ) : Prop where
  trials : ∀ t ∈ s.trials, t.Within good
  memory : ∀ e ∈ s.memory, e.2.Within good

theorem Session.within_start (site : Site σ) : (Session.start site).Within good :=
  ⟨nofun, nofun⟩

theorem Outcome.within_error (f : Failure) : Outcome.Within good (.error f) := by
  rintro _ ⟨⟩

theorem Outcome.within_of_score? {o : Outcome} (h : ∀ v, Trial.score?Of o = some v → good v) :
    o.Within good := by
  rintro v rfl
  exact h v rfl

namespace Experiment

variable {x : Experiment σ} {s : Session σ}

theorem upholds_within (hgood : ∀ value, good (.ofComparison value)) :
    x.Upholds (Outcome.Within good) (Session.Within good) where
  cancelled _ hs := ⟨hs.trials, hs.memory⟩
  acquire _ _ hs := ⟨hs.trials, hs.memory⟩
  drop _ _ hs := ⟨hs.trials, hs.memory⟩
  build _ _ _ hs := ⟨hs.trials, hs.memory⟩
  execute _ _ _ hs := ⟨hs.trials, hs.memory⟩
  count hs := ⟨hs.trials, hs.memory⟩
  remember _ _ ho hs := ⟨hs.trials, List.forall_mem_cons.mpr ⟨ho, hs.memory⟩⟩
  record p o buildMs? runMs? cached ho s hs := by
    rw [record_eq]
    refine ⟨fun t ht v hv => ?_, hs.memory⟩
    rcases List.mem_append.mp ht with hold | hnew
    · exact hs.trials t hold v hv
    · obtain rfl := List.mem_singleton.mp hnew
      cases o with
      | error f => cases hv
      | ok score => exact ho v (congrArg Except.ok (Option.some.inj hv))
  failure := Outcome.within_error
  judged ran := by
    rcases ran with f | ⟨output, ms⟩
    · exact Outcome.within_error f
    · rw [judge, compare]
      cases x.lab.comparator.compare x.baseline.output output with
      | error fault => exact Outcome.within_error _
      | ok value =>
          rintro v ⟨⟩
          exact hgood value
  recalled {s g o} hs hknown := by
    obtain ⟨_, _, hmemory, -⟩ := List.lookup_eq_some_iff.mp hknown
    exact hs.memory (g, o) (by rw [hmemory]; simp)

/-- The outcomes that a batch answers are on record. -/
theorem batch_within (hgood : ∀ value, good (.ofComparison value)) (ps : List Partition)
    (hs : s.Within good) :
    (x.batch ps s).2.Within good ∧ ∀ a ∈ ps.zip (x.batch ps s).1, a.2.Within good := by
  have hkept := (upholds_within (x := x) hgood).batch ps s hs
  refine ⟨hkept, fun a ha => Outcome.within_of_score? fun v hv => ?_⟩
  have hnoted : Trial.note a.1 a.2 ∈ (x.batch ps s).2.notes := by
    rw [(batch_accounted x ps s).1]
    exact Multiset.mem_add.mpr (.inr (Multiset.mem_coe.mpr (List.mem_map_of_mem ha)))
  obtain ⟨t, ht, hgist⟩ := List.mem_map.mp (Multiset.mem_coe.mp hnoted)
  exact hkept.trials t ht v ((congrArg Trial.score? hgist).trans hv)

end Experiment

theorem Report.Within.noteSearch {α : Type} {r : Report} (h : r.Within good)
    (found : SearchResult α) : (Engine.noteSearch r found).Within good :=
  ⟨h.whole, h.files, h.verification, h.trials⟩

/-! ### Phases -/

/-- From a state with `inv` the action leaves one, and what it results in is `post`. -/
def Attempt.Maintains {τ α : Type} (inv : τ → Prop) (post : α → Prop) (a : Attempt τ α) : Prop :=
  ∀ s r s', inv s → a.runOn s = (.ok r, s') → inv s' ∧ post r

namespace Attempt.Maintains

variable {τ α β : Type} {inv : τ → Prop} {post : α → Prop} {last : β → Prop}

theorem ret {r : α} (h : post r) : Maintains inv post (pure r) := by
  intro s r' s' hs hrun
  cases hrun
  exact ⟨hs, h⟩

theorem lift {a : StateM τ α} (h : ∀ s, inv s → inv (a s).2 ∧ post (a s).1) :
    Maintains inv post (ExceptT.lift a) := by
  intro s r s' hs hrun
  rw [runOn_lift (Prod.eta (a s)).symm] at hrun
  cases hrun
  exact h s hs

theorem bind {a : Attempt τ α} {f : α → Attempt τ β} (ha : Maintains inv post a)
    (hf : ∀ x, post x → Maintains inv last (f x)) : Maintains inv last (a >>= f) := by
  intro s r s' hs hrun
  rw [runOn_bind] at hrun
  rcases hfirst : a.runOn s with ⟨fault | x, s₁⟩ <;> rw [hfirst] at hrun
  · cases hrun
  · obtain ⟨hs₁, hx⟩ := ha s x s₁ hs hfirst
    exact hf x hx s₁ r s' hs₁ hrun

end Attempt.Maintains

open Attempt (Maintains)

namespace Engine

variable {e : Engine σ} {x : Experiment σ} {r : Report}

section Within

variable (hgood : ∀ value, good (.ofComparison value))

include hgood

theorem trial_within (d : Except Error Partition) :
    Maintains (Session.Within good) (Outcome.Within good)
      (Attempt.of d >>= fun p => ExceptT.lift (x.bench.trial p)) := by
  intro s o s' hs hrun
  cases d with
  | error fault => cases hrun
  | ok p =>
      obtain ⟨hkept, hanswers⟩ := Experiment.batch_within (x := x) hgood [p] hs
      rcases hbatch : x.batch [p] s with ⟨os, s₁⟩
      rw [hbatch] at hkept hanswers
      have htrial :
          x.bench.trial p s = (os.headD (.error ⟨.run, "trial produced no outcome"⟩), s₁) := by
        rw [Bench.trial, bind_of (show x.bench.batch [p] s = _ from hbatch)]
        cases os <;> rfl
      rw [Attempt.runOn_of_ok_bind, Attempt.runOn_lift htrial] at hrun
      cases hrun
      refine ⟨hkept, ?_⟩
      cases os with
      | nil => exact Outcome.within_error _
      | cons o os => exact hanswers (p, o) (by simp)

theorem bench_within : x.bench.Traced (fun _ => True) fun answers s =>
    s.Within good ∧ ∀ a ∈ answers, a.2.Within good where
  cancelled _ := trivial
  batch _ _ := trivial
  seen _ := trivial
  answered := Experiment.length_batch
  looked h := ⟨⟨h.1.trials, h.1.memory⟩, h.2⟩
  tried ps h := by
    obtain ⟨hkept, hanswers⟩ := Experiment.batch_within (x := x) hgood ps h.1
    exact ⟨hkept, List.forall_mem_append.mpr ⟨h.2, hanswers⟩⟩

/-- Of a good score a search makes good ones. -/
theorem search_within {α : Type} [Candidate α] {space : Space α}
    (hkeys : (Search.keys space).Nodup) {whole : Score} (hwhole : good whole) :
    Maintains (Session.Within good)
      (fun found : SearchResult α => ∀ u ∈ found.suspects, good u.score)
      (Search.search x.bench space whole) := by
  intro s found s' hs hrun
  obtain ⟨found', answers, s₁, hrun', ⟨hkept, hanswers⟩, hfounded⟩ :=
    Search.search_founded whole hkeys (bench_within (x := x) hgood) ⟨hs, nofun⟩
  cases hrun'.symm.trans hrun
  refine ⟨hkept, fun u hu => ?_⟩
  obtain ⟨-, hscore⟩ | ⟨-, hmem⟩ := hfounded.suspects u hu
  · exact hscore ▸ hwhole
  · exact hanswers _ hmem _ rfl

theorem verifySuspects_within {α : Type} [Candidate α] (space : Space α)
    (suspects : List (Suspect α)) (context : String) (hr : r.Within good) :
    Maintains (Session.Within good) (fun p => (∀ v ∈ p.1, good v) ∧ p.2.Within good)
      (e.verifySuspects x space suspects context r) := by
  have hnone : ∀ v ∈ (none : Option Score), good v := by rintro _ ⟨⟩
  rw [verifySuspects]
  split
  · refine Maintains.bind (trial_within hgood _) fun o ho => Maintains.ret ?_
    cases o with
    | error f => exact ⟨hnone, hr.addIssue _⟩
    | ok v =>
        refine ⟨?_, hr⟩
        rintro _ ⟨⟩
        exact ho v rfl
  · exact Maintains.ret ⟨hnone, hr⟩

theorem searchSymbols_within {finding : FileFinding} (hfinding : finding.Within good)
    (listed : List LinkSymbol) (hr : r.Within good) :
    Maintains (Session.Within good) (fun p => p.1.Within good ∧ p.2.Within good)
      (e.searchSymbols x finding (LinkSymbol.distinct [] listed) r) := by
  have hkeys : (Search.keys (symbolSpace finding.unit listed)).Nodup :=
    (LinkSymbol.nodup_distinct [] listed).1
  rw [searchSymbols]
  refine Maintains.bind (trial_within hgood _) fun o ho => ?_
  cases o with
  | error f => exact Maintains.ret ⟨hfinding, hr.addIssue _⟩
  | ok whole =>
      simp only
      split
      · refine Maintains.bind (search_within hgood hkeys (ho whole rfl)) fun found hfound => ?_
        have hnoted := hr.noteSearch found
        refine Maintains.bind (verifySuspects_within hgood _ _ _ hnoted) fun p hp => ?_
        refine Maintains.ret ⟨⟨hfinding.score, ?_, hp.1⟩, hp.2⟩
        exact List.forall_mem_map.mpr hfound
      · exact Maintains.ret ⟨hfinding, hr.addIssue _⟩

theorem symbolPhase_within {finding : FileFinding} (hfinding : finding.Within good)
    (hr : r.Within good) :
    Maintains (Session.Within good) (fun p => p.1.Within good ∧ p.2.Within good)
      (e.symbolPhase x finding r) := by
  intro s p s' hs hrun
  have hlists : Preserves (Session.Within good) (e.listSymbols x finding.unit) :=
    Preserves.bind (fun _ hs => ⟨hs.trials, hs.memory⟩) fun _ => Preserves.ret _
  have hlisted := hlists s hs
  rcases hlist : e.listSymbols x finding.unit s with ⟨fault | symbols, s₁⟩ <;> rw [hlist] at hlisted
  · rw [runOn_symbolPhase_error finding hlist] at hrun
    cases hrun
    exact ⟨hlisted, hfinding, hr.addIssue _⟩
  · by_cases hsome : symbols = []
    · subst hsome
      rw [runOn_symbolPhase_nil finding hlist] at hrun
      cases hrun
      exact ⟨hlisted, hfinding, hr.addIssue _⟩
    · rw [runOn_symbolPhase finding hsome hlist] at hrun
      obtain ⟨listed, rfl⟩ := listSymbols_fst finding.unit (congrArg Prod.fst hlist)
      exact searchSymbols_within hgood hfinding listed hr s₁ p s' hlisted hrun

theorem suspectPhase_within {suspect : Suspect SourceUnit} (hsuspect : good suspect.score)
    (hr : r.Within good) :
    Maintains (Session.Within good) (Report.Within good) (e.suspectPhase x suspect r) := by
  have hfinding : (⟨suspect.candidate, suspect.score, [], none⟩ : FileFinding).Within good :=
    ⟨hsuspect, nofun, nofun⟩
  rw [suspectPhase]
  split
  · have hlook :
        Maintains (Session.Within good) (fun _ => True) (ExceptT.lift x.bench.cancelled) :=
      Maintains.lift fun s hs => ⟨⟨hs.trials, hs.memory⟩, trivial⟩
    refine Maintains.bind hlook fun stop _ => ?_
    cases stop with
    | true => exact Maintains.ret ((hr.addIssue _).addFile hfinding)
    | false =>
        refine Maintains.bind (symbolPhase_within hgood hfinding hr) fun p hp => Maintains.ret ?_
        exact hp.2.addFile hp.1
  · exact Maintains.ret (hr.addFile hfinding)

theorem suspectPhases_within {suspects : List (Suspect SourceUnit)}
    (hsuspects : ∀ u ∈ suspects, good u.score) (hr : r.Within good) :
    Maintains (Session.Within good) (Report.Within good) (e.suspectPhases x suspects r) := by
  induction suspects generalizing r with
  | nil => exact Maintains.ret hr
  | cons suspect rest ih =>
      obtain ⟨hsuspect, hrest⟩ := List.forall_mem_cons.mp hsuspects
      exact Maintains.bind (suspectPhase_within hgood hsuspect hr) fun r₁ hr₁ => ih hrest hr₁

theorem phases_within {units : List SourceUnit} (hkeys : (keysOf units).Nodup)
    (hr : r.Within good) :
    Maintains (Session.Within good) (Report.Within good) (e.phases x units r) := by
  have hspace : (Search.keys (fileSpace units)).Nodup := hkeys
  rw [phases]
  refine Maintains.bind (trial_within hgood _) fun o ho => ?_
  cases o with
  | error f => exact Maintains.ret ((hr.withStatus _).addIssue _)
  | ok whole =>
      have hwhole : ∀ v ∈ some whole, good v := by
        rintro _ ⟨⟩
        exact ho whole rfl
      have htried : ({ r with whole? := some whole } : Report).Within good :=
        ⟨hwhole, hr.files, hr.verification, hr.trials⟩
      simp only
      split
      · refine Maintains.bind (search_within hgood hspace (ho whole rfl)) fun found hfound => ?_
        have hnoted := htried.noteSearch found
        refine Maintains.bind (verifySuspects_within hgood _ _ _ hnoted) fun p hp => ?_
        exact suspectPhases_within hgood hfound
          ⟨hp.2.whole, hp.2.files, hp.1, hp.2.trials⟩
      · exact Maintains.ret ⟨hwhole, hr.files, hr.verification, hr.trials⟩

/-- Of the report of the phases and of its trials. -/
theorem closeReport_within {units : List SourceUnit} {r' : Report} {site : Site σ}
    {session : Session σ} (hr : r.Within good)
    (hrun : (e.phases x units r).runOn (.start site) = (.ok r', session)) (stop : Bool) :
    (closeReport stop session r').Within good := by
  have hkeys : (keysOf units).Nodup := by
    by_contra hkeys
    obtain ⟨fault, herror⟩ := e.phases_repeated x hkeys r (.start site)
    cases hrun.symm.trans herror
  obtain ⟨hsession, hr'⟩ := phases_within hgood hkeys hr _ _ _ (Session.within_start site) hrun
  exact ⟨hr'.whole, hr'.files, hr'.verification, hsession.trials⟩

end Within

end Engine

end Culprit
