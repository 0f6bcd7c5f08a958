import Culprit.Proofs.Bisection.Cancellation
import Culprit.Proofs.Search.Failures
import Culprit.Proofs.Session.Agreement

/-!
The failures of a bisection. Whichever phase asked for a trial that failed, the report has one
issue for it, and nothing else in the report comes from a trial that failed. Only a request to stop
can leave a failed trial without its issue.
-/

namespace Culprit

variable {σ : Type}

/-! ### What is on record -/

namespace Session

/-- A record says that the partition came to the outcome. -/
def Noted (s : Session σ) (p : Partition) (o : Outcome) : Prop :=
  Trial.note p o ∈ s.notes

/-- The failed trials. -/
def failures (s : Session σ) : Multiset (IssueKind × String) :=
  s.notes.filterMap Trial.failed?

/-- From one state to another the trials `answers` went on record. A request to stop stays, and
without one what is on record still agrees. -/
structure Onward (fired : σ → Prop) (answers : List (Partition × Outcome))
    (s s' : Session σ) : Prop where
  notes : s'.notes = s.notes + notesOf answers
  asked : s.Asked fired → s'.Asked fired
  agrees : Experiment.Agrees fired [] [] s → Experiment.Agrees fired [] [] s'

namespace Onward

variable {fired : σ → Prop} {answers answers' : List (Partition × Outcome)}
  {s s₁ s' : Session σ} {p : Partition} {o : Outcome}

theorem refl (s : Session σ) : Onward fired [] s s :=
  ⟨(add_zero _).symm, id, id⟩

theorem trans (h : Onward fired answers s s₁) (h' : Onward fired answers' s₁ s') :
    Onward fired (answers ++ answers') s s' where
  notes := by rw [h'.notes, h.notes, notesOf_append, add_assoc]
  asked hasked := h'.asked (h.asked hasked)
  agrees hagrees := h'.agrees (h.agrees hagrees)

theorem failures (h : Onward fired answers s s') :
    s'.failures = s.failures + failuresOf answers := by
  rw [Session.failures, h.notes, Multiset.filterMap_add]
  rfl

theorem noted (h : Onward fired answers s s') (hs : s.Noted p o) : s'.Noted p o := by
  rw [Noted, h.notes]
  exact Multiset.mem_add.mpr (.inl hs)

theorem noted_of_mem (h : Onward fired answers s s') (hmem : (p, o) ∈ answers) :
    s'.Noted p o := by
  rw [Noted, h.notes]
  exact Multiset.mem_add.mpr (.inr (Multiset.mem_coe.mpr (List.mem_map.mpr ⟨_, hmem, rfl⟩)))

end Onward

end Session

open Session (Onward)

/-! ### What a report says of trials -/

/-- Each suspect diverged alone, and the score of the verification is that of the suspects
together. `known` tells of trials. -/
structure Blamed {α : Type} [Candidate α] (space : Space α) (known : Partition → Outcome → Prop)
    (suspects : List (Suspect α)) (verification? : Option Score) : Prop where
  alone : ∀ u ∈ suspects, u.score.isDivergent = true ∧
    known (space.bipartition [Candidate.key u.candidate]) (.ok u.score)
  verified : ∀ v, verification? = some v →
    known (space.bipartition (keysOf (suspects.map (·.candidate)))) (.ok v)

namespace Blamed

variable {α : Type} [Candidate α] {space : Space α} {known : Partition → Outcome → Prop}

theorem unverified {suspects : List (Suspect α)} (halone : ∀ u ∈ suspects,
    u.score.isDivergent = true ∧
      known (space.bipartition [Candidate.key u.candidate]) (.ok u.score)) :
    Blamed space known suspects none where
  alone := halone
  verified := by simp

theorem nil : Blamed space known [] none :=
  unverified (by simp)

end Blamed

def SymbolFinding.suspect (g : SymbolFinding) : Suspect LinkSymbol :=
  ⟨g.symbol, g.score⟩

def FileFinding.suspect (f : FileFinding) : Suspect SourceUnit :=
  ⟨f.unit, f.score⟩

/-- The symbols of the file are blamed with reason. -/
def FileFinding.Shown (known : Partition → Outcome → Prop) (f : FileFinding) : Prop :=
  ∃ listed, Blamed (symbolSpace f.unit listed) known (f.symbols.map (·.suspect)) f.verification?

/-- Nothing is blamed on the symbols of a file that were not searched. -/
theorem FileFinding.Shown.unsearched {known : Partition → Outcome → Prop} (unit : SourceUnit)
    (score : Score) : (⟨unit, score, [], none⟩ : FileFinding).Shown known :=
  ⟨[], .nil⟩

/-- The interaction is one of files, or of symbols of one file. -/
def Interaction.Backed (units : List SourceUnit) (known : Partition → Outcome → Prop)
    (i : Interaction) : Prop :=
  i.Shown (fileSpace units) known ∨ ∃ u ∈ units, ∃ listed, i.Shown (symbolSpace u listed) known

/-- Every score in the report, every suspect and every share in an interaction comes from a trial
that ended with a score. -/
structure Report.Shown (units : List SourceUnit) (known : Partition → Outcome → Prop)
    (r : Report) : Prop where
  whole : ∀ v, r.whole? = some v → known ((fileSpace units).bipartition (keysOf units)) (.ok v)
  files : Blamed (fileSpace units) known (r.files.map (·.suspect)) r.verification?
  symbols : ∀ f ∈ r.files, f.Shown known
  interactions : ∀ i ∈ r.interactions, i.Backed units known

section Mono

variable {units : List SourceUnit} {known known' : Partition → Outcome → Prop}
  (hknown : ∀ p o, known p o → known' p o)

include hknown

theorem Blamed.mono {α : Type} [Candidate α] {space : Space α} {suspects : List (Suspect α)}
    {verification? : Option Score} (h : Blamed space known suspects verification?) :
    Blamed space known' suspects verification? where
  alone u hu := (h.alone u hu).imp_right (hknown _ _)
  verified v hv := hknown _ _ (h.verified v hv)

theorem FileFinding.Shown.mono {f : FileFinding} (h : f.Shown known) : f.Shown known' :=
  h.imp fun _ hblamed => hblamed.mono hknown

theorem Interaction.Backed.mono {i : Interaction} (h : i.Backed units known) :
    i.Backed units known' :=
  h.imp (Interaction.Shown.mono · hknown) fun ⟨u, hu, listed, hshown⟩ =>
    ⟨u, hu, listed, hshown.mono hknown⟩

theorem Report.Shown.mono {r : Report} (h : r.Shown units known) : r.Shown units known' where
  whole v hv := hknown _ _ (h.whole v hv)
  files := h.files.mono hknown
  symbols f hf := (h.symbols f hf).mono hknown
  interactions i hi := (h.interactions i hi).mono hknown

end Mono

/-! ### A lab with a request to stop -/

/-- Once a request to stop was made it stays, whatever the lab does, and a look tells whether there
is one by then. -/
structure Lab.Latched (lab : Lab σ) (fired : σ → Prop) : Prop where
  keeps : lab.Keeps fired
  builds (q : BuildRequest) : Preserves fired (lab.pipeline.build q).run
  lists (unit : SourceUnit) (flags : Flags) (dir : String) (timeout : Nat) :
    Preserves fired (lab.pipeline.symbols unit flags dir timeout).run
  seen {w : σ} : (lab.cancelled w).1 = true ↔ fired (lab.cancelled w).2

theorem Lab.Keeps.within {α : Type} {lab : Lab σ} {inv : σ → Prop} (h : lab.Keeps inv)
    (label : String) (body : String → Attempt σ α) (hbody : ∀ dir, Preserves inv (body dir).run) :
    Preserves (fun s : Site σ => inv s.world) (Site.within lab label body).run := by
  refine Preserves.bindExcept (h.acquire label) fun w => ?_
  refine Preserves.bindExcept (fun s hs => hbody w.path s.world hs) fun done => ?_
  have hdropped (s : Site σ) (hs : inv s.world) : inv (Site.release lab w s).2.world :=
    h.drop w s hs
  cases done with
  | error fault => exact fun s hs => hdropped s hs
  | ok a => exact fun s hs => hdropped s hs

theorem Lab.Latched.experiment {e : Engine σ} {fired : σ → Prop} (h : e.lab.Latched fired)
    (q : Request) (baseline : Baseline) : (e.experiment q baseline).Latched fired where
  keeps := ⟨h.keeps, fun _ _ => Preserves.adapt _ (h.builds _)⟩
  seen := h.seen

namespace Engine

variable {e : Engine σ} {x : Experiment σ} {fired : σ → Prop} {s s₁ s' : Session σ}
  {answers : List (Partition × Outcome)}

theorem onward_look (hx : x.Latched fired) (s : Session σ) :
    Onward fired [] s (x.bench.cancelled s).2 where
  notes := (add_zero _).symm
  asked hasked := hx.keeps.lab.cancelled _ hasked
  agrees hagrees := hagrees.imp (hx.keeps.lab.cancelled _) fun h => ⟨h.recalls, h.owing⟩

theorem onward_batch (hx : x.Latched fired) (ps : List Partition) (s : Session σ) :
    Onward fired (ps.zip (x.batch ps s).1) s (x.batch ps s).2 where
  notes := (Experiment.batch_accounted x ps s).1
  asked hasked := Experiment.batch_keeps hx.keeps (fun _ _ => trivial) hasked
  agrees hagrees := Experiment.batch_agrees hx ps hagrees

theorem onward_list (hlab : e.lab.Latched fired) (unit : SourceUnit) (s : Session σ) :
    Onward fired [] s (e.listSymbols x unit s).2 := by
  have hkeeps : s.Asked fired → (e.listSymbols x unit s).2.Asked fired :=
    fun hasked => hlab.keeps.within ("symbols-" ++ unit.objectStem)
      (fun dir => e.lab.pipeline.symbols unit e.trusted dir x.buildTimeout)
      (fun dir => hlab.lists unit e.trusted dir x.buildTimeout) s.site hasked
  exact ⟨(add_zero _).symm, hkeeps, fun hagrees => hagrees.imp hkeeps fun h =>
    ⟨h.recalls, h.owing⟩⟩

theorem bench_traced (hx : x.Latched fired) (s : Session σ) :
    x.bench.Traced (·.Asked fired) fun answers s' => Onward fired answers s s' where
  cancelled hasked := hx.keeps.lab.cancelled _ hasked
  batch ps hasked := Experiment.batch_keeps hx.keeps (fun _ _ => trivial) hasked
  seen := hx.seen.mp
  answered := Experiment.length_batch
  looked {answers s'} h := by
    have hlook := h.trans (onward_look hx s')
    rwa [List.append_nil] at hlook
  tried {answers s'} ps h := h.trans (onward_batch hx ps s')

/-- A trial of its own goes on record. -/
theorem exists_onward {α : Type} [Candidate α] {space : Space α} (hx : x.Latched fired)
    (hkeys : (Search.keys space).Nodup) {V : List String} (hsub : V.Sublist (Search.keys space))
    (s : Session σ) :
    ∃ o s', Attempt.runOn (Attempt.of (Partition.of space.scope (Search.keys space) V) >>= fun p =>
        ExceptT.lift (x.bench.trial p)) s = (.ok o, s') ∧
      Onward fired [(space.bipartition V, o)] s s' := by
  obtain ⟨o, s', htry, hrun⟩ := Search.exists_trial (b := x.bench)
    (fun ps s => Experiment.length_batch ps s) hkeys hsub s
  refine ⟨o, s', hrun, ?_⟩
  have honward := onward_batch hx [space.bipartition V] s
  have htry : x.batch [space.bipartition V] s = ([o], s') := htry
  rwa [htry] at honward

theorem confirm_onward {α : Type} [Candidate α] {space : Space α} (hx : x.Latched fired)
    (hkeys : (Search.keys space).Nodup) (s : Session σ) :
    ∃ o s', (Search.confirm x.bench space).runOn s = (.ok o, s') ∧
      Onward fired [(space.bipartition (Search.keys space), o)] s s' := by
  rw [Search.confirm, Search.partition, Search.memberKeys_zipIdx]
  exact exists_onward hx hkeys (List.Sublist.refl _) s

/-! ### From record to report -/

/-- On the way from one report and state to another every failed trial was reported once, and so
was every interaction. -/
structure Surfaces (fired : σ → Prop) (units : List SourceUnit) (issues : List Issue)
    (interactions : List Interaction) (s : Session σ) (issues' : List Issue)
    (interactions' : List Interaction) (s' : Session σ) : Prop where
  onward : ∃ answers, Onward fired answers s s'
  failures : s.Asked fired ∨ surfaced issues = s.failures →
    s'.Asked fired ∨ surfaced issues' = s'.failures
  interactions : (∀ i ∈ interactions, i.Backed units s.Noted) →
    ∀ i ∈ interactions', i.Backed units s'.Noted

/-- The same of whole reports. -/
abbrev Reports (fired : σ → Prop) (units : List SourceUnit) (r : Report) (s : Session σ)
    (r' : Report) (s' : Session σ) : Prop :=
  Surfaces fired units r.issues r.interactions s r'.issues r'.interactions s'

/-- The fields of a report that issues do not touch. -/
def findings (r : Report) : Option Score × List FileFinding × Option Score :=
  (r.whole?, r.files, r.verification?)

theorem findings_eq {r : Report} {whole? verification? : Option Score}
    {files : List FileFinding} : findings r = (whole?, files, verification?) ↔
      r.whole? = whole? ∧ r.files = files ∧ r.verification? = verification? := by
  simp [findings]

variable {units : List SourceUnit} {issues issues₁ issues' : List Issue}
  {interactions interactions₁ interactions' : List Interaction} {r r' : Report}

namespace Surfaces

theorem noted (h : Surfaces fired units issues interactions s issues' interactions' s')
    (p : Partition) (o : Outcome) (hs : s.Noted p o) : s'.Noted p o := by
  obtain ⟨_, honward⟩ := h.onward
  exact honward.noted hs

theorem trans (h : Surfaces fired units issues interactions s issues₁ interactions₁ s₁)
    (h' : Surfaces fired units issues₁ interactions₁ s₁ issues' interactions' s') :
    Surfaces fired units issues interactions s issues' interactions' s' where
  onward := by
    obtain ⟨_, honward⟩ := h.onward
    obtain ⟨_, honward'⟩ := h'.onward
    exact ⟨_, honward.trans honward'⟩
  failures hfailures := h'.failures (h.failures hfailures)
  interactions hbacked := h'.interactions (h.interactions hbacked)

/-- What the trials `answers` come to is added. -/
theorem add (honward : Onward fired answers s s')
    (hissues : s'.Asked fired ∨ surfaced issues' = failuresOf answers)
    (hbacked : ∀ i ∈ interactions', i.Backed units s'.Noted) :
    Surfaces fired units issues interactions s (issues ++ issues') (interactions ++ interactions')
      s' where
  onward := ⟨answers, honward⟩
  failures hfailures := by
    rcases hfailures with hasked | hfailures
    · exact .inl (honward.asked hasked)
    · refine hissues.imp_right fun hissues => ?_
      rw [surfaced_append, honward.failures, hfailures, hissues]
  interactions hold i hi := by
    rcases List.mem_append.mp hi with hi | hi
    · exact (hold i hi).mono fun p o => honward.noted
    · exact hbacked i hi

/-- The failures among the trials `answers` are added, and no interaction. -/
theorem addIssues (honward : Onward fired answers s s')
    (hissues : surfaced issues' = failuresOf answers) :
    Surfaces fired units issues interactions s (issues ++ issues') interactions s' := by
  have h : Surfaces fired units issues interactions s (issues ++ issues') (interactions ++ []) s' :=
    add honward (.inr hissues) fun _ hi => absurd hi List.not_mem_nil
  rwa [List.append_nil] at h

/-- No trial failed, and nothing is added. -/
theorem pass (honward : Onward fired answers s s') (hnone : failuresOf answers = 0) :
    Surfaces fired units issues interactions s issues interactions s' := by
  have h : Surfaces fired units issues interactions s (issues ++ []) interactions s' :=
    addIssues honward hnone.symm
  rwa [List.append_nil] at h

/-- No trial failed, and the issue that is added says nothing of one. -/
theorem addIssue {i : Issue} (honward : Onward fired answers s s') (hnone : failuresOf answers = 0)
    (hi : i.failure? = none) :
    Surfaces fired units issues interactions s (issues ++ [i]) interactions s' := by
  refine addIssues honward ?_
  rw [hnone, surfaced, List.filterMap_cons_none hi]
  rfl

/-- A trial failed, and its issue is added. -/
theorem failure {p : Partition} {f : Failure} (context : String)
    (honward : Onward fired [(p, .error f)] s s') :
    Surfaces fired units issues interactions s (issues ++ [.ofFailure context f]) interactions
      s' := by
  refine addIssues honward ?_
  rw [surfaced, List.filterMap_cons_some (Issue.failure?_ofFailure context f)]
  rfl

end Surfaces

/-! ### The phases -/

/-- A search, and the trial of its suspects where one is wanted. -/
theorem search_verify_reports {α : Type} [Candidate α] {space : Space α} (hx : x.Latched fired)
    (hkeys : (Search.keys space).Nodup)
    (hbacked : ∀ (known : Partition → Outcome → Prop) (i : Interaction), i.Shown space known →
      i.Backed units known)
    {whole : Score} (hdivergent : whole.isDivergent = true)
    (hwhole : s.Noted (space.bipartition (Search.keys space)) (.ok whole)) (context : String)
    (r : Report) :
    ∃ found s₁ verified r' s', (Search.search x.bench space whole).runOn s = (.ok found, s₁) ∧
      (e.verifySuspects x space found.suspects context (noteSearch r found)).runOn s₁ =
        (.ok (verified, r'), s') ∧
      Reports fired units r s r' s' ∧ findings r' = findings r ∧
      (found.suspects.map (·.candidate)).Sublist space.candidates ∧
      Blamed space s'.Noted found.suspects verified := by
  obtain ⟨found, answers, s₁, hsearch, honward, hfounded⟩ :=
    Search.search_founded whole hkeys (bench_traced hx s) (.refl s)
  have hsearched : Reports fired units r s (noteSearch r found) s₁ := .add honward hfounded.issues
    fun i hi => hbacked _ i ((hfounded.interactions i hi).mono fun p o => honward.noted_of_mem)
  have halone : ∀ u ∈ found.suspects, u.score.isDivergent = true ∧
      s₁.Noted (space.bipartition [Candidate.key u.candidate]) (.ok u.score) := by
    intro u hu
    rcases hfounded.suspects u hu with ⟨honly, hscore⟩ | ⟨hdiv, hmem⟩
    · -- The only candidate was alone in the trial of the whole.
      rw [Search.keys, honly] at hwhole
      rw [hscore]
      exact ⟨hdivergent, honward.noted hwhole⟩
    · exact ⟨hdiv, honward.noted_of_mem hmem⟩
  by_cases hverifies : e.verify = true ∧ found.suspects ≠ []
  · obtain ⟨hverify, hsome⟩ := hverifies
    obtain ⟨o, s', htrial, honward'⟩ :=
      exists_onward hx hkeys (hfounded.sublist.map Candidate.key) s₁
    refine ⟨found, s₁, _, _, s', hsearch,
      runOn_verifySuspects hverify hsome htrial context (noteSearch r found), ?_⟩
    have hnoted := fun u hu => (halone u hu).imp_right honward'.noted
    cases o with
    | ok score =>
        refine ⟨hsearched.trans (.pass honward' rfl), rfl, hfounded.sublist, hnoted, ?_⟩
        intro v hv
        obtain rfl : score = v := Option.some.inj hv
        exact honward'.noted_of_mem List.mem_cons_self
    | error f =>
        exact ⟨hsearched.trans (.failure context honward'), rfl, hfounded.sublist,
          .unverified hnoted⟩
  · exact ⟨found, s₁, none, noteSearch r found, s₁, hsearch,
      runOn_verifySuspects_skip hverifies context _ s₁, hsearched, rfl, hfounded.sublist,
      .unverified halone⟩

theorem searchSymbols_reports (hx : x.Latched fired) {unit : SourceUnit} (hunit : unit ∈ units)
    (score : Score) (listed : List LinkSymbol) (r : Report) (s : Session σ) :
    ∃ finding r' s', (e.searchSymbols x ⟨unit, score, [], none⟩ (LinkSymbol.distinct [] listed)
        r).runOn s = (.ok (finding, r'), s') ∧
      Reports fired units r s r' s' ∧ findings r' = findings r ∧
      finding.suspect = ⟨unit, score⟩ ∧ finding.Shown s'.Noted := by
  have hkeys : (Search.keys (symbolSpace unit listed)).Nodup :=
    (LinkSymbol.nodup_distinct [] listed).1
  have hspace : (⟨.symbols unit.path, LinkSymbol.distinct [] listed⟩ : Space LinkSymbol) =
      symbolSpace unit listed := rfl
  obtain ⟨o, s₁, hconfirm, honward⟩ := confirm_onward hx hkeys s
  simp only [searchSymbols, hspace]
  rw [Attempt.runOn_bind, hconfirm]
  cases o with
  | error f => exact ⟨_, _, s₁, rfl, .failure _ honward, rfl, rfl, .unsearched unit score⟩
  | ok whole =>
      cases hdivergent : whole.isDivergent with
      | false =>
          simp only [hdivergent, Bool.false_eq_true, if_false]
          exact ⟨_, _, s₁, rfl, .addIssue honward rfl rfl, rfl, rfl,
            .unsearched unit score⟩
      | true =>
          have hbacked (known : Partition → Outcome → Prop) (i : Interaction)
              (hshown : i.Shown (symbolSpace unit listed) known) : i.Backed units known :=
            .inr ⟨unit, hunit, listed, hshown⟩
          obtain ⟨found, s₂, verified, r', s', hsearch, hverify, hreports, hfindings, -, hblamed⟩ :=
            search_verify_reports (e := e) hx hkeys hbacked hdivergent
              (honward.noted_of_mem List.mem_cons_self)
              ("suspect symbols of " ++ unit.path ++ " variant") r
          simp only [hdivergent, if_true]
          rw [Attempt.runOn_bind, hsearch]
          simp only
          rw [Attempt.runOn_bind, hverify]
          refine ⟨_, r', s', rfl, .trans (.pass honward rfl) hreports, hfindings, rfl, listed, ?_⟩
          simpa [Function.comp_def, SymbolFinding.suspect] using hblamed

theorem symbolPhase_reports (hlab : e.lab.Latched fired) (hx : x.Latched fired)
    {unit : SourceUnit} (hunit : unit ∈ units) (score : Score) (r : Report) (s : Session σ) :
    ∃ finding r' s', (e.symbolPhase x ⟨unit, score, [], none⟩ r).runOn s =
        (.ok (finding, r'), s') ∧
      Reports fired units r s r' s' ∧ findings r' = findings r ∧
      finding.suspect = ⟨unit, score⟩ ∧ finding.Shown s'.Noted := by
  have honward := onward_list (x := x) hlab unit s
  rcases hlist : e.listSymbols x unit s with ⟨fault | symbols, s₁⟩ <;> rw [hlist] at honward
  · rw [runOn_symbolPhase_error ⟨unit, score, [], none⟩ hlist]
    exact ⟨_, _, s₁, rfl, .addIssue honward rfl rfl, rfl, rfl, .unsearched unit score⟩
  · by_cases hsome : symbols = []
    · subst hsome
      rw [runOn_symbolPhase_nil ⟨unit, score, [], none⟩ hlist]
      exact ⟨_, _, s₁, rfl, .addIssue honward rfl rfl, rfl, rfl, .unsearched unit score⟩
    · rw [runOn_symbolPhase ⟨unit, score, [], none⟩ hsome hlist]
      obtain ⟨listed, rfl⟩ := listSymbols_fst unit (congrArg Prod.fst hlist)
      obtain ⟨finding, r', s', hrun, hreports, hrest⟩ :=
        searchSymbols_reports (e := e) hx hunit score listed r s₁
      exact ⟨finding, r', s', hrun, .trans (.pass honward rfl) hreports, hrest⟩

theorem suspectPhase_reports (hlab : e.lab.Latched fired) (hx : x.Latched fired)
    {suspect : Suspect SourceUnit} (hunit : suspect.candidate ∈ units) (r : Report)
    (s : Session σ) :
    ∃ finding r' s', (e.suspectPhase x suspect r).runOn s = (.ok r', s') ∧
      Reports fired units r s r' s' ∧
      findings r' = (r.whole?, r.files ++ [finding], r.verification?) ∧
      finding.suspect = suspect ∧ finding.Shown s'.Noted := by
  cases hsymbols : e.symbols with
  | false =>
      rw [suspectPhase, hsymbols]
      exact ⟨_, _, s, rfl, .pass (.refl s) rfl, rfl, rfl, .unsearched _ _⟩
  | true =>
      have honward := onward_look hx s
      rw [suspectPhase, hsymbols]
      simp only [if_true]
      rw [Attempt.runOn_lift_bind]
      rcases hlook : x.bench.cancelled s with ⟨_ | _, s₁⟩ <;> rw [hlook] at honward
      · obtain ⟨finding, r', s', hphase, hreports, hfindings, hsuspect, hshown⟩ :=
          symbolPhase_reports hlab hx hunit suspect.score r s₁
        simp only [Bool.false_eq_true, if_false]
        rw [Attempt.runOn_bind, hphase]
        obtain ⟨hwhole, hfiles, hverified⟩ := findings_eq.mp hfindings
        exact ⟨finding, _, s', rfl, .trans (.pass honward rfl) hreports,
          findings_eq.mpr ⟨hwhole, hfiles ▸ rfl, hverified⟩, hsuspect, hshown⟩
      · exact ⟨_, _, s₁, rfl, .addIssue honward rfl rfl, rfl, rfl, .unsearched _ _⟩

theorem suspectPhases_reports (hlab : e.lab.Latched fired) (hx : x.Latched fired)
    {suspects : List (Suspect SourceUnit)} (hunits : ∀ u ∈ suspects, u.candidate ∈ units)
    (r : Report) (s : Session σ) :
    ∃ files r' s', (e.suspectPhases x suspects r).runOn s = (.ok r', s') ∧
      Reports fired units r s r' s' ∧
      findings r' = (r.whole?, r.files ++ files, r.verification?) ∧
      files.map (·.suspect) = suspects ∧ ∀ f ∈ files, f.Shown s'.Noted := by
  induction suspects generalizing r s with
  | nil =>
      refine ⟨[], r, s, rfl, .pass (.refl s) rfl, ?_, rfl, fun _ hf => absurd hf List.not_mem_nil⟩
      rw [List.append_nil]
      rfl
  | cons suspect rest ih =>
      obtain ⟨hunit, hrest⟩ := List.forall_mem_cons.mp hunits
      obtain ⟨finding, r₁, s₁, hfirst, hreports, hfindings, hsuspect, hshown⟩ :=
        suspectPhase_reports hlab hx hunit r s
      obtain ⟨files, r', s', hothers, hreports', hfindings', hsuspects, hshown'⟩ := ih hrest r₁ s₁
      obtain ⟨hwhole, hfiles, hverified⟩ := findings_eq.mp hfindings
      refine ⟨finding :: files, r', s', ?_, hreports.trans hreports', ?_, ?_, ?_⟩
      · rw [suspectPhases, Attempt.runOn_bind, hfirst]
        exact hothers
      · rw [hfindings', hwhole, hfiles, hverified, List.append_assoc]
        rfl
      · rw [List.map_cons, hsuspect, hsuspects]
      · exact List.forall_mem_cons.mpr ⟨hshown.mono hreports'.noted, hshown'⟩

theorem shown_of_findings {known : Partition → Outcome → Prop} {whole? verified : Option Score}
    {files : List FileFinding} (hfindings : findings r = (whole?, files, verified))
    (hwhole : ∀ v, whole? = some v → known ((fileSpace units).bipartition (keysOf units)) (.ok v))
    (hblamed : Blamed (fileSpace units) known (files.map (·.suspect)) verified)
    (hfiles : ∀ f ∈ files, f.Shown known) (hbacked : ∀ i ∈ r.interactions, i.Backed units known) :
    r.Shown units known := by
  obtain ⟨rfl, rfl, rfl⟩ := findings_eq.mp hfindings
  exact ⟨hwhole, hblamed, hfiles, hbacked⟩

/-- The phases come to a report, and what it shows was tried. -/
theorem phases_reports (hlab : e.lab.Latched fired) (hx : x.Latched fired)
    (hkeys : (keysOf units).Nodup) {r : Report} (hblank : findings r = (none, [], none))
    (s : Session σ) (hbacked : ∀ i ∈ r.interactions, i.Backed units s.Noted) :
    ∃ r' s', (e.phases x units r).runOn s = (.ok r', s') ∧ Reports fired units r s r' s' ∧
      r'.Shown units s'.Noted := by
  have hspace : (Search.keys (fileSpace units)).Nodup := hkeys
  obtain ⟨-, hfiles, hverified⟩ := findings_eq.mp hblank
  obtain ⟨o, s₁, hconfirm, honward⟩ := confirm_onward hx hspace s
  rw [phases, Attempt.runOn_bind, ← fileSpace, hconfirm]
  cases o with
  | error f =>
      have hreports : Reports fired units r s
          ({ r with status := .aborted }.addIssue (.ofFailure "all files variant" f)) s₁ :=
        .failure _ honward
      exact ⟨_, s₁, rfl, hreports, shown_of_findings hblank (by simp) .nil (by simp)
        (hreports.interactions hbacked)⟩
  | ok whole =>
      have hnoted : s₁.Noted ((fileSpace units).bipartition (keysOf units)) (.ok whole) :=
        honward.noted_of_mem List.mem_cons_self
      have htried : Reports fired units r s { r with whole? := some whole } s₁ := .pass honward rfl
      cases hdivergent : whole.isDivergent with
      | false =>
          simp only [hdivergent, Bool.false_eq_true, if_false]
          exact ⟨_, s₁, rfl, htried, shown_of_findings (findings_eq.mpr ⟨rfl, hfiles, hverified⟩)
            (fun v hv => Option.some.inj hv ▸ hnoted) .nil (by simp)
            (htried.interactions hbacked)⟩
      | true =>
          have hfile (known : Partition → Outcome → Prop) (i : Interaction)
              (hshown : i.Shown (fileSpace units) known) : i.Backed units known := .inl hshown
          obtain ⟨found, s₂, verified, r₁, s₃, hsearch, hverify, hreports, hfindings, hsub,
            hblamed⟩ := search_verify_reports (e := e) hx hspace hfile hdivergent hnoted
              "suspect files variant" { r with whole? := some whole }
          have hunits : ∀ u ∈ found.suspects, u.candidate ∈ units :=
            fun u hu => hsub.subset (List.mem_map_of_mem hu)
          obtain ⟨hwhole₁, hfiles₁, -⟩ := findings_eq.mp hfindings
          obtain ⟨files, r', s', hphases, hreports', hfindings', hsuspects, hshown⟩ :=
            suspectPhases_reports hlab hx hunits { r₁ with verification? := verified } s₃
          have hall := (htried.trans hreports).trans hreports'
          simp only [hdivergent, if_true]
          rw [Attempt.runOn_bind, hsearch]
          simp only
          rw [Attempt.runOn_bind, hverify]
          refine ⟨r', s', hphases, hall, ?_⟩
          simp only [hwhole₁, hfiles₁, hfiles, List.nil_append] at hfindings'
          refine shown_of_findings hfindings' (fun v hv => ?_) ?_ hshown (hall.interactions hbacked)
          · exact Option.some.inj hv ▸ hreports'.noted _ _ (hreports.noted _ _ hnoted)
          · exact hsuspects ▸ hblamed.mono hreports'.noted

end Engine

/-! ### The report -/

/-- The outcome is on record, and no record of the same signature says otherwise. -/
def Report.Tells (r : Report) (p : Partition) (o : Outcome) : Prop :=
  (∃ t ∈ r.trials, t.gist = Trial.note p o) ∧
    ∀ t ∈ r.trials, t.signature = p.signature → t.Tells o

namespace Session

theorem failures_eq (s : Session σ) : s.failures = s.trials.filterMap Trial.failed? := by
  rw [failures, notes, Multiset.filterMap_coe, List.filterMap_map]
  rfl

theorem Recalls.tells {s : Session σ} (h : s.Recalls) {p : Partition} {o : Outcome}
    (hnoted : s.Noted p o) (stop : Bool) (r : Report) :
    (Engine.closeReport stop s r).Tells p o := by
  obtain ⟨t, ht, hgist⟩ := List.mem_map.mp hnoted
  have htells : t.Tells o :=
    ⟨congrArg Trial.score? hgist, congrArg Trial.failure? hgist⟩
  have hsignature := congrArg Trial.signature hgist
  exact ⟨⟨t, ht, hgist⟩, fun t' ht' heq =>
    h.agree ht' ht (heq.trans hsignature.symm) htells⟩

theorem start_agreed (site : Site σ) : Agreed [] [] (start site) :=
  ⟨.nil, Owing.idle List.nodup_nil⟩

end Session

/-- A bisection that comes to a report without a request to stop has reported each failed trial by
one issue, of its kind and with its detail. Every score, every suspect and every share in an
interaction comes from a trial that did not fail, also where it was repeated, and so do the halves
of every set whose members were tried alone. -/
theorem bisect_surfaces_failures (e : Engine σ) (q : Request) (fired : σ → Prop)
    (s s' : Archive σ) (r : Report) (hlab : e.lab.Latched fired)
    (hrun : (e.bisect q).runOn s = (.ok r, s')) (hgoing : ¬fired s'.site.world) :
    (r.issues.filterMap Issue.failure?).Perm (r.trials.filterMap Trial.failed?) ∧
      ∃ now units baseline s₁, (e.prepare q).runOn s = (.ok (now, units, baseline), s₁) ∧
        r.Shown units r.Tells := by
  obtain ⟨now, units, baseline, s₁, hprepare⟩ := Engine.exists_prepare hrun
  by_cases hkeys : (keysOf units).Nodup
  · have hx := hlab.experiment q baseline
    obtain ⟨r₀, session, hphases, hreports, hshown⟩ := Engine.phases_reports hlab hx hkeys
      (r := e.blank q now) rfl (.start s₁.site) fun _ hi => absurd hi List.not_mem_nil
    obtain ⟨hr, hs'⟩ := Prod.mk.inj ((Engine.runOn_bisect hprepare hphases rfl).symm.trans hrun)
    obtain rfl := Except.ok.inj hr
    -- A request before the end of the phases would be there at the end.
    have hunasked : ¬session.Asked fired := fun hasked =>
      hgoing (hs' ▸ hlab.keeps.cancelled _ hasked)
    obtain ⟨_, honward⟩ := hreports.onward
    have hagreed := (honward.agrees (.inr (Session.start_agreed s₁.site))).resolve_left hunasked
    have hfailures := (hreports.failures (.inr rfl)).resolve_left hunasked
    rw [Session.failures_eq] at hfailures
    refine ⟨Multiset.coe_eq_coe.mp hfailures, now, units, baseline, s₁, hprepare, ?_⟩
    have htold := hshown.mono fun p o hnoted =>
      hagreed.recalls.tells hnoted (e.lab.cancelled session.site.world).1 r₀
    exact ⟨htold.whole, htold.files, htold.symbols, htold.interactions⟩
  · obtain ⟨fault, hphases⟩ := e.phases_repeated (e.experiment q baseline) hkeys (e.blank q now)
      (.start s₁.site)
    rw [Engine.runOn_bisect_error hprepare hphases] at hrun
    cases hrun

/-- Nobody asks a scenario without stops to stop. -/
theorem Scenario.latched {c : Scenario} (hstops : ∀ ps, c.stops ps = false) :
    c.lab.Latched fun _ => False where
  keeps := (Experiment.keeps_false c.experiment).lab
  builds _ _ h := h.elim
  lists _ _ _ _ _ h := h.elim
  seen {w} := by
    show c.stops w.built = true ↔ False
    simp [hstops]

namespace StuckSymbol

/-- A file diverges, and a build with its only symbol variant fails. -/
def scenario : Scenario where
  units := [⟨"a.c"⟩]
  symbols := fun _ => [⟨"a.c", "g", "g()", none, none⟩]
  ends := fun p =>
    match p.scope with
    | .units => .ok ⟨.code 0, if p.variant = [] then "" else "x", "", 1⟩
    | .symbols _ => .error (.reported "undefined symbol g")
  stops := fun _ => false

/-- Suspects are not tried together. -/
def engine : Engine Shelf :=
  { scenario.engine with verify := false }

end StuckSymbol

set_option maxRecDepth 10000 in
/-- The failure comes in the second phase, and it is the only one. -/
theorem bisect_surfaces_failures_stuckSymbol :
    ∃ r s', (StuckSymbol.engine.bisect Scenario.request).runOn ⟨⟨.empty, .empty⟩, .empty⟩ =
        (.ok r, s') ∧ r.issues = [⟨.buildFailure, "symbols of a.c", "undefined symbol g"⟩] ∧
      (r.trials.filterMap Trial.failed?).Perm [(.buildFailure, "undefined symbol g")] := by
  have hissues : ((StuckSymbol.engine.bisect Scenario.request).runOn
      ⟨⟨.empty, .empty⟩, .empty⟩).1.map (·.issues) =
        .ok [⟨.buildFailure, "symbols of a.c", "undefined symbol g"⟩] := by
    decide +kernel
  rcases hrun : (StuckSymbol.engine.bisect Scenario.request).runOn
    ⟨⟨.empty, .empty⟩, .empty⟩ with ⟨fault | r, s'⟩ <;> rw [hrun] at hissues
  · cases hissues
  · have hreported : r.issues = _ := Except.ok.inj hissues
    have hlatched : StuckSymbol.engine.lab.Latched fun _ => False :=
      Scenario.latched (c := StuckSymbol.scenario) fun _ => rfl
    obtain ⟨hperm, -⟩ := bisect_surfaces_failures StuckSymbol.engine Scenario.request
      (fun _ => False) _ s' r hlatched hrun id
    rw [hreported] at hperm
    exact ⟨r, s', rfl, hreported, hperm.symm⟩

end Culprit
