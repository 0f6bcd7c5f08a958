import Culprit.Proofs.Bisection.Failures
import Culprit.Proofs.Search.Frontier
import Culprit.Proofs.Survey.Stages

/-!
How a bisection ends. Once there are a baseline and units that can be told apart, nothing that
happens in a trial or in the listing of symbols ends it early, and every suspect unit has its
finding. Along the way a condition lasts if batches keep it, as long as no set whose members are
tried one at a time is too large for it.
-/

namespace Culprit

variable {σ : Type}

/-- What everything keeps that the phases do, if no batch has more than `room` partitions. -/
structure Engine.Admits (e : Engine σ) (x : Experiment σ) (room : Nat) (inv : Session σ → Prop) :
    Prop where
  bench : x.bench.Admits room inv
  listed (unit : SourceUnit) : Preserves inv (e.listSymbols x unit)
  roomy : 2 ≤ room

/-- From one report and state to another no interaction gets lost, and the condition lasts if none
is too large. -/
structure Lasts (room : Nat) (inv : Session σ → Prop) (r : Report) (s : Session σ) (r' : Report)
    (s' : Session σ) : Prop where
  kept : r.interactions ⊆ r'.interactions
  lasts : Interaction.Fit room r'.interactions → inv s → inv s'

namespace Lasts

variable {room : Nat} {inv : Session σ → Prop} {r r₁ r' : Report} {s s₁ s' : Session σ}

theorem trans (h : Lasts room inv r s r₁ s₁) (h' : Lasts room inv r₁ s₁ r' s') :
    Lasts room inv r s r' s' where
  kept := List.Subset.trans h.kept h'.kept
  lasts hfit hs := h'.lasts hfit (h.lasts (hfit.mono h'.kept) hs)

/-- No interaction was found. -/
theorem pass (h : inv s → inv s') (hsame : r'.interactions = r.interactions) :
    Lasts room inv r s r' s' where
  kept := hsame ▸ List.Subset.refl _
  lasts _ := h

end Lasts

/-- What the search of the units comes to: no suspects where all units variant make no difference
or cannot be tried. -/
inductive FileSearch (x : Experiment σ) (units : List SourceUnit) (s : Session σ) :
    List (Suspect SourceUnit) → Prop
  | none {o : Outcome} {s' : Session σ}
      (hconfirm : (Search.confirm x.bench (fileSpace units)).runOn s = (.ok o, s'))
      (hsame : ∀ whole, o = .ok whole → whole.isDivergent = false) : FileSearch x units s []
  | found {whole : Score} {found : SearchResult SourceUnit} {s₁ s₂ : Session σ}
      (hconfirm : (Search.confirm x.bench (fileSpace units)).runOn s = (.ok (.ok whole), s₁))
      (hdivergent : whole.isDivergent = true)
      (hsearch : (Search.search x.bench (fileSpace units) whole).runOn s₁ = (.ok found, s₂)) :
      FileSearch x units s found.suspects

namespace Engine

/-! ### The phases -/

section Phases

variable {e : Engine σ} {x : Experiment σ} {room : Nat} {inv : Session σ → Prop}

theorem noteVerification_kept (r : Report) (context : String) (o : Outcome) :
    (noteVerification r context o).2.files = r.files ∧
      (noteVerification r context o).2.interactions = r.interactions := by
  cases o <;> exact ⟨rfl, rfl⟩

/-- A search, and the trial of its suspects where one is wanted. -/
theorem search_verify_lasts {α : Type} [Candidate α] {space : Space α}
    (h : e.Admits x room inv) (hkeys : (Search.keys space).Nodup) (whole : Score) (context : String)
    (r : Report) (s : Session σ) :
    ∃ found s₁ verified r' s', (Search.search x.bench space whole).runOn s = (.ok found, s₁) ∧
      (e.verifySuspects x space found.suspects context (noteSearch r found)).runOn s₁ =
        (.ok (verified, r'), s') ∧
      r'.files = r.files ∧ Lasts room inv r s r' s' := by
  obtain ⟨found, s₁, hsearch, hsub, hlasts⟩ :=
    Search.exists_search_admits h.bench h.roomy hkeys whole s
  have hsearched : Lasts room inv r s (noteSearch r found) s₁ :=
    ⟨List.subset_append_left _ _, fun hfit => hlasts (hfit.mono (List.subset_append_right _ _))⟩
  by_cases hverifies : e.verify = true ∧ found.suspects ≠ []
  · obtain ⟨hverify, hsome⟩ := hverifies
    obtain ⟨o, s', htrial, htried⟩ := Search.exists_trial_admits h.bench
      (Nat.le_of_succ_le h.roomy) hkeys (hsub.map Candidate.key) s₁
    obtain ⟨hfiles, hinteractions⟩ := noteVerification_kept (noteSearch r found) context o
    exact ⟨found, s₁, _, _, s', hsearch,
      runOn_verifySuspects hverify hsome htrial context (noteSearch r found), hfiles,
      hsearched.trans (.pass htried hinteractions)⟩
  · exact ⟨found, s₁, none, noteSearch r found, s₁, hsearch,
      runOn_verifySuspects_skip hverifies context _ s₁, rfl, hsearched⟩

theorem searchSymbols_lasts (h : e.Admits x room inv) (finding : FileFinding)
    (listed : List LinkSymbol) (r : Report) (s : Session σ) :
    ∃ finding' r' s', (e.searchSymbols x finding (LinkSymbol.distinct [] listed) r).runOn s =
        (.ok (finding', r'), s') ∧
      finding'.suspect = finding.suspect ∧ r'.files = r.files ∧ Lasts room inv r s r' s' := by
  have hkeys : (Search.keys (symbolSpace finding.unit listed)).Nodup :=
    (LinkSymbol.nodup_distinct [] listed).1
  have hspace : (⟨.symbols finding.unit.path, LinkSymbol.distinct [] listed⟩ : Space LinkSymbol) =
      symbolSpace finding.unit listed := rfl
  obtain ⟨o, s₁, hconfirm, htried⟩ :=
    Search.exists_confirm_admits h.bench (Nat.le_of_succ_le h.roomy) hkeys s
  simp only [searchSymbols, hspace]
  rw [Attempt.runOn_bind, hconfirm]
  cases o with
  | error f => exact ⟨_, _, s₁, rfl, rfl, rfl, .pass htried rfl⟩
  | ok whole =>
      cases hdivergent : whole.isDivergent with
      | false =>
          simp only [hdivergent, Bool.false_eq_true, if_false]
          exact ⟨_, _, s₁, rfl, rfl, rfl, .pass htried rfl⟩
      | true =>
          obtain ⟨found, s₂, verified, r', s', hsearch, hverify, hfiles, hlasts⟩ :=
            search_verify_lasts h hkeys whole
              ("suspect symbols of " ++ finding.unit.path ++ " variant") r s₁
          simp only [hdivergent, if_true]
          rw [Attempt.runOn_bind, hsearch]
          simp only
          rw [Attempt.runOn_bind, hverify]
          exact ⟨_, r', s', rfl, rfl, hfiles, .trans (.pass htried rfl) hlasts⟩

theorem symbolPhase_lasts (h : e.Admits x room inv) (finding : FileFinding) (r : Report)
    (s : Session σ) :
    ∃ finding' r' s', (e.symbolPhase x finding r).runOn s = (.ok (finding', r'), s') ∧
      finding'.suspect = finding.suspect ∧ r'.files = r.files ∧ Lasts room inv r s r' s' := by
  have hlisted := h.listed finding.unit s
  rcases hlist : e.listSymbols x finding.unit s with ⟨fault | symbols, s₁⟩ <;> rw [hlist] at hlisted
  · rw [runOn_symbolPhase_error finding hlist]
    exact ⟨_, _, s₁, rfl, rfl, rfl, .pass hlisted rfl⟩
  · by_cases hsome : symbols = []
    · subst hsome
      rw [runOn_symbolPhase_nil finding hlist]
      exact ⟨_, _, s₁, rfl, rfl, rfl, .pass hlisted rfl⟩
    · rw [runOn_symbolPhase finding hsome hlist]
      obtain ⟨listed, rfl⟩ := listSymbols_fst finding.unit (congrArg Prod.fst hlist)
      obtain ⟨finding', r', s', hrun, hsuspect, hfiles, hlasts⟩ :=
        searchSymbols_lasts h finding listed r s₁
      exact ⟨finding', r', s', hrun, hsuspect, hfiles, .trans (.pass hlisted rfl) hlasts⟩

/-- A suspect unit has its finding, also when its symbols cannot be searched. -/
theorem suspectPhase_lasts (h : e.Admits x room inv) (suspect : Suspect SourceUnit) (r : Report)
    (s : Session σ) :
    ∃ r' s', (e.suspectPhase x suspect r).runOn s = (.ok r', s') ∧
      r'.files.map (·.suspect) = r.files.map (·.suspect) ++ [suspect] ∧
      Lasts room inv r s r' s' := by
  have hfound {r' : Report} {finding : FileFinding} (hsuspect : finding.suspect = suspect)
      (hfiles : r'.files = r.files) :
      (r'.files ++ [finding]).map (·.suspect) = r.files.map (·.suspect) ++ [suspect] := by
    rw [hfiles, List.map_append, List.map_singleton, hsuspect]
  cases hsymbols : e.symbols with
  | false =>
      rw [suspectPhase, hsymbols]
      exact ⟨_, s, rfl, hfound rfl rfl, .pass id rfl⟩
  | true =>
      have hlooked := h.bench.cancelled (s := s)
      rw [suspectPhase, hsymbols]
      simp only [if_true]
      rw [Attempt.runOn_lift_bind]
      rcases hlook : x.bench.cancelled s with ⟨_ | _, s₁⟩ <;> rw [hlook] at hlooked
      · obtain ⟨finding, r', s', hphase, hsuspect, hfiles, hlasts⟩ :=
          symbolPhase_lasts h ⟨suspect.candidate, suspect.score, [], none⟩ r s₁
        simp only [Bool.false_eq_true, if_false]
        rw [Attempt.runOn_bind, hphase]
        refine ⟨_, s', rfl, hfound hsuspect hfiles, .trans (.pass hlooked rfl) ?_⟩
        exact ⟨hlasts.kept, hlasts.lasts⟩
      · exact ⟨_, s₁, rfl, hfound rfl rfl, .pass hlooked rfl⟩

theorem suspectPhases_lasts (h : e.Admits x room inv) (suspects : List (Suspect SourceUnit))
    (r : Report) (s : Session σ) :
    ∃ r' s', (e.suspectPhases x suspects r).runOn s = (.ok r', s') ∧
      r'.files.map (·.suspect) = r.files.map (·.suspect) ++ suspects ∧
      Lasts room inv r s r' s' := by
  induction suspects generalizing r s with
  | nil => exact ⟨r, s, rfl, (List.append_nil _).symm, .pass id rfl⟩
  | cons suspect rest ih =>
      obtain ⟨r₁, s₁, hfirst, hfiles, hlasts⟩ := suspectPhase_lasts h suspect r s
      obtain ⟨r', s', hothers, hfiles', hlasts'⟩ := ih r₁ s₁
      refine ⟨r', s', ?_, ?_, hlasts.trans hlasts'⟩
      · rw [suspectPhases, Attempt.runOn_bind, hfirst]
        exact hothers
      · rw [hfiles', hfiles, List.append_assoc]
        rfl

/-- Units that can be told apart lead to a report, with a finding for each suspect. -/
theorem phases_lasts {units : List SourceUnit} (h : e.Admits x room inv)
    (hkeys : (keysOf units).Nodup) (r : Report) (s : Session σ) :
    ∃ suspects r' s', (e.phases x units r).runOn s = (.ok r', s') ∧
      FileSearch x units s suspects ∧
      r'.files.map (·.suspect) = r.files.map (·.suspect) ++ suspects ∧
      Lasts room inv r s r' s' := by
  have hspace : (Search.keys (fileSpace units)).Nodup := hkeys
  obtain ⟨o, s₁, hconfirm, htried⟩ :=
    Search.exists_confirm_admits h.bench (Nat.le_of_succ_le h.roomy) hspace s
  rw [phases, Attempt.runOn_bind, ← fileSpace, hconfirm]
  cases o with
  | error f =>
      have hfailed :
          ∀ whole, (Except.error f : Outcome) = .ok whole → whole.isDivergent = false := by
        intro whole heq
        cases heq
      exact ⟨[], _, s₁, rfl, .none hconfirm hfailed, (List.append_nil _).symm, .pass htried rfl⟩
  | ok whole =>
      cases hdivergent : whole.isDivergent with
      | false =>
          simp only [hdivergent, Bool.false_eq_true, if_false]
          exact ⟨[], _, s₁, rfl, .none hconfirm fun _ heq => Except.ok.inj heq ▸ hdivergent,
            (List.append_nil _).symm, .pass htried rfl⟩
      | true =>
          obtain ⟨found, s₂, verified, r₁, s₃, hsearch, hverify, hfiles, hlasts⟩ :=
            search_verify_lasts h hspace whole "suspect files variant"
              { r with whole? := some whole } s₁
          obtain ⟨r', s', hphases, hfiles', hlasts'⟩ := suspectPhases_lasts h found.suspects
            { r₁ with verification? := verified } s₃
          -- The trial, the search and the suspects let the condition last, one after the other.
          have htried' : Lasts room inv r s { r with whole? := some whole } s₁ := .pass htried rfl
          have hverified : Lasts room inv r₁ s₃ { r₁ with verification? := verified } s₃ :=
            .pass id rfl
          simp only [hdivergent, if_true]
          rw [Attempt.runOn_bind, hsearch]
          simp only
          rw [Attempt.runOn_bind, hverify]
          refine ⟨found.suspects, r', s', hphases, .found hconfirm hdivergent hsearch, ?_,
            htried'.trans (hlasts.trans (hverified.trans hlasts'))⟩
          rw [hfiles']
          exact congrArg (fun files => files.map FileFinding.suspect ++ found.suspects) hfiles

end Phases

/-! ### The bisection -/

/-- The units as the pipeline lists them for a bisection, and what is there then. -/
def listing (e : Engine σ) (s : Archive σ) : Except Error (List SourceUnit) × Archive σ :=
  ((e.lab.pipeline.units.runOn (e.lab.now s.site.world).2).1,
    { s with site.world := (e.lab.pipeline.units.runOn (e.lab.now s.site.world).2).2 })

section Bisection

variable {e : Engine σ} {q : Request} {s s₁ : Archive σ} {fault : Error}
  {units : List SourceUnit}

theorem listing_eq {listed : Except Error (List SourceUnit)} (hlist : e.listing s = (listed, s₁)) :
    e.lab.pipeline.units.runOn (e.lab.now s.site.world).2 = (listed, s₁.site.world) ∧
      s₁ = { s with site.world := s₁.site.world } := by
  obtain ⟨rfl, rfl⟩ := Prod.mk.inj hlist
  exact ⟨rfl, rfl⟩

theorem runOn_prepare_error {listed : Except Error (List SourceUnit)}
    (hlist : e.listing s = (listed, s₁)) (hnone : Survey.someUnits e listed = .error fault) :
    (e.prepare q).runOn s = (.error fault, s₁) := by
  obtain ⟨hunits, hs₁⟩ := listing_eq hlist
  rw [hs₁]
  exact Survey.runOn_prepare_none rfl hunits hnone

theorem runOn_prepare_ok {founded : Except Error Baseline} {s₂ : Archive σ}
    (hlist : e.listing s = (.ok units, s₁)) (hsome : units ≠ [])
    (hfound : (Archive.establish (e.setup q.jobs) e.trusted q.target).runOn s₁ = (founded, s₂)) :
    (e.prepare q).runOn s =
      (founded.map ((e.lab.now s.site.world).1, units, ·), s₂) := by
  obtain ⟨hunits, hs₁⟩ := listing_eq hlist
  have hthere : Survey.someUnits e (.ok units) = .ok units := by
    rw [Survey.someUnits, if_neg (by simpa using hsome)]
  have hlisted : e.listUnits.runOn { s with site.world := (e.lab.now s.site.world).2 } =
      (.ok units, s₁) := by
    rw [Survey.runOn_listUnits (s := { s with site.world := (e.lab.now s.site.world).2 }) hunits,
      hthere, hs₁]
  rw [prepare, Attempt.runOn_lift_bind, Archive.onSite_eq (Site.lift_eq (Prod.eta _).symm),
    Attempt.runOn_bind, hlisted]
  simp only
  rw [Attempt.runOn_bind, hfound]
  cases founded <;> rfl

/-- With units that can be told apart and a baseline there is a report. -/
theorem exists_report {now : String} {baseline : Baseline}
    (hprepare : (e.prepare q).runOn s = (.ok (now, units, baseline), s₁))
    (hkeys : (keysOf units).Nodup) :
    ∃ r s' suspects, (e.bisect q).runOn s = (.ok r, s') ∧
      FileSearch (e.experiment q baseline) units (.start s₁.site) suspects ∧
      r.files.map (·.suspect) = suspects := by
  have hadmits : e.Admits (e.experiment q baseline) 2 fun _ => True :=
    ⟨⟨fun _ => trivial, fun _ _ => trivial, Experiment.length_batch⟩, fun _ _ _ => trivial,
      Nat.le_refl 2⟩
  obtain ⟨suspects, r, session, hphases, hsearch, hfiles, -⟩ :=
    phases_lasts hadmits hkeys (e.blank q now) (.start s₁.site)
  exact ⟨_, _, suspects, runOn_bisect hprepare hphases rfl, hsearch, hfiles⟩

/-- Either there is no preparing the bisection, or there are units and a baseline. -/
theorem prepare_cases (e : Engine σ) (q : Request) (s : Archive σ) :
    (((∃ fault, (e.listing s).1 = .error fault) ∨ (e.listing s).1 = .ok [] ∨
        ∃ fault s', (Archive.establish (e.setup q.jobs) e.trusted q.target).runOn (e.listing s).2 =
          (.error fault, s')) ∧
      ∃ fault s', (e.prepare q).runOn s = (.error fault, s')) ∨
    ∃ units baseline s', (e.listing s).1 = .ok units ∧ units ≠ [] ∧
      (Archive.establish (e.setup q.jobs) e.trusted q.target).runOn (e.listing s).2 =
        (.ok baseline, s') ∧
      (e.prepare q).runOn s = (.ok ((e.lab.now s.site.world).1, units, baseline), s') := by
  rcases hlist : e.listing s with ⟨fault | units, s₁⟩
  · exact .inl ⟨.inl ⟨fault, rfl⟩, _, _, runOn_prepare_error hlist rfl⟩
  by_cases hsome : units = []
  · subst hsome
    exact .inl ⟨.inr (.inl rfl), _, _, runOn_prepare_error hlist rfl⟩
  rcases hfound : (Archive.establish (e.setup q.jobs) e.trusted q.target).runOn s₁ with
    ⟨fault | baseline, s'⟩
  · exact .inl ⟨.inr (.inr ⟨fault, s', rfl⟩), _, _, runOn_prepare_ok hlist hsome hfound⟩
  · exact .inr ⟨units, baseline, s', rfl, hsome, rfl, runOn_prepare_ok hlist hsome hfound⟩

/-- A bisection ends in an error exactly when the units cannot be listed, are none or cannot be
told apart, or when there is no baseline; whatever else fails, there is a report. It has a finding
for each suspect of the file search, in their order. -/
theorem bisect_fails_iff (e : Engine σ) (q : Request) (s : Archive σ) :
    ((∃ fault s', (e.bisect q).runOn s = (.error fault, s')) ↔
      (∃ fault, (e.listing s).1 = .error fault) ∨
      (e.listing s).1 = .ok [] ∨
      (∃ fault s', (Archive.establish (e.setup q.jobs) e.trusted q.target).runOn (e.listing s).2 =
        (.error fault, s')) ∨
      ∃ units, (e.listing s).1 = .ok units ∧ ¬(keysOf units).Nodup) ∧
    ∀ r s', (e.bisect q).runOn s = (.ok r, s') → ∃ now units baseline s₁ suspects,
      (e.prepare q).runOn s = (.ok (now, units, baseline), s₁) ∧ (keysOf units).Nodup ∧
      FileSearch (e.experiment q baseline) units (.start s₁.site) suspects ∧
      r.files.map (·.suspect) = suspects := by
  rcases prepare_cases e q s with ⟨hnone, fault, s₁, hprepare⟩ |
    ⟨units, baseline, s₁, hlist, hsome, hfound, hprepare⟩
  · have hrun := runOn_bisect_refusal hprepare
    have hor {A B C D : Prop} (h : A ∨ B ∨ C) : A ∨ B ∨ C ∨ D := h.imp_right (·.imp_right .inl)
    refine ⟨iff_of_true ⟨fault, s₁, hrun⟩ (hor hnone), fun r s' hreport => ?_⟩
    rw [hrun] at hreport
    cases hreport
  by_cases hkeys : (keysOf units).Nodup
  · obtain ⟨r, s', suspects, hrun, hsearch, hfiles⟩ := exists_report hprepare hkeys
    refine ⟨iff_of_false ?_ ?_, fun r' s'' hreport => ?_⟩
    · rintro ⟨fault, s'', herror⟩
      rw [hrun] at herror
      cases herror
    · rw [hlist, hfound]
      rintro (⟨fault, h⟩ | h | ⟨fault, s', h⟩ | ⟨units', h, hrepeated⟩)
      · cases h
      · exact hsome (Except.ok.inj h)
      · cases h
      · exact hrepeated (Except.ok.inj h ▸ hkeys)
    · rw [hrun] at hreport
      cases hreport
      exact ⟨_, units, baseline, s₁, suspects, hprepare, hkeys, hsearch, hfiles⟩
  · obtain ⟨fault, hphases⟩ := e.phases_repeated (e.experiment q baseline) hkeys
      (e.blank q (e.lab.now s.site.world).1) (.start s₁.site)
    have hrun := runOn_bisect_error hprepare hphases
    refine ⟨iff_of_true ⟨_, _, hrun⟩ (.inr (.inr (.inr ⟨units, hlist, hkeys⟩))), ?_⟩
    intro r s' hreport
    rw [hrun] at hreport
    cases hreport

end Bisection

end Engine

end Culprit
