import Culprit.Proofs.Bisection.Endings

/-!
The course of the phases of a bisection. The trial of the whole decides: it fails and the phases
are aborted, or it agrees with the baseline and they are over, or it diverges and the units are
searched. After that every suspect goes through the same few steps, and whatever relation each of
these steps obeys the suspects obey together.
-/

namespace Culprit

variable {σ : Type}

namespace Attempt

variable {α β : Type}

/-- Whatever the action results in, `good` holds of it and of the states before and after. -/
def Leads (good : σ → α → σ → Prop) (a : Attempt σ α) : Prop :=
  ∀ s r s', a.runOn s = (.ok r, s') → good s r s'

namespace Leads

theorem ret {good : σ → α → σ → Prop} {r : α} (h : ∀ s, good s r s) : Leads good (pure r) := by
  intro s r' s' hrun
  cases hrun
  exact h s

theorem lift {good : σ → α → σ → Prop} {a : StateM σ α} (h : ∀ s, good s (a s).1 (a s).2) :
    Leads good (ExceptT.lift a) := by
  intro s r s' hrun
  rw [runOn_lift (Prod.eta (a s)).symm] at hrun
  cases hrun
  exact h s

theorem bind {first : σ → α → σ → Prop} {good : σ → β → σ → Prop} {a : Attempt σ α}
    {f : α → Attempt σ β} (ha : Leads first a)
    (hf : ∀ x s₀, Leads (fun s r s' => first s₀ x s → good s₀ r s') (f x)) :
    Leads good (a >>= f) := by
  intro s r s' hrun
  rw [runOn_bind] at hrun
  rcases hfirst : a.runOn s with ⟨fault | x, s₁⟩ <;> rw [hfirst] at hrun
  · cases hrun
  · exact hf x s s₁ r s' hrun (ha s x s₁ hfirst)

theorem mono {good good' : σ → α → σ → Prop} {a : Attempt σ α} (ha : Leads good a)
    (h : ∀ s r s', good s r s' → good' s r s') : Leads good' a :=
  fun s r s' hrun => h s r s' (ha s r s' hrun)

end Leads

end Attempt

theorem Bench.trial_snd {τ : Type} (b : Bench τ) (p : Partition) (s : τ) :
    (b.trial p s).2 = (b.batch [p] s).2 := by
  rcases hbatch : b.batch [p] s with ⟨os, s'⟩
  rw [trial, bind_of hbatch]
  cases os <;> rfl

/-- What is verified of the symbols of a file is a set of suspects. -/
def FileFinding.Sound (f : FileFinding) : Prop :=
  ∀ v, f.verification? = some v → f.symbols ≠ []

theorem FileFinding.sound_of_unverified {f : FileFinding} (h : f.verification? = none) :
    f.Sound := by
  intro v hv
  rw [h] at hv
  cases hv

namespace Engine

/-- A relation between reports and states which every step obeys that is left once the units were
searched. -/
structure Obeys (e : Engine σ) (x : Experiment σ)
    (rel : Report → Session σ → Report → Session σ → Prop) : Prop where
  refl (r : Report) (s : Session σ) : rel r s r s
  trans {r r₁ r' : Report} {s s₁ s' : Session σ} : rel r s r₁ s₁ → rel r₁ s₁ r' s' → rel r s r' s'
  look (r : Report) (s : Session σ) : rel r s r (x.bench.cancelled s).2
  list (unit : SourceUnit) (r : Report) (s : Session σ) : rel r s r (e.listSymbols x unit s).2
  batch (ps : List Partition) (r : Report) (s : Session σ) : rel r s r (x.batch ps s).2
  search {unit : SourceUnit} (listed : List LinkSymbol) {whole : Score}
    {found : SearchResult LinkSymbol} {s s' : Session σ}
    (hrun : (Search.search x.bench (symbolSpace unit listed) whole).runOn s = (.ok found, s'))
    (r : Report) : rel r s (noteSearch r found) s'
  addIssue (i : Issue) (r : Report) (s : Session σ) : rel r s (r.addIssue i) s
  addFile {f : FileFinding} (hf : f.Sound) (r : Report) (s : Session σ) :
    rel r s { r with files := r.files ++ [f] } s

namespace Obeys

variable {e : Engine σ} {x : Experiment σ} {rel : Report → Session σ → Report → Session σ → Prop}
  {r : Report}

/-- A trial of its own. -/
theorem trial (h : e.Obeys x rel) (d : Except Error Partition) (r : Report) :
    Attempt.Leads (fun s _ s' => rel r s r s')
      (Attempt.of d >>= fun p => ExceptT.lift (x.bench.trial p)) := by
  intro s o s' hrun
  cases d with
  | error fault => cases hrun
  | ok p =>
      rw [Attempt.runOn_of_ok_bind, Attempt.runOn_lift (Prod.eta (x.bench.trial p s)).symm,
        Bench.trial_snd] at hrun
      cases hrun
      exact h.batch [p] r s

theorem noteVerification (h : e.Obeys x rel) (r : Report) (context : String) (o : Outcome)
    (s : Session σ) : rel r s (noteVerification r context o).2 s := by
  cases o with
  | error f => exact h.addIssue _ r s
  | ok v => exact h.refl r s

/-- A verification is one of suspects. -/
theorem verifySuspects {α : Type} [Candidate α] (h : e.Obeys x rel) (space : Space α)
    (suspects : List (Suspect α)) (context : String) (r : Report) :
    Attempt.Leads (fun s p s' => rel r s p.2 s' ∧ (∀ v, p.1 = some v → suspects ≠ []))
      (e.verifySuspects x space suspects context r) := by
  rw [Engine.verifySuspects]
  split
  · rename_i hsome
    have hsome : suspects ≠ [] := by simpa using (Bool.and_eq_true_iff.mp hsome).2
    refine Attempt.Leads.bind (h.trial _ r) fun o s₀ => Attempt.Leads.ret fun s htried => ?_
    exact ⟨h.trans htried (h.noteVerification r context o s), fun _ _ => hsome⟩
  · exact Attempt.Leads.ret fun s => ⟨h.refl r s, fun v hv => by cases hv⟩

theorem searchSymbols (h : e.Obeys x rel) {finding : FileFinding}
    (hnone : finding.verification? = none) (listed : List LinkSymbol) (r : Report) :
    Attempt.Leads (fun s p s' => rel r s p.2 s' ∧ p.1.Sound)
      (e.searchSymbols x finding (LinkSymbol.distinct [] listed) r) := by
  have hsound := FileFinding.sound_of_unverified hnone
  rw [Engine.searchSymbols]
  refine Attempt.Leads.bind (h.trial _ r) fun o s₀ => ?_
  cases o with
  | error f =>
      exact Attempt.Leads.ret fun s htried => ⟨h.trans htried (h.addIssue _ r s), hsound⟩
  | ok whole =>
      simp only
      split
      · have hsearch : Attempt.Leads (fun s found s' => rel r s (noteSearch r found) s')
            (Search.search x.bench (symbolSpace finding.unit listed) whole) :=
          fun s found s' hrun => h.search listed hrun r
        refine Attempt.Leads.bind hsearch fun found s₁ => ?_
        refine Attempt.Leads.bind (h.verifySuspects _ _ _ (noteSearch r found)) fun p s₂ => ?_
        refine Attempt.Leads.ret ?_
        rintro s ⟨hverified, hsome⟩ hsearched htried
        refine ⟨h.trans htried (h.trans hsearched hverified), fun v hv => ?_⟩
        exact fun hnil => hsome v hv (List.map_eq_nil_iff.mp hnil)
      · exact Attempt.Leads.ret fun s htried => ⟨h.trans htried (h.addIssue _ r s), hsound⟩

theorem symbolPhase (h : e.Obeys x rel) {finding : FileFinding}
    (hnone : finding.verification? = none) (r : Report) :
    Attempt.Leads (fun s p s' => rel r s p.2 s' ∧ p.1.Sound) (e.symbolPhase x finding r) := by
  have hsound := FileFinding.sound_of_unverified hnone
  intro s p s' hrun
  have hlisted := h.list finding.unit r s
  rcases hlist : e.listSymbols x finding.unit s with ⟨fault | symbols, s₁⟩ <;> rw [hlist] at hlisted
  · rw [runOn_symbolPhase_error finding hlist] at hrun
    cases hrun
    exact ⟨h.trans hlisted (h.addIssue _ r _), hsound⟩
  · by_cases hsome : symbols = []
    · subst hsome
      rw [runOn_symbolPhase_nil finding hlist] at hrun
      cases hrun
      exact ⟨h.trans hlisted (h.addIssue _ r _), hsound⟩
    · rw [runOn_symbolPhase finding hsome hlist] at hrun
      obtain ⟨listed, rfl⟩ := listSymbols_fst finding.unit (congrArg Prod.fst hlist)
      obtain ⟨hsearched, hfinding⟩ := h.searchSymbols hnone listed r s₁ p s' hrun
      exact ⟨h.trans hlisted hsearched, hfinding⟩

theorem suspectPhase (h : e.Obeys x rel) (suspect : Suspect SourceUnit) (r : Report) :
    Attempt.Leads (fun s r' s' => rel r s r' s') (e.suspectPhase x suspect r) := by
  let finding : FileFinding := ⟨suspect.candidate, suspect.score, [], none⟩
  have hfound : finding.Sound := FileFinding.sound_of_unverified rfl
  -- The finding is added to the report at the end of each branch.
  have hadded {p : FileFinding × Report} (hp : p.1.Sound) :
      Attempt.Leads (fun s r' s' => rel p.2 s r' s')
        (pure { p.2 with files := p.2.files ++ [p.1] }) :=
    Attempt.Leads.ret fun s => h.addFile hp p.2 s
  rw [Engine.suspectPhase]
  cases e.symbols with
  | false => exact hadded (p := (_, r)) hfound
  | true =>
      have hlook : Attempt.Leads (fun s _ s' => rel r s r s') (ExceptT.lift x.bench.cancelled) :=
        Attempt.Leads.lift (h.look r)
      refine Attempt.Leads.bind hlook fun stop s₀ => ?_
      cases stop with
      | true =>
          refine (hadded (p := (_, r.addIssue _)) hfound).mono fun s r' s' hrel hlooked => ?_
          exact h.trans hlooked (h.trans (h.addIssue _ r s) hrel)
      | false =>
          have hnone : finding.verification? = none := rfl
          refine Attempt.Leads.bind (h.symbolPhase hnone r) fun p s₁ => Attempt.Leads.ret ?_
          rintro s ⟨hsearched, hp⟩ hlooked
          exact h.trans hlooked (h.trans hsearched (h.addFile hp p.2 s))

/-- What every step obeys the suspects obey together. -/
theorem suspectPhases (h : e.Obeys x rel) (suspects : List (Suspect SourceUnit)) (r : Report) :
    Attempt.Leads (fun s r' s' => rel r s r' s') (e.suspectPhases x suspects r) := by
  induction suspects generalizing r with
  | nil => exact Attempt.Leads.ret (h.refl r)
  | cons suspect rest ih =>
      refine Attempt.Leads.bind (h.suspectPhase suspect r) fun r₁ s₀ => ?_
      exact (ih r₁).mono fun s r' s' hothers hfirst => h.trans hfirst hothers

end Obeys

/-! ### From the trial of the whole to the suspects -/

/-- How the phases come to their report. -/
inductive Course (e : Engine σ) (x : Experiment σ) (units : List SourceUnit) (r : Report)
    (s : Session σ) : Report → Session σ → Prop
  | failed {f : Failure} {s' : Session σ}
      (hconfirm : (Search.confirm x.bench (fileSpace units)).runOn s = (.ok (.error f), s')) :
      Course e x units r s ({ r with status := .aborted }.addIssue
        (.ofFailure "all files variant" f)) s'
  | agreed {whole : Score} {s' : Session σ}
      (hconfirm : (Search.confirm x.bench (fileSpace units)).runOn s = (.ok (.ok whole), s'))
      (hsame : whole.isDivergent = false) :
      Course e x units r s { r with whole? := some whole, status := .noDivergence } s'
  | searched {whole : Score} {found : SearchResult SourceUnit} {verified : Option Score}
      {r₁ r' : Report} {s₁ s₂ s₃ s' : Session σ}
      (hconfirm : (Search.confirm x.bench (fileSpace units)).runOn s = (.ok (.ok whole), s₁))
      (hdivergent : whole.isDivergent = true)
      (hsearch : (Search.search x.bench (fileSpace units) whole).runOn s₁ = (.ok found, s₂))
      (hverify : (e.verifySuspects x (fileSpace units) found.suspects "suspect files variant"
        (noteSearch { r with whole? := some whole } found)).runOn s₂ = (.ok (verified, r₁), s₃))
      (hsuspects : (e.suspectPhases x found.suspects
        { r₁ with verification? := verified }).runOn s₃ = (.ok r', s')) :
      Course e x units r s r' s'

theorem course_of_phases {e : Engine σ} {x : Experiment σ} {units : List SourceUnit}
    {r r' : Report} {s s' : Session σ} (hrun : (e.phases x units r).runOn s = (.ok r', s')) :
    Course e x units r s r' s' := by
  rw [phases, Attempt.runOn_bind, ← fileSpace] at hrun
  rcases hconfirm : (Search.confirm x.bench (fileSpace units)).runOn s with
    ⟨fault | f | whole, s₁⟩ <;> rw [hconfirm] at hrun
  · cases hrun
  · cases hrun
    exact .failed hconfirm
  cases hdivergent : whole.isDivergent with
  | false =>
      simp only [hdivergent, Bool.false_eq_true, if_false] at hrun
      cases hrun
      exact .agreed hconfirm hdivergent
  | true =>
      simp only [hdivergent, if_true] at hrun
      rw [Attempt.runOn_bind] at hrun
      rcases hsearch : (Search.search x.bench (fileSpace units) whole).runOn s₁ with
        ⟨fault | found, s₂⟩ <;> rw [hsearch] at hrun
      · cases hrun
      simp only [Attempt.runOn_bind] at hrun
      rcases hverify : (e.verifySuspects x (fileSpace units) found.suspects "suspect files variant"
        (noteSearch { r with whole? := some whole } found)).runOn s₂ with
          ⟨fault | ⟨verified, r₁⟩, s₃⟩ <;> rw [hverify] at hrun
      · cases hrun
      · exact .searched hconfirm hdivergent hsearch hverify hrun

/-- A bisection with a report has units that can be told apart, and closes the report of its
phases. -/
theorem exists_phases {e : Engine σ} {q : Request} {s s' : Archive σ} {r : Report}
    (hrun : (e.bisect q).runOn s = (.ok r, s')) :
    ∃ now units baseline s₁ r₀ session, (e.prepare q).runOn s = (.ok (now, units, baseline), s₁) ∧
      units ≠ [] ∧ (keysOf units).Nodup ∧
      (e.phases (e.experiment q baseline) units (e.blank q now)).runOn (.start s₁.site) =
        (.ok r₀, session) ∧
      r = closeReport (e.lab.cancelled session.site.world).1 session r₀ ∧
      s'.site.world = (e.lab.cancelled session.site.world).2 := by
  rcases prepare_cases e q s with ⟨-, fault, s₁, hprepare⟩ |
    ⟨units, baseline, s₁, -, hsome, -, hprepare⟩
  · rw [runOn_bisect_refusal hprepare] at hrun
    cases hrun
  rcases hphases : (e.phases (e.experiment q baseline) units
    (e.blank q (e.lab.now s.site.world).1)).runOn (.start s₁.site) with ⟨fault | r₀, session⟩
  · rw [runOn_bisect_error hprepare hphases] at hrun
    cases hrun
  have hkeys : (keysOf units).Nodup := by
    by_contra hkeys
    obtain ⟨fault, herror⟩ := e.phases_repeated (e.experiment q baseline) hkeys
      (e.blank q (e.lab.now s.site.world).1) (.start s₁.site)
    rw [hphases] at herror
    cases herror
  rw [runOn_bisect hprepare hphases (Prod.eta _).symm] at hrun
  cases hrun
  exact ⟨_, units, baseline, s₁, r₀, session, hprepare, hsome, hkeys, hphases, rfl, rfl⟩

end Engine

end Culprit
