import Culprit.Proofs.Bisection.Outline

/-!
The status that the phases of a bisection give to its report. A search leaves it completed or
aborted; without a divergence there is none, and the phases are over with the trial of the whole.
-/

namespace Culprit

variable {σ α β : Type}

/-- Whatever the action results in is good. -/
def Attempt.Yields (good : α → Prop) (a : Attempt σ α) : Prop :=
  ∀ s r s', a.runOn s = (.ok r, s') → good r

namespace Attempt.Yields

theorem ret {good : α → Prop} {r : α} (h : good r) : Attempt.Yields (σ := σ) good (pure r) := by
  intro s r' s' hrun
  cases hrun
  exact h

theorem bind {good : β → Prop} {a : Attempt σ α} {f : α → Attempt σ β}
    (hf : ∀ r, Attempt.Yields good (f r)) : Attempt.Yields good (a >>= f) := by
  intro s r s' hrun
  rw [runOn_bind] at hrun
  rcases ha : a.runOn s with ⟨fault | x, s₁⟩ <;> rw [ha] at hrun
  · cases hrun
  · exact hf x s₁ r s' hrun

/-- What is known of the first result is of use to the second. -/
theorem bind_of {known : α → Prop} {good : β → Prop} {a : Attempt σ α} {f : α → Attempt σ β}
    (ha : Attempt.Yields known a) (hf : ∀ r, known r → Attempt.Yields good (f r)) :
    Attempt.Yields good (a >>= f) := by
  intro s r s' hrun
  rw [runOn_bind] at hrun
  rcases hfirst : a.runOn s with ⟨fault | x, s₁⟩ <;> rw [hfirst] at hrun
  · cases hrun
  · exact hf x (ha s x s₁ hfirst) s₁ r s' hrun

end Attempt.Yields

/-- The report is that of a search. -/
def Report.Searched (r : Report) : Prop :=
  r.status = .completed ∨ r.status = .aborted

namespace Engine

variable {e : Engine σ} {x : Experiment σ} {units : List SourceUnit} {r : Report}

theorem searched_noteSearch (hr : r.Searched) (found : SearchResult α) :
    (noteSearch r found).Searched := by
  rw [Report.Searched, noteSearch]
  cases found.cancelled with
  | true => exact .inr rfl
  | false => exact hr

theorem verifySuspects_searched [Candidate α] (space : Space α) (suspects : List (Suspect α))
    (context : String) (hr : r.Searched) :
    Attempt.Yields (fun p => p.2.Searched) (e.verifySuspects x space suspects context r) := by
  rw [verifySuspects]
  split
  · refine Attempt.Yields.bind fun o => Attempt.Yields.ret ?_
    cases o <;> exact hr
  · exact Attempt.Yields.ret hr

theorem searchSymbols_searched (finding : FileFinding) (symbols : List LinkSymbol)
    (hr : r.Searched) :
    Attempt.Yields (fun p => p.2.Searched) (e.searchSymbols x finding symbols r) := by
  rw [searchSymbols]
  refine Attempt.Yields.bind fun o => ?_
  cases o with
  | error f => exact Attempt.Yields.ret hr
  | ok whole =>
      simp only
      split
      · refine Attempt.Yields.bind fun found => ?_
        refine Attempt.Yields.bind_of (verifySuspects_searched _ _ _ (searched_noteSearch hr found))
          fun p hp => Attempt.Yields.ret hp
      · exact Attempt.Yields.ret hr

theorem symbolPhase_searched (finding : FileFinding) (hr : r.Searched) :
    Attempt.Yields (fun p => p.2.Searched) (e.symbolPhase x finding r) := by
  intro s p s' hrun
  rcases hlist : e.listSymbols x finding.unit s with ⟨fault | symbols, s₁⟩
  · rw [runOn_symbolPhase_error finding hlist] at hrun
    cases hrun
    exact hr
  · by_cases hsome : symbols = []
    · subst hsome
      rw [runOn_symbolPhase_nil finding hlist] at hrun
      cases hrun
      exact hr
    · rw [runOn_symbolPhase finding hsome hlist] at hrun
      exact searchSymbols_searched finding symbols hr s₁ p s' hrun

theorem suspectPhase_searched (suspect : Suspect SourceUnit) (hr : r.Searched) :
    Attempt.Yields Report.Searched (e.suspectPhase x suspect r) := by
  have hadd (p : FileFinding × Report) (hp : p.2.Searched) : Attempt.Yields (σ := Session σ)
      Report.Searched (pure { p.2 with files := p.2.files ++ [p.1] }) :=
    Attempt.Yields.ret hp
  rw [suspectPhase]
  cases e.symbols with
  | false => exact hadd (_, r) hr
  | true =>
      refine Attempt.Yields.bind fun stop => ?_
      cases stop with
      | true => exact hadd (_, r.addIssue _) hr
      | false => exact Attempt.Yields.bind_of (symbolPhase_searched _ hr) hadd

theorem suspectPhases_searched (suspects : List (Suspect SourceUnit)) (hr : r.Searched) :
    Attempt.Yields Report.Searched (e.suspectPhases x suspects r) := by
  induction suspects generalizing r with
  | nil => exact Attempt.Yields.ret hr
  | cons suspect rest ih =>
      exact Attempt.Yields.bind_of (suspectPhase_searched suspect hr) fun r' hr' => ih hr'

/-- The phases end with the trial of the whole, or with the report of a search. -/
theorem phases_searched (hr : r.Searched) {s s' : Session σ} {r' : Report}
    (hrun : (e.phases x units r).runOn s = (.ok r', s')) :
    r'.Searched ∨ ∃ o, (Search.confirm x.bench (fileSpace units)).runOn s = (.ok o, s') := by
  rw [phases, Attempt.runOn_bind, ← fileSpace] at hrun
  rcases hconfirm : (Search.confirm x.bench (fileSpace units)).runOn s with ⟨fault | o, s₁⟩ <;>
    rw [hconfirm] at hrun
  · cases hrun
  cases o with
  | error f =>
      cases hrun
      exact .inl (.inr rfl)
  | ok whole =>
      cases hdivergent : whole.isDivergent with
      | false =>
          simp only [hdivergent, Bool.false_eq_true, if_false] at hrun
          cases hrun
          exact .inr ⟨_, rfl⟩
      | true =>
          simp only [hdivergent, if_true] at hrun
          refine .inl (Attempt.Yields.bind (fun found => ?_) s₁ r' s' hrun)
          refine Attempt.Yields.bind_of (verifySuspects_searched _ _ _ (searched_noteSearch
            (r := { r with whole? := some whole }) hr found)) fun p hp => ?_
          exact suspectPhases_searched _ hp

end Engine

end Culprit
