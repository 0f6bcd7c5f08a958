import Culprit.Proofs.Decimal.Amounts
import Culprit.Report
import Mathlib.Data.List.Basic
import Mathlib.Tactic.Common
import Mathlib.Tactic.MkIffOfInductiveProp

/-!
The scores in trials and in reports. A score that was made of a comparison is a finite number.
-/

namespace Culprit

/-- A score is a finite number. -/
theorem Score.finite_ofComparison (value : Float) :
    Decimal.Finite (Score.ofComparison value).value := by
  rw [ofComparison]
  split
  · show Decimal.Finite Decimal.largest
    decide +kernel
  · next hkind =>
      rw [Bool.or_eq_true, not_or] at hkind
      exact Decimal.Finite.abs ⟨Bool.eq_false_iff.mpr hkind.2, Bool.eq_false_iff.mpr hkind.1⟩

/-- A score is not negative, and zero exactly when the comparison came to zero. -/
theorem Score.amount_ofComparison (value : Float) :
    Decimal.Amount (Score.ofComparison value).value (!(value == 0)) := by
  rw [ofComparison]
  split
  · next hkind =>
      rw [Bool.or_eq_true] at hkind
      rw [Decimal.not_beq_zero_of_not_finite hkind]
      exact .finite (by decide) (by decide) (by decide)
  · next hkind =>
      rw [Bool.or_eq_true, not_or, Bool.not_eq_true] at hkind
      exact Decimal.amount_abs hkind.1

theorem Score.zero_le_ofComparison (value : Float) : 0 ≤ (Score.ofComparison value).value :=
  (amount_ofComparison value).zero_le

theorem Score.isDivergent_ofComparison (value : Float) :
    (Score.ofComparison value).isDivergent = !(value == 0) := by
  rw [isDivergent, bne, (amount_ofComparison value).beq_zero, Bool.not_not]

variable {good : Score → Prop}

/-- The score, if there is one. -/
def Outcome.Within (good : Score → Prop) (o : Outcome) : Prop :=
  ∀ v, o = .ok v → good v

def Trial.Within (good : Score → Prop) (t : Trial) : Prop :=
  ∀ v ∈ t.score?, good v

@[mk_iff]
structure FileFinding.Within (good : Score → Prop) (f : FileFinding) : Prop where
  score : good f.score
  symbols : ∀ g ∈ f.symbols, good g.score
  verification : ∀ v ∈ f.verification?, good v

/-- Every score in the report. -/
@[mk_iff]
structure Report.Within (good : Score → Prop) (r : Report) : Prop where
  whole : ∀ v ∈ r.whole?, good v
  files : ∀ f ∈ r.files, f.Within good
  verification : ∀ v ∈ r.verification?, good v
  trials : ∀ t ∈ r.trials, t.Within good

section Decidable

variable [DecidablePred good]

instance (t : Trial) : Decidable (t.Within good) :=
  inferInstanceAs (Decidable (∀ v ∈ t.score?, good v))

instance (f : FileFinding) : Decidable (f.Within good) :=
  decidable_of_iff _ (FileFinding.within_iff good f).symm

instance (r : Report) : Decidable (r.Within good) :=
  decidable_of_iff _ (Report.within_iff good r).symm

end Decidable

namespace Report.Within

variable {r : Report}

/-- What follows from what holds of all scores. -/
theorem mp {better : Score → Prop} (h : r.Within fun v => good v → better v)
    (hgood : r.Within good) : r.Within better where
  whole v hv := h.whole v hv (hgood.whole v hv)
  files f hf :=
    { score := (h.files f hf).score (hgood.files f hf).score
      symbols := fun g hg => (h.files f hf).symbols g hg ((hgood.files f hf).symbols g hg)
      verification := fun v hv =>
        (h.files f hf).verification v hv ((hgood.files f hf).verification v hv) }
  verification v hv := h.verification v hv (hgood.verification v hv)
  trials t ht v hv := h.trials t ht v hv (hgood.trials t ht v hv)

theorem blank (test precision trusted variant now : String) :
    (Report.blank test precision trusted variant now).Within good :=
  ⟨nofun, nofun, nofun, nofun⟩

theorem withStatus (h : r.Within good) (s : Status) :
    ({ r with status := s } : Report).Within good :=
  ⟨h.whole, h.files, h.verification, h.trials⟩

theorem addIssue (h : r.Within good) (i : Issue) : (r.addIssue i).Within good :=
  ⟨h.whole, h.files, h.verification, h.trials⟩

theorem addFile (h : r.Within good) {f : FileFinding} (hf : f.Within good) :
    ({ r with files := r.files ++ [f] } : Report).Within good :=
  ⟨h.whole, List.forall_mem_append.mpr ⟨h.files, List.forall_mem_singleton.mpr hf⟩,
    h.verification, h.trials⟩

end Report.Within

end Culprit
