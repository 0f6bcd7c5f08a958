import Culprit.Proofs.Baseline.Configurations
import Mathlib.Algebra.BigOperators.Group.Finset.Basic
import Mathlib.Algebra.Order.BigOperators.Group.Finset
import Mathlib.Data.Finset.Card
import Mathlib.Data.Fintype.Basic
import Mathlib.Data.Fintype.Sets
import Mathlib.Logic.Function.Basic
import Mathlib.Logic.Relation
import Mathlib.Tactic.Common

/-!
Many callers that ask one archive for baselines at the same time. A caller reserves the slot, waits
until nobody holds it, and then either finds a verdict or builds while it holds the slot. The steps
of the callers interleave in any way, and what a build comes to is left open.

Whoever finishes a build that is not cancelled leaves the verdict in the slot, and nobody builds for
this slot again; this carries the count of builds and the agreement of all callers.
-/

namespace Culprit

variable {σ ι : Type}

/-! ### Slots by their text -/

namespace Baselines

theorem slot?_reserve (b : Baselines) (key key' : String) :
    (b.reserve key).slot? key' = if key' = key then some ((b.slot? key).getD none)
      else b.slot? key' := by
  rw [reserve]
  split
  · next found h =>
      split
      · next heq => rw [heq, h, Option.getD_some]
      · rfl
  · next h =>
      show (b.slots ++ [(key, none)]).lookup key' = _
      rw [List.lookup_append]
      split
      · next heq =>
          subst heq
          rw [show b.slots.lookup key' = none from h, h]
          simp
      · next hne =>
          rw [List.lookup_cons, beq_eq_false_iff_ne.mpr hne]
          exact Option.or_none

theorem slot?_store (b : Baselines) (key key' : String) (v : Verdict) :
    (b.store key v).slot? key' = if key' = key then (b.slot? key).map fun _ => some v
      else b.slot? key' := by
  rw [store]
  simp only [slot?]
  induction b.slots with
  | nil => simp
  | cons slot slots ih =>
      obtain ⟨name, held⟩ := slot
      have hkept : (if name = key then (name, some v) else (name, held)).1 = name := by
        split <;> rfl
      rw [List.map_cons, ← Prod.eta (if name = key then (name, some v) else (name, held)), hkept]
      simp only [List.lookup_cons]
      by_cases hname : key' = name
      · subst hname
        by_cases hkey : key' = key <;> simp [hkey]
      · have hpast : (key' == name) = false := beq_eq_false_iff_ne.mpr hname
        by_cases hkey : key' = key
        · subst hkey
          rw [hpast]
          exact ih
        · rw [hpast, if_neg hkey]
          exact ih.trans (if_neg hkey)

@[simp] theorem slot?_countBuild (b : Baselines) (key : String) :
    b.countBuild.slot? key = b.slot? key := rfl

@[simp] theorem builds_reserve (b : Baselines) (key : String) :
    (b.reserve key).builds = b.builds := by
  rw [reserve]
  split <;> rfl

end Baselines

/-! ### Callers -/

/-- How far a call has come. -/
inductive Visit where
  | called
  /-- The slot is there. -/
  | waiting
  /-- Holds the slot. -/
  | building
  /-- Found a verdict. -/
  | given (v : Verdict)
  /-- Built, and kept the verdict unless it was cancelled. -/
  | built (v : Verdict) (kept : Bool)
deriving DecidableEq

namespace Visit

def verdict? : Visit → Option Verdict
  | .given v | .built v _ => some v
  | _ => none

/-- The verdict, unless the build was cancelled. -/
def final? : Visit → Option Verdict
  | .given v | .built v true => some v
  | _ => none

/-- A build was attempted. -/
def attempted : Visit → Bool
  | .building | .built _ _ => true
  | _ => false

/-- The slot belongs to the build of this call, for now or for good. -/
def holds : Visit → Bool
  | .building => true
  | .built _ kept => kept
  | _ => false

/-- An upper bound of the steps that are still to take. -/
def rank : Visit → Nat
  | .called => 3
  | .waiting => 2
  | .building => 1
  | .given _ | .built _ _ => 0

end Visit

/-- What a caller is told. -/
def Inquiry.answer (q : Inquiry σ) (v : Verdict) : Except Error Baseline :=
  v.mapError (.baseline (q.target.display ++ " with " ++ q.trusted.display))

/-- The same baseline, or the same reason why there is none. -/
inductive Accord : Except Error Baseline → Except Error Baseline → Prop
  | baseline (b : Baseline) : Accord (.ok b) (.ok b)
  | failure (context context' detail : String) :
      Accord (.error (.baseline context detail)) (.error (.baseline context' detail))

theorem Inquiry.answer_accord (q q' : Inquiry σ) (v : Verdict) :
    Accord (q.answer v) (q'.answer v) := by
  cases v with
  | ok b => exact .baseline b
  | error detail => exact .failure _ _ detail

/-- An archive and the calls that are made of it. -/
structure Desk (ι σ : Type) where
  archive : Archive σ
  visit : ι → Visit

namespace Desk

variable {ask : ι → Inquiry σ} {d d' : Desk ι σ} {i j : ι} {key : String} {v w : Verdict}

/-- A fresh archive, and no call has done anything. -/
def opening (site : Site σ) : Desk ι σ :=
  ⟨⟨site, .empty⟩, fun _ => .called⟩

def slot? (d : Desk ι σ) (key : String) : Option (Option Verdict) :=
  d.archive.baselines.slot? key

/-- Nobody holds the slot. -/
def Free (ask : ι → Inquiry σ) (d : Desk ι σ) (key : String) : Prop :=
  ∀ i, (ask i).key = key → d.visit i ≠ .building

instance [Fintype ι] (ask : ι → Inquiry σ) (d : Desk ι σ) (key : String) :
    Decidable (d.Free ask key) :=
  inferInstanceAs (Decidable (∀ i, (ask i).key = key → d.visit i ≠ .building))

/-- What a call came to. -/
def told? (ask : ι → Inquiry σ) (d : Desk ι σ) (i : ι) : Option (Except Error Baseline) :=
  (d.visit i).verdict?.map (ask i).answer

/-- No build was cancelled so far. -/
def Undisturbed (d : Desk ι σ) : Prop :=
  ∀ i v, d.visit i ≠ .built v false

def Over (d : Desk ι σ) : Prop :=
  ∀ i, ∃ v, (d.visit i).verdict? = some v

/-! ### Calls and slots fit together -/

structure Orderly (ask : ι → Inquiry σ) (d : Desk ι σ) : Prop where
  /-- A slot belongs to one build. -/
  single : ∀ i j, (ask i).key = (ask j).key → (d.visit i).holds → (d.visit j).holds → i = j
  reserved : ∀ i, d.visit i ≠ .called → d.slot? (ask i).key ≠ none
  shown : ∀ i v, (d.visit i).final? = some v → d.slot? (ask i).key = some (some v)
  owned : ∀ key v, d.slot? key = some (some v) → ∃ i, (ask i).key = key ∧
    d.visit i = .built v true

theorem orderly_opening (ask : ι → Inquiry σ) (site : Site σ) : Orderly ask (opening site) where
  single _ _ _ h _ := by cases h
  reserved _ h := absurd rfl h
  shown _ _ h := by cases h
  owned _ _ h := by cases h

/-- Who builds found no verdict, and nobody else leaves one. -/
theorem Orderly.vacant (h : d.Orderly ask) (hi : d.visit i = .building) :
    d.slot? (ask i).key = some none := by
  rcases hslot : d.slot? (ask i).key with _ | _ | v
  · exact absurd hslot (h.reserved i (by rw [hi]; nofun))
  · rfl
  · obtain ⟨j, hkey, hj⟩ := h.owned _ v hslot
    obtain rfl := h.single j i hkey (by rw [hj]; rfl) (by rw [hi]; rfl)
    rw [hi] at hj
    cases hj

/-- Whose slot is free and without a verdict is the first to build. -/
theorem Orderly.unheld (h : d.Orderly ask) (hfree : d.Free ask key)
    (hempty : ∀ v, d.slot? key ≠ some (some v)) (hkey : (ask j).key = key) :
    ¬(d.visit j).holds := by
  intro hj
  cases hvisit : d.visit j with
  | building => exact hfree j hkey hvisit
  | built v kept =>
      rw [hvisit] at hj
      obtain rfl : kept = true := hj
      exact hempty v (hkey ▸ h.shown j v (by rw [hvisit]; rfl))
  | _ =>
      rw [hvisit] at hj
      cases hj

/-! ### What the calls have in common -/

/-- Calls for one slot that were not cancelled know one verdict. -/
theorem Orderly.agree (h : d.Orderly ask) (hkey : (ask i).key = (ask j).key)
    (hi : (d.visit i).final? = some v) (hj : (d.visit j).final? = some w) : v = w :=
  Option.some.inj <| Option.some.inj <|
    (h.shown i v hi).symm.trans ((congrArg d.slot? hkey).trans (h.shown j w hj))

/-- It was built by one of them. -/
theorem Orderly.source (h : d.Orderly ask) (hi : (d.visit i).final? = some v) :
    ∃ j, (ask j).key = (ask i).key ∧ d.visit j = .built v true :=
  h.owned _ v (h.shown i v hi)

theorem Undisturbed.final (hquiet : d.Undisturbed) (hi : (d.visit i).verdict? = some v) :
    (d.visit i).final? = some v := by
  cases hvisit : d.visit i with
  | built w kept =>
      cases kept with
      | true => rwa [hvisit] at hi
      | false => exact absurd hvisit (hquiet i w)
  | _ => rwa [hvisit] at hi

theorem Undisturbed.holds (hquiet : d.Undisturbed) (hi : (d.visit i).attempted) :
    (d.visit i).holds := by
  cases hvisit : d.visit i with
  | built w kept =>
      cases kept with
      | true => rfl
      | false => exact absurd hvisit (hquiet i w)
  | _ => rwa [hvisit] at hi

/-- Without cancellation nobody builds what another one builds or built. -/
theorem Orderly.attempted_once (h : d.Orderly ask) (hquiet : d.Undisturbed)
    (hkey : (ask i).key = (ask j).key) (hi : (d.visit i).attempted)
    (hj : (d.visit j).attempted) : i = j :=
  h.single i j hkey (hquiet.holds hi) (hquiet.holds hj)

theorem Orderly.attempted (h : d.Orderly ask) (hquiet : d.Undisturbed) (hover : d.Over) (i : ι) :
    ∃ j, (ask j).key = (ask i).key ∧ (d.visit j).attempted := by
  obtain ⟨v, hi⟩ := hover i
  obtain ⟨j, hkey, hj⟩ := h.source (hquiet.final hi)
  exact ⟨j, hkey, by rw [hj]; rfl⟩

theorem Orderly.accord (h : d.Orderly ask) (hquiet : d.Undisturbed)
    (hkey : (ask i).key = (ask j).key) {r r' : Except Error Baseline}
    (hi : d.told? ask i = some r) (hj : d.told? ask j = some r') : Accord r r' := by
  obtain ⟨v, hv, rfl⟩ := Option.map_eq_some_iff.mp hi
  obtain ⟨w, hw, rfl⟩ := Option.map_eq_some_iff.mp hj
  obtain rfl := h.agree hkey (hquiet.final hv) (hquiet.final hw)
  exact (ask i).answer_accord (ask j) v

/-! ### Steps -/

variable [DecidableEq ι]

/-- One call goes on. -/
def advance (d : Desk ι σ) (i : ι) (archive : Archive σ) (visit : Visit) : Desk ι σ :=
  ⟨archive, Function.update d.visit i visit⟩

/-- One atomic step: outside anything may happen; a call reserves its slot, or gets hold of it, or
lets go of it after a build. -/
inductive Step (ask : ι → Inquiry σ) (d : Desk ι σ) : Desk ι σ → Prop
  | meanwhile (site : Site σ) : Step ask d { d with archive := { d.archive with site := site } }
  | reserve (i : ι) : d.visit i = .called →
      Step ask d (d.advance i
        { d.archive with baselines := d.archive.baselines.reserve (ask i).key } .waiting)
  | answer (i : ι) (v : Verdict) : d.visit i = .waiting → d.Free ask (ask i).key →
      d.slot? (ask i).key = some (some v) → Step ask d (d.advance i d.archive (.given v))
  | enter (i : ι) : d.visit i = .waiting → d.Free ask (ask i).key →
      (∀ v, d.slot? (ask i).key ≠ some (some v)) →
      Step ask d (d.advance i
        { d.archive with baselines := d.archive.baselines.countBuild } .building)
  | leave (i : ι) (v : Verdict) (stop : Bool) : d.visit i = .building →
      Step ask d (d.advance i (d.archive.keep (ask i) v stop) (.built v !stop))

/-- Any interleaving. -/
abbrev Steps (ask : ι → Inquiry σ) : Desk ι σ → Desk ι σ → Prop :=
  Relation.ReflTransGen (Step ask)

@[simp] theorem advance_self (d : Desk ι σ) (i : ι) (archive : Archive σ) (visit : Visit) :
    (d.advance i archive visit).visit i = visit :=
  Function.update_self ..

theorem advance_other (d : Desk ι σ) (archive : Archive σ) (visit : Visit) (h : j ≠ i) :
    (d.advance i archive visit).visit j = d.visit j :=
  Function.update_of_ne h ..

/-- A call goes on; slots stay, and so do their verdicts. -/
theorem Orderly.advance (h : d.Orderly ask) {archive : Archive σ} {visit : Visit}
    (hold : (d.visit i).final? = none)
    (hslots : ∀ key, d.slot? key ≠ none → archive.baselines.slot? key ≠ none)
    (hverdicts : ∀ key v, d.slot? key = some (some v) →
      archive.baselines.slot? key = some (some v))
    (hnew : ∀ key v, archive.baselines.slot? key = some (some v) →
      d.slot? key = some (some v) ∨ (ask i).key = key ∧ visit = .built v true)
    (hreserved : archive.baselines.slot? (ask i).key ≠ none)
    (hshown : ∀ v, visit.final? = some v → archive.baselines.slot? (ask i).key = some (some v))
    (hholds : visit.holds → ∀ j, j ≠ i → (ask j).key = (ask i).key → ¬(d.visit j).holds) :
    (d.advance i archive visit).Orderly ask where
  single j k hkey hj hk := by
    by_cases hji : j = i <;> by_cases hki : k = i
    · rw [hji, hki]
    · subst hji
      rw [advance_self] at hj
      rw [advance_other _ _ _ hki] at hk
      exact absurd hk (hholds hj k hki hkey.symm)
    · subst hki
      rw [advance_self] at hk
      rw [advance_other _ _ _ hji] at hj
      exact absurd hj (hholds hk j hji hkey)
    · rw [advance_other _ _ _ hji] at hj
      rw [advance_other _ _ _ hki] at hk
      exact h.single j k hkey hj hk
  reserved j hj := by
    by_cases hji : j = i
    · exact hji ▸ hreserved
    · rw [advance_other _ _ _ hji] at hj
      exact hslots _ (h.reserved j hj)
  shown j v hj := by
    by_cases hji : j = i
    · subst hji
      rw [advance_self] at hj
      exact hshown v hj
    · rw [advance_other _ _ _ hji] at hj
      exact hverdicts _ v (h.shown j v hj)
  owned key v hslot := by
    rcases hnew key v hslot with hslot | ⟨hkey, hvisit⟩
    · obtain ⟨j, hkey, hj⟩ := h.owned key v hslot
      have hji : j ≠ i := by
        rintro rfl
        rw [hj] at hold
        cases hold
      exact ⟨j, hkey, (advance_other _ _ _ hji).trans hj⟩
    · exact ⟨i, hkey, (advance_self ..).trans hvisit⟩

/-- A verdict stays in its slot. -/
theorem Orderly.settled (h : d.Orderly ask) (hstep : Step ask d d')
    (hslot : d.slot? key = some (some v)) : d'.slot? key = some (some v) := by
  cases hstep with
  | meanwhile site => exact hslot
  | reserve i hi =>
      show (d.archive.baselines.reserve (ask i).key).slot? key = _
      rw [Baselines.slot?_reserve]
      split
      · next heq =>
          rw [← heq, show d.archive.baselines.slot? key = _ from hslot, Option.getD_some]
      · exact hslot
  | answer i w hi hfree hfound => exact hslot
  | enter i hi hfree hempty => exact hslot
  | leave i w stop hi =>
      cases stop with
      | true => exact hslot
      | false =>
          have hkey : key ≠ (ask i).key := by
            rintro rfl
            rw [h.vacant hi] at hslot
            cases hslot
          exact (Baselines.slot?_store ..).trans ((if_neg hkey).trans hslot)

/-- A slot stays. -/
theorem Step.reserved (hstep : Step ask d d') (hslot : d.slot? key ≠ none) :
    d'.slot? key ≠ none := by
  cases hstep with
  | meanwhile site => exact hslot
  | reserve i hi =>
      show (d.archive.baselines.reserve (ask i).key).slot? key ≠ none
      rw [Baselines.slot?_reserve]
      split
      · nofun
      · exact hslot
  | answer i w hi hfree hfound => exact hslot
  | enter i hi hfree hempty => exact hslot
  | leave i w stop hi =>
      cases stop with
      | true => exact hslot
      | false =>
          show (d.archive.baselines.store (ask i).key w).slot? key ≠ none
          rw [Baselines.slot?_store]
          split
          · next heq =>
              rw [Ne, Option.map_eq_none_iff, ← heq]
              exact hslot
          · exact hslot

theorem Orderly.step (h : d.Orderly ask) (hstep : Step ask d d') : d'.Orderly ask := by
  have hslots (key : String) (hslot : d.slot? key ≠ none) : d'.slot? key ≠ none :=
    hstep.reserved hslot
  have hverdicts (key : String) (v : Verdict) (hslot : d.slot? key = some (some v)) :
      d'.slot? key = some (some v) := h.settled hstep hslot
  cases hstep with
  | meanwhile site => exact ⟨h.single, h.reserved, h.shown, h.owned⟩
  | reserve i hi =>
      refine h.advance (by rw [hi]; rfl) hslots hverdicts (fun key v hslot => .inl ?_) ?_ nofun
        nofun
      · -- The new slot is empty.
        rw [Baselines.slot?_reserve] at hslot
        split at hslot
        · next heq =>
            rcases hfound : d.archive.baselines.slot? (ask i).key with _ | _ | w <;>
              rw [hfound] at hslot <;> cases hslot
            rw [heq]
            exact hfound
        · exact hslot
      · rw [Baselines.slot?_reserve, if_pos rfl]
        nofun
  | answer i w hi hfree hfound =>
      refine h.advance (by rw [hi]; rfl) hslots hverdicts (fun _ _ => .inl)
        (h.reserved i (by rw [hi]; nofun)) ?_ nofun
      rintro v ⟨⟩
      exact hfound
  | enter i hi hfree hempty =>
      exact h.advance (by rw [hi]; rfl) hslots hverdicts (fun _ _ => .inl)
        (h.reserved i (by rw [hi]; nofun)) nofun
        fun _ j _ hkey => h.unheld hfree hempty hkey
  | leave i w stop hi =>
      have hheld : ∀ j, j ≠ i → (ask j).key = (ask i).key → ¬(d.visit j).holds :=
        fun j hne hkey hj => hne (h.single j i hkey hj (by rw [hi]; rfl))
      cases stop with
      | true =>
          exact h.advance (by rw [hi]; rfl) hslots hverdicts (fun _ _ => .inl)
            (h.reserved i (by rw [hi]; nofun)) nofun nofun
      | false =>
          have hfilled : (d.archive.baselines.store (ask i).key w).slot? (ask i).key =
              some (some w) := by
            rw [Baselines.slot?_store, if_pos rfl,
              show d.archive.baselines.slot? (ask i).key = some none from h.vacant hi]
            rfl
          refine h.advance (by rw [hi]; rfl) hslots hverdicts (fun key v hslot => ?_) ?_ ?_
            fun _ => hheld
          · by_cases hkey : key = (ask i).key
            · subst hkey
              obtain rfl : w = v := Option.some.inj (Option.some.inj (hfilled.symm.trans hslot))
              exact .inr ⟨rfl, rfl⟩
            · exact .inl ((if_neg hkey).symm.trans
                ((Baselines.slot?_store ..).symm.trans hslot))
          · exact ne_of_eq_of_ne hfilled nofun
          · rintro v ⟨⟩
            exact hfilled

theorem Orderly.steps (h : d.Orderly ask) (hsteps : Steps ask d d') : d'.Orderly ask := by
  induction hsteps with
  | refl => exact h
  | tail _ hstep ih => exact ih.step hstep

theorem Orderly.settled_steps (h : d.Orderly ask) (hsteps : Steps ask d d')
    (hslot : d.slot? key = some (some v)) : d'.slot? key = some (some v) := by
  induction hsteps with
  | refl => exact hslot
  | tail hsteps hstep ih => exact (h.steps hsteps).settled hstep ih

/-! ### Builds -/

section Count

variable [Fintype ι]

/-- The calls that attempted a build. -/
def attempts (d : Desk ι σ) : Finset ι :=
  Finset.univ.filter fun i => (d.visit i).attempted

omit [DecidableEq ι] in
theorem mem_attempts : i ∈ d.attempts ↔ (d.visit i).attempted := by
  simp [attempts]

theorem attempts_advance (archive : Archive σ) {visit : Visit}
    (h : visit.attempted = (d.visit i).attempted) :
    (d.advance i archive visit).attempts = d.attempts := by
  ext j
  rw [mem_attempts, mem_attempts]
  by_cases hji : j = i
  · rw [hji, advance_self, h]
  · rw [advance_other _ _ _ hji]

theorem attempts_enter (archive : Archive σ) (h : d.visit i = .waiting) :
    (d.advance i archive .building).attempts.card = d.attempts.card + 1 := by
  have hnew : i ∉ d.attempts := by
    rw [mem_attempts, h]
    nofun
  rw [← Finset.card_insert_of_notMem hnew]
  congr 1
  ext j
  rw [Finset.mem_insert, mem_attempts, mem_attempts]
  by_cases hji : j = i
  · simp [hji, Visit.attempted]
  · simp [hji, advance_other]

theorem builds_step (hstep : Step ask d d') (h : d.archive.baselines.builds = d.attempts.card) :
    d'.archive.baselines.builds = d'.attempts.card := by
  cases hstep with
  | meanwhile site => exact h
  | reserve i hi =>
      rw [attempts_advance _ (by rw [hi]; rfl)]
      exact (Baselines.builds_reserve ..).trans h
  | answer i w hi hfree hfound =>
      rw [attempts_advance _ (by rw [hi]; rfl)]
      exact h
  | enter i hi hfree hempty =>
      rw [attempts_enter _ hi, ← h]
      rfl
  | leave i w stop hi =>
      rw [attempts_advance _ (by rw [hi]; rfl), ← h]
      cases stop <;> rfl

theorem builds_eq (site : Site σ) (h : Steps ask (opening site) d) :
    d.archive.baselines.builds = d.attempts.card := by
  induction h with
  | refl => simp [opening, attempts, Visit.attempted, Baselines.empty]
  | tail _ hstep ih => exact builds_step hstep ih

omit [DecidableEq ι] in
/-- Without cancellation there is one build for each text. -/
theorem Orderly.card_attempts (h : d.Orderly ask) (hquiet : d.Undisturbed) (hover : d.Over) :
    d.attempts.card = (Finset.univ.image fun i => (ask i).key).card := by
  have hinj : Set.InjOn (fun i => (ask i).key) d.attempts := fun i hi j hj hkey =>
    h.attempted_once hquiet hkey (mem_attempts.mp hi) (mem_attempts.mp hj)
  rw [← Finset.card_image_of_injOn hinj]
  congr 1
  refine Finset.Subset.antisymm (Finset.image_subset_image (Finset.subset_univ _)) ?_
  intro key hkey
  obtain ⟨i, -, rfl⟩ := Finset.mem_image.mp hkey
  obtain ⟨j, hkey, hj⟩ := h.attempted hquiet hover i
  exact Finset.mem_image.mpr ⟨j, mem_attempts.mpr hj, hkey⟩

end Count

/-! ### Cancelled builds -/

/-- A cancelled build gives its slot back as it found it. -/
theorem Orderly.leave_cancelled (h : d.Orderly ask) (hi : d.visit i = .building)
    (hstep : Step ask d d') (hleft : d'.visit i = .built v false) :
    d'.slot? (ask i).key = some none ∧ d'.Free ask (ask i).key := by
  have hmoved (archive : Archive σ) (j : ι) (visit : Visit) (hj : d.visit j ≠ .building) :
      (d.advance j archive visit).visit i ≠ .built v false := by
    have hij : i ≠ j := fun heq => hj (heq ▸ hi)
    rw [advance_other _ _ _ hij, hi]
    nofun
  cases hstep with
  | meanwhile site => rw [show d.visit i = _ from hleft] at hi; cases hi
  | reserve j hj => exact absurd hleft (hmoved _ j _ (by rw [hj]; nofun))
  | answer j w hj hfree hfound => exact absurd hleft (hmoved _ j _ (by rw [hj]; nofun))
  | enter j hj hfree hempty => exact absurd hleft (hmoved _ j _ (by rw [hj]; nofun))
  | leave j w stop hj =>
      obtain rfl : i = j := by
        by_contra hij
        rw [advance_other _ _ _ hij, hi] at hleft
        cases hleft
      rw [advance_self] at hleft
      obtain ⟨rfl, hstop⟩ := Visit.built.inj hleft
      obtain rfl : stop = true := by simpa using hstop
      refine ⟨h.vacant hi, fun k hkey hk => ?_⟩
      by_cases hki : k = i
      · rw [hki, advance_self] at hk
        cases hk
      · rw [advance_other _ _ _ hki] at hk
        exact hki (h.single k i hkey (by rw [hk]; rfl) (by rw [hi]; rfl))

/-- Whoever gets hold of an empty slot builds. -/
theorem Step.enter_empty (hstep : Step ask d d') (hempty : d.slot? (ask i).key = some none)
    (hi : d.visit i = .waiting) (hmoved : d'.visit i ≠ .waiting) :
    d'.visit i = .building ∧ d'.archive.baselines.builds = d.archive.baselines.builds + 1 := by
  have hself (archive : Archive σ) (j : ι) (visit : Visit)
      (h : (d.advance j archive visit).visit i ≠ .waiting) : i = j := by
    by_contra hij
    rw [advance_other _ _ _ hij] at h
    exact h hi
  cases hstep with
  | meanwhile site => exact absurd hi hmoved
  | reserve j hj =>
      obtain rfl := hself _ j _ hmoved
      rw [hi] at hj
      cases hj
  | answer j w hj hfree hfound =>
      obtain rfl := hself _ j _ hmoved
      rw [hempty] at hfound
      cases hfound
  | enter j hj hfree _ =>
      obtain rfl := hself _ j _ hmoved
      exact ⟨advance_self .., rfl⟩
  | leave j w stop hj =>
      obtain rfl := hself _ j _ hmoved
      rw [hi] at hj
      cases hj

/-- A call that is over stays so. -/
theorem Step.over (hstep : Step ask d d') (hi : (d.visit i).rank = 0) :
    d'.visit i = d.visit i := by
  have hother (archive : Archive σ) (j : ι) (visit : Visit) (hj : (d.visit j).rank ≠ 0) :
      (d.advance j archive visit).visit i = d.visit i :=
    advance_other _ _ _ fun heq => hj (heq ▸ hi)
  cases hstep with
  | meanwhile site => rfl
  | reserve j hj => exact hother _ j _ (by rw [hj]; nofun)
  | answer j w hj hfree hfound => exact hother _ j _ (by rw [hj]; nofun)
  | enter j hj hfree hempty => exact hother _ j _ (by rw [hj]; nofun)
  | leave j w stop hj => exact hother _ j _ (by rw [hj]; nofun)

theorem Steps.over (hsteps : Steps ask d d') (hi : (d.visit i).rank = 0) :
    d'.visit i = d.visit i := by
  induction hsteps with
  | refl => rfl
  | tail _ hstep ih => exact (hstep.over (by rw [ih]; exact hi)).trans ih

/-- What is found in a slot that was empty was built since, by a call that had not begun to. -/
theorem Orderly.built_since (h : d.Orderly ask) (hsteps : Steps ask d d')
    (hfree : d.Free ask key) (hempty : d.slot? key = some none)
    (hfound : d'.slot? key = some (some v)) :
    ∃ j, (ask j).key = key ∧ ¬(d.visit j).attempted ∧ d'.visit j = .built v true := by
  obtain ⟨j, hkey, hj⟩ := (h.steps hsteps).owned key v hfound
  refine ⟨j, hkey, fun hattempted => ?_, hj⟩
  have hunheld := h.unheld hfree (by rw [hempty]; nofun) hkey
  cases hvisit : d.visit j with
  | building => exact hfree j hkey hvisit
  | built w kept =>
      rw [hsteps.over (by rw [hvisit]; rfl), hvisit] at hj
      rw [hvisit, hj] at hunheld
      exact hunheld rfl
  | _ => rw [hvisit] at hattempted; cases hattempted

/-! ### Calls come to an end -/

section End

variable [Fintype ι]

def rank (d : Desk ι σ) : Nat :=
  ∑ i, (d.visit i).rank

theorem rank_advance (archive : Archive σ) {visit : Visit} (h : visit.rank < (d.visit i).rank) :
    (d.advance i archive visit).rank < d.rank := by
  refine Finset.sum_lt_sum (fun j _ => ?_) ⟨i, Finset.mem_univ i, by rwa [advance_self]⟩
  by_cases hji : j = i
  · rw [hji, advance_self]
    exact h.le
  · rw [advance_other _ _ _ hji]

omit [Fintype ι] in
theorem Undisturbed.advance (h : d.Undisturbed) (archive : Archive σ) {visit : Visit}
    (hvisit : ∀ v, visit ≠ .built v false) : (d.advance i archive visit).Undisturbed := by
  intro j v
  by_cases hji : j = i
  · rw [hji, advance_self]
    exact hvisit v
  · rw [advance_other _ _ _ hji]
    exact h j v

/-- While some call is not over, some call can go on, and nobody needs to cancel anything. -/
theorem progress (ask : ι → Inquiry σ) (d : Desk ι σ) :
    d.Over ∨ ∃ d', Step ask d d' ∧ d'.rank < d.rank ∧ (d.Undisturbed → d'.Undisturbed) := by
  by_cases hbuilding : ∃ i, d.visit i = .building
  · obtain ⟨i, hi⟩ := hbuilding
    have hkept (v : Verdict) : Visit.built (.error "") true ≠ .built v false := by simp
    exact .inr ⟨_, .leave i (.error "") false hi, rank_advance _ (by rw [hi]; decide),
      fun h => h.advance _ hkept⟩
  have hfree (key : String) : d.Free ask key := fun i _ hi => hbuilding ⟨i, hi⟩
  by_cases hover : d.Over
  · exact .inl hover
  obtain ⟨i, hi⟩ := not_forall.mp hover
  refine .inr ?_
  cases hvisit : d.visit i with
  | called =>
      exact ⟨_, .reserve i hvisit, rank_advance _ (by rw [hvisit]; decide),
        fun h => h.advance _ nofun⟩
  | waiting =>
      by_cases hfound : ∃ v, d.slot? (ask i).key = some (some v)
      · obtain ⟨v, hv⟩ := hfound
        exact ⟨_, .answer i v hvisit (hfree _) hv,
          rank_advance _ (by rw [hvisit]; exact Nat.two_pos), fun h => h.advance _ nofun⟩
      · exact ⟨_, .enter i hvisit (hfree _) (not_exists.mp hfound),
          rank_advance _ (by rw [hvisit]; decide), fun h => h.advance _ nofun⟩
  | building => exact absurd ⟨i, hvisit⟩ hbuilding
  | given v => exact absurd ⟨v, by rw [hvisit]; rfl⟩ hi
  | built v kept => exact absurd ⟨v, by rw [hvisit]; rfl⟩ hi

theorem completes (ask : ι → Inquiry σ) (d : Desk ι σ) :
    ∃ d', Steps ask d d' ∧ d'.Over ∧ (d.Undisturbed → d'.Undisturbed) := by
  induction hrank : d.rank using Nat.strong_induction_on generalizing d with
  | _ n ih =>
      rcases progress ask d with hover | ⟨d₁, hstep, hless, hquiet⟩
      · exact ⟨d, .refl, hover, id⟩
      · obtain ⟨d', hsteps, hover, hquiet'⟩ := ih d₁.rank (hrank ▸ hless) d₁ rfl
        exact ⟨d', .head hstep hsteps, hover, hquiet' ∘ hquiet⟩

end End

/-! ### A call on its own -/

/-- A call that nobody gets in the way of does what `Archive.establish` does. -/
theorem undisturbed_call (hi : d.visit i = .called) (hfree : d.Free ask (ask i).key) :
    ∃ d', Steps ask d d' ∧ ∃ r, d'.told? ask i = some r ∧
      (Archive.establish (ask i).setup (ask i).trusted (ask i).target).runOn d.archive =
        (r, d'.archive) := by
  let s : Archive σ := { d.archive with baselines := d.archive.baselines.reserve (ask i).key }
  have hreserve : Step ask d (d.advance i s .waiting) := .reserve i hi
  have hfree₁ : (d.advance i s .waiting).Free ask (ask i).key := by
    intro j hkey hj
    by_cases hji : j = i
    · rw [hji, advance_self] at hj
      cases hj
    · rw [advance_other _ _ _ hji] at hj
      exact hfree j hkey hj
  by_cases hfound : ∃ v, s.baselines.slot? (ask i).key = some (some v)
  · obtain ⟨v, hv⟩ := hfound
    have hanswer : Step ask _ _ := .answer i v (advance_self ..) hfree₁ hv
    refine ⟨_, .tail (.single hreserve) hanswer, (ask i).answer v, ?_, ?_⟩
    · rw [told?, advance_self]
      rfl
    · exact Archive.establish_eq (Archive.decide_known hv)
  · rcases hran : (Archive.compute (ask i).setup (ask i).trusted (ask i).target).run s.site
      with ⟨v, site⟩
    rcases hlook : (ask i).setup.lab.cancelled site.world with ⟨stop, w⟩
    let d₂ := (d.advance i s .waiting).advance i
      { s with baselines := s.baselines.countBuild } .building
    let d₃ : Desk ι σ := ⟨⟨{ site with world := w }, s.baselines.countBuild⟩, d₂.visit⟩
    have henter : Step ask (d.advance i s .waiting) d₂ :=
      .enter i (advance_self ..) hfree₁ (not_exists.mp hfound)
    have hmeanwhile : Step ask d₂ d₃ := .meanwhile { site with world := w }
    have hleave : Step ask d₃ _ := .leave i v stop (advance_self ..)
    refine ⟨_, .tail (.tail (.tail (.single hreserve) henter) hmeanwhile) hleave,
      (ask i).answer v, ?_, ?_⟩
    · rw [told?, advance_self]
      rfl
    · exact Archive.establish_eq (Archive.decide_new (not_exists.mp hfound) hran hlook)

end Desk

/-! ### Baselines are built once -/

/-- However the calls interleave, one attempt is counted for each build. Without cancellation there
is at most one attempt for each text and, when all calls are over, exactly one, so the count is that
of the texts asked for; callers with the same text are told the same. A cancelled attempt leaves its
slot empty and to the next one, who builds again; a verdict that is found there was built
since, by a call that had not begun to. The verdict of an attempt that is not cancelled is kept for
good, and all that the callers find is this verdict. The calls can always come to an end, and a call
that nobody gets in the way of does what `Archive.establish` does. -/
theorem establish_together [DecidableEq ι] [Fintype ι] (ask : ι → Inquiry σ) (site : Site σ)
    {d : Desk ι σ} (h : Desk.Steps ask (Desk.opening site) d) :
    d.archive.baselines.builds = d.attempts.card ∧
    (d.Undisturbed →
      (∀ i j, (ask i).key = (ask j).key → (d.visit i).attempted → (d.visit j).attempted →
        i = j) ∧
      (∀ i j r r', (ask i).key = (ask j).key → d.told? ask i = some r →
        d.told? ask j = some r' → Accord r r') ∧
      (d.Over → (∀ i, ∃! j, (ask j).key = (ask i).key ∧ (d.visit j).attempted) ∧
        d.archive.baselines.builds = (Finset.univ.image fun i => (ask i).key).card)) ∧
    (∀ i v d', d.visit i = .building → Desk.Step ask d d' → d'.visit i = .built v false →
      d'.slot? (ask i).key = some none ∧ d'.Free ask (ask i).key) ∧
    (∀ key, d.slot? key = some none → d.Free ask key →
      (∀ i d', (ask i).key = key → d.visit i = .waiting → Desk.Step ask d d' →
        d'.visit i ≠ .waiting →
        d'.visit i = .building ∧ d'.archive.baselines.builds = d.archive.baselines.builds + 1) ∧
      (∀ d' v, Desk.Steps ask d d' → d'.slot? key = some (some v) →
        ∃ j, (ask j).key = key ∧ ¬(d.visit j).attempted ∧ d'.visit j = .built v true)) ∧
    (∀ i v d', d.visit i = .built v true → Desk.Steps ask d d' →
      d'.slot? (ask i).key = some (some v) ∧
      ∀ j w, (ask j).key = (ask i).key → (d'.visit j).final? = some w → w = v) ∧
    (∃ d', Desk.Steps ask d d' ∧ d'.Over ∧ (d.Undisturbed → d'.Undisturbed)) ∧
    (∀ i, d.visit i = .called → d.Free ask (ask i).key →
      ∃ d', Desk.Steps ask d d' ∧ ∃ r, d'.told? ask i = some r ∧
        (Archive.establish (ask i).setup (ask i).trusted (ask i).target).runOn d.archive =
          (r, d'.archive)) := by
  have horderly : d.Orderly ask := (Desk.orderly_opening ask site).steps h
  have hbuilds := Desk.builds_eq site h
  refine ⟨hbuilds, fun hquiet => ⟨fun i j => horderly.attempted_once hquiet,
      fun i j r r' hkey => horderly.accord hquiet hkey, fun hover => ⟨fun i => ?_,
        hbuilds.trans (horderly.card_attempts hquiet hover)⟩⟩,
    fun i v d' hi hstep hleft => horderly.leave_cancelled hi hstep hleft,
    fun key hempty hfree => ⟨fun i d' hkey hi hstep hmoved =>
        hstep.enter_empty (hkey ▸ hempty) hi hmoved,
      fun d' v hsteps hfound => horderly.built_since hsteps hfree hempty hfound⟩,
    fun i v d' hi hsteps => ?_, Desk.completes ask d,
    fun i hi hfree => Desk.undisturbed_call hi hfree⟩
  · obtain ⟨j, hkey, hj⟩ := horderly.attempted hquiet hover i
    exact ⟨j, ⟨hkey, hj⟩, fun k hk =>
      horderly.attempted_once hquiet (hk.1.trans hkey.symm) hk.2 hj⟩
  · have hslot : d.slot? (ask i).key = some (some v) := horderly.shown i v (by rw [hi]; rfl)
    have hkept : d'.slot? (ask i).key = some (some v) := horderly.settled_steps hsteps hslot
    refine ⟨hkept, fun j w hkey hj => ?_⟩
    have hshown := (horderly.steps hsteps).shown j w hj
    rw [hkey, hkept] at hshown
    exact (Option.some.inj (Option.some.inj hshown)).symm

/-- Two callers want the baseline for double precision, the third one that for single precision. -/
def threeCallers : Fin 3 → Inquiry Shelf
  | 0 | 1 => .about "t" "double"
  | 2 => .about "t" "float"

/-- What the call with this number builds on an empty shelf. -/
def builtFor (i : Fin 3) : Verdict :=
  ((Archive.compute (threeCallers i).setup (threeCallers i).trusted
    (threeCallers i).target).run ⟨.empty, .empty⟩).1

theorem establish_together_threeCallers :
    ∃ d, Desk.Steps threeCallers (Desk.opening ⟨.empty, .empty⟩) d ∧ d.Undisturbed ∧ d.Over ∧
      d.archive.baselines.builds = 2 ∧
      ∃ b, d.told? threeCallers 0 = some (.ok b) ∧ d.told? threeCallers 1 = some (.ok b) ∧
        b.output = "x" := by
  -- The second one waits for the first, while the third one builds at the same time.
  obtain ⟨d, hsteps, hfirst, hsecond, hthird⟩ :
      ∃ d, Desk.Steps threeCallers (Desk.opening ⟨.empty, .empty⟩) d ∧
        d.visit 0 = .built (builtFor 0) true ∧ d.visit 1 = .given (builtFor 0) ∧
        d.visit 2 = .built (builtFor 2) true :=
    ⟨_, .tail (.tail (.tail (.tail (.tail (.tail (.tail (.tail .refl
      (.reserve 0 rfl)) (.reserve 1 rfl)) (.enter 0 rfl (by decide) nofun)) (.reserve 2 rfl))
      (.enter 2 rfl (by decide) nofun)) (.leave 0 (builtFor 0) false rfl))
      (.answer 1 (builtFor 0) rfl (by decide) rfl)) (.leave 2 (builtFor 2) false rfl),
      rfl, rfl, rfl⟩
  have hquiet : d.Undisturbed
    | 0, v => by simp [hfirst]
    | 1, v => by simp [hsecond]
    | 2, v => by simp [hthird]
  have hover : d.Over
    | 0 => ⟨_, by rw [hfirst]; rfl⟩
    | 1 => ⟨_, by rw [hsecond]; rfl⟩
    | 2 => ⟨_, by rw [hthird]; rfl⟩
  obtain ⟨-, hcalm, -⟩ := establish_together threeCallers ⟨.empty, .empty⟩ hsteps
  obtain ⟨b, hbuilt, houtput⟩ : ∃ b, builtFor 0 = .ok b ∧ b.output = "x" := ⟨_, rfl, rfl⟩
  refine ⟨d, hsteps, hquiet, hover, ((hcalm hquiet).2.2 hover).2.trans (by decide), b, ?_, ?_,
    houtput⟩
  · rw [Desk.told?, hfirst, hbuilt]
    rfl
  · rw [Desk.told?, hsecond, hbuilt]
    rfl

end Culprit
