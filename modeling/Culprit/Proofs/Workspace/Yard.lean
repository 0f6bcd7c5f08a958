import Culprit.Proofs.Session.Steady
import Mathlib.Data.List.Basic
import Mathlib.Data.List.Induction
import Mathlib.Data.Set.Insert
import Mathlib.Logic.Function.Iterate
import Mathlib.Order.Bounds.Basic

/-!
Many holders of directories on one ledger, in every interleaving of their steps. To get a directory
takes four steps: it is made, counted among those handed out, counted among those in use, and the
peak is raised to the number that the third step told. To give it back takes two: it is counted,
and it is removed where directories are. Whoever gives a directory back again changes nothing.

So the ledger tells how many are in use. The peak can only be behind while a holder is between its
third step and its fourth.
-/

namespace Culprit

variable {σ : Type}

/-! ### One holder -/

/-- How far a holder is with its directory. -/
inductive Tenure where
  /-- Has none yet. -/
  | away (label : String)
  | named (path : String)
  /-- The directory is counted among those handed out. -/
  | entered (path : String)
  /-- It is counted among those in use, which were `now` with it. -/
  | counted (path : String) (now : Nat)
  | keeping (workspace : Workspace)
  /-- Its return is counted, its removal is still to come. -/
  | clearing (path : String)

namespace Tenure

/-- The ledger counts the directory as one in use. -/
def inUse : Tenure → Bool
  | .counted _ _ => true
  | .keeping w => w.held
  | _ => false

/-- Its next step gives the directory back. -/
def leaves : Tenure → Bool
  | .keeping w => w.held
  | _ => false

def isReturned : Tenure → Bool
  | .keeping w => !w.held
  | .clearing _ => true
  | _ => false

/-- The number that the ledger told and that the peak does not know yet. -/
def told? : Tenure → Option Nat
  | .counted _ now => some now
  | _ => none

/-- One atomic step. A directory that could not be made can be asked for again, and one that was
given back can be given back again. -/
def advance (lab : Lab σ) : Tenure × Site σ → Tenure × Site σ
  | (.away label, s) =>
    match (lab.makeDirectory (Workspace.cleanLabel label ++ "-")).runOn s.world with
    | (.ok path, w) => (.named path, { s with world := w })
    | (.error _, w) => (.away label, { s with world := w })
  | (.named path, s) => (.entered path, { s with ledger := s.ledger.countAcquired })
  | (.entered path, s) =>
    (.counted path s.ledger.countActive.1, { s with ledger := s.ledger.countActive.2 })
  | (.counted path now, s) =>
    (.keeping { path := path }, { s with ledger := s.ledger.raisePeak now })
  | (.keeping ⟨path, true⟩, s) => (.clearing path, { s with ledger := s.ledger.leave })
  | (.keeping ⟨path, false⟩, s) => (.keeping ⟨path, false⟩, s)
  | (.clearing path, s) =>
    (.keeping ⟨path, false⟩,
      { s with world :=
          if lab.deletes then ((lab.removeDirectory path).runOn s.world).2 else s.world })

section Alone

variable {lab : Lab σ} {label : String} {w : Workspace} {s s' : Site σ}

/-- Four steps of a holder, with nothing in between, are an `acquire`. -/
theorem advance_acquire (h : (Site.acquire lab label).runOn s = (.ok w, s')) :
    (advance lab)^[4] (.away label, s) = (.keeping w, s') := by
  rcases hmake : (lab.makeDirectory (Workspace.cleanLabel label ++ "-")).runOn s.world with
    ⟨fault | path, v⟩
  · rw [Site.acquire_error lab hmake] at h
    cases h
  · rw [Site.acquire_ok lab hmake] at h
    cases h
    have hmade : advance lab (.away label, s) = (.named path, { s with world := v }) := by
      rw [advance, hmake]
    rw [Function.iterate_succ_apply, hmade]
    rfl

/-- One step of a holder is an `acquire` that fails. -/
theorem advance_refused {fault : Error}
    (h : (Site.acquire lab label).runOn s = (.error fault, s')) :
    advance lab (.away label, s) = (.away label, s') := by
  rcases hmake : (lab.makeDirectory (Workspace.cleanLabel label ++ "-")).runOn s.world with
    ⟨fault' | path, v⟩
  · rw [Site.acquire_error lab hmake] at h
    cases h
    rw [advance, hmake]
  · rw [Site.acquire_ok lab hmake] at h
    cases h

/-- Two steps of a holder are a `release`, whether it has the directory or gave it back before. -/
theorem advance_release (lab : Lab σ) (w : Workspace) (s : Site σ) :
    (advance lab)^[2] (.keeping w, s) =
      (.keeping (Site.release lab w s).1.2, (Site.release lab w s).2) := by
  obtain ⟨path, _ | _⟩ := w
  · rfl
  · have hsteps : (advance lab)^[2] (.keeping ⟨path, true⟩, s) =
        (.keeping ⟨path, false⟩, ⟨if lab.deletes then ((lab.removeDirectory path).runOn s.world).2
          else s.world, s.ledger.leave⟩) := rfl
    rw [hsteps, Site.release]
    cases hdeletes : lab.deletes with
    | false =>
        simp only [Bool.false_eq_true, if_false, if_true]
        rfl
    | true =>
        simp only [if_true]
        rfl

end Alone

/-- What one step does to a holder and to the ledger. -/
inductive Turn (l : Ledger) : Tenure → Tenure → Ledger → Prop
  | refused (label : String) : Turn l (.away label) (.away label) l
  | made (label path : String) : Turn l (.away label) (.named path) l
  | enter (path : String) : Turn l (.named path) (.entered path) l.countAcquired
  | count (path : String) : Turn l (.entered path) (.counted path (l.active + 1)) l.countActive.2
  | keep (path : String) (now : Nat) :
      Turn l (.counted path now) (.keeping ⟨path, true⟩) (l.raisePeak now)
  | leave (path : String) : Turn l (.keeping ⟨path, true⟩) (.clearing path) l.leave
  | again (path : String) : Turn l (.keeping ⟨path, false⟩) (.keeping ⟨path, false⟩) l
  | clear (path : String) : Turn l (.clearing path) (.keeping ⟨path, false⟩) l

theorem turn_advance (lab : Lab σ) (t : Tenure) (s : Site σ) :
    Turn s.ledger t (advance lab (t, s)).1 (advance lab (t, s)).2.ledger := by
  cases t with
  | away label =>
      rcases hmake : (lab.makeDirectory (Workspace.cleanLabel label ++ "-")).runOn s.world with
        ⟨fault | path, w⟩
      · rw [advance, hmake]
        exact .refused label
      · rw [advance, hmake]
        exact .made label path
  | named path => exact .enter path
  | entered path => exact .count path
  | counted path now => exact .keep path now
  | keeping w =>
      obtain ⟨path, _ | _⟩ := w
      · exact .again path
      · exact .leave path
  | clearing path => exact .clear path

namespace Turn

variable {l l' : Ledger} {t t' : Tenure} {others : List Tenure} {reached : Set Nat}

theorem isReturned_eq (h : Turn l t t' l') : t'.isReturned = (t.isReturned || t.leaves) := by
  cases h <;> rfl

theorem countP_inUse (h : Turn l t t' l') (hcount : l.active = (t :: others).countP inUse) :
    l'.active = (t' :: others).countP inUse := by
  rw [List.countP_cons] at hcount ⊢
  cases h with
  | keep path now => exact hcount
  | leave path => exact Nat.sub_eq_of_eq_add hcount
  | count path => exact congrArg (· + 1) hcount
  | _ => exact hcount

end Turn

/-- The numbers `reached` that were in use at some time: each of them is covered by the peak or by a
number that a holder is about to raise it to, and these are among them. -/
structure Peaked (reached : Set Nat) (l : Ledger) (tenures : List Tenure) : Prop where
  active : l.active ∈ reached
  peak : l.peak ∈ reached
  told : ∀ t ∈ tenures, ∀ n, t.told? = some n → n ∈ reached
  covered : ∀ n ∈ reached, n ≤ l.peak ∨ ∃ t ∈ tenures, ∃ m, t.told? = some m ∧ n ≤ m

namespace Peaked

variable {l l' : Ledger} {t t' : Tenure} {tenures tenures' others : List Tenure}
  {reached : Set Nat}

theorem perm (htenures : tenures.Perm tenures') (h : Peaked reached l tenures) :
    Peaked reached l tenures' where
  active := h.active
  peak := h.peak
  told t ht := h.told t (htenures.mem_iff.mpr ht)
  covered n hn := (h.covered n hn).imp_right fun ⟨t, ht, hm⟩ => ⟨t, htenures.mem_iff.mp ht, hm⟩

/-- A step between whose ends nothing is told, and no more are in use than before. -/
theorem pass (h : Peaked reached l (t :: others)) (ht : t.told? = none) (ht' : t'.told? = none)
    (hactive : l'.active ≤ l.active) (hpeak : l'.peak = l.peak) :
    Peaked (insert l'.active reached) l' (t' :: others) := by
  have hcovered {n : Nat} (hn : n ≤ l.peak ∨ ∃ u ∈ t :: others, ∃ m, u.told? = some m ∧ n ≤ m) :
      n ≤ l'.peak ∨ ∃ u ∈ t' :: others, ∃ m, u.told? = some m ∧ n ≤ m := by
    simp only [List.exists_mem_cons_iff, ht, ht'] at hn ⊢
    simpa [hpeak] using hn
  constructor
  case active => exact Set.mem_insert _ _
  case peak => exact hpeak ▸ Set.mem_insert_of_mem _ h.peak
  case told =>
      refine List.forall_mem_cons.mpr ⟨by simp [ht'], fun u hu n hn => ?_⟩
      exact Set.mem_insert_of_mem _ (h.told u (List.mem_cons_of_mem _ hu) n hn)
  case covered =>
      rintro n (rfl | hn)
      · -- The number before was covered, and it was no smaller.
        refine hcovered ((h.covered l.active h.active).imp hactive.trans ?_)
        exact fun ⟨u, hu, m, hm, hle⟩ => ⟨u, hu, m, hm, hactive.trans hle⟩
      · exact hcovered (h.covered n hn)

theorem count (path : String) (h : Peaked reached l (.entered path :: others)) :
    Peaked (insert (l.active + 1) reached) l.countActive.2
      (.counted path (l.active + 1) :: others) := by
  constructor
  case active => exact Set.mem_insert _ _
  case peak => exact Set.mem_insert_of_mem _ h.peak
  case told =>
      refine List.forall_mem_cons.mpr ⟨fun n hn => ?_, fun u hu n hn => ?_⟩
      · exact Option.some.inj hn ▸ Set.mem_insert _ _
      · exact Set.mem_insert_of_mem _ (h.told u (List.mem_cons_of_mem _ hu) n hn)
  case covered =>
      rintro n (rfl | hn)
      · exact .inr ⟨_, List.mem_cons_self, _, rfl, Nat.le_refl _⟩
      · have hcovered := h.covered n hn
        simp only [List.exists_mem_cons_iff, told?] at hcovered ⊢
        refine hcovered.imp_right fun hu => .inr ?_
        simpa using hu

theorem keep (path : String) (now : Nat) (h : Peaked reached l (.counted path now :: others)) :
    Peaked (insert l.active reached) (l.raisePeak now) (.keeping ⟨path, true⟩ :: others) := by
  obtain ⟨htold, hothers⟩ := List.forall_mem_cons.mp h.told
  constructor
  case active => exact Set.mem_insert _ _
  case peak =>
      refine Set.mem_insert_of_mem _ ?_
      show max l.peak now ∈ reached
      rcases Nat.le_total now l.peak with hle | hle
      · rw [Nat.max_eq_left hle]
        exact h.peak
      · rw [Nat.max_eq_right hle]
        exact htold now rfl
  case told =>
      refine List.forall_mem_cons.mpr ⟨nofun, fun u hu n hn => ?_⟩
      exact Set.mem_insert_of_mem _ (hothers u hu n hn)
  case covered =>
      have hcovered {n : Nat} (hn : n ∈ reached) : n ≤ (l.raisePeak now).peak ∨
          ∃ u ∈ Tenure.keeping ⟨path, true⟩ :: others, ∃ m, u.told? = some m ∧ n ≤ m := by
        rcases h.covered n hn with hle | ⟨u, hu, m, hm, hle⟩
        · exact .inl (hle.trans (Nat.le_max_left _ _))
        · rcases List.mem_cons.mp hu with rfl | hu
          · obtain rfl : now = m := Option.some.inj hm
            exact .inl (hle.trans (Nat.le_max_right _ _))
          · exact .inr ⟨u, List.mem_cons_of_mem _ hu, m, hm, hle⟩
      rintro n (rfl | hn)
      · exact hcovered h.active
      · exact hcovered hn

theorem turn (h : Peaked reached l (t :: others)) (hturn : Turn l t t' l') :
    Peaked (insert l'.active reached) l' (t' :: others) := by
  cases hturn with
  | count path => exact h.count path
  | keep path now => exact h.keep path now
  | leave path => exact h.pass rfl rfl (Nat.sub_le _ _) rfl
  | _ => exact h.pass rfl rfl (Nat.le_refl _) rfl

/-- With nobody about to raise it, the peak is the greatest number that was reached. -/
theorem isGreatest (h : Peaked reached l tenures) (hnone : ∀ t ∈ tenures, t.told? = none) :
    IsGreatest reached l.peak := by
  refine ⟨h.peak, fun n hn => (h.covered n hn).resolve_right ?_⟩
  rintro ⟨t, ht, m, hm, -⟩
  rw [hnone t ht] at hm
  cases hm

end Peaked

end Tenure

/-! ### Many holders -/

structure Yard (σ : Type) where
  site : Site σ
  tenures : List Tenure
  /-- Who gave a directory back, each time that the ledger counted a return. -/
  returned : List Nat

namespace Yard

/-- A holder takes its next step, or the outside changes by itself. -/
inductive Act (σ : Type) where
  | move (holder : Nat)
  | drift (world : σ)

/-- The yard before anybody asks for a directory. -/
def opening (labels : List String) (world : σ) : Yard σ :=
  ⟨⟨world, .empty⟩, labels.map .away, []⟩

def move (lab : Lab σ) (y : Yard σ) (i : Nat) : Yard σ :=
  match y.tenures[i]? with
  | none => y
  | some t =>
    { site := (Tenure.advance lab (t, y.site)).2
      tenures := y.tenures.set i (Tenure.advance lab (t, y.site)).1
      returned := if t.leaves then i :: y.returned else y.returned }

def step (lab : Lab σ) (y : Yard σ) : Act σ → Yard σ
  | .move i => y.move lab i
  | .drift w => { y with site.world := w }

def run (lab : Lab σ) (y : Yard σ) (acts : List (Act σ)) : Yard σ :=
  acts.foldl (step lab) y

section Run

variable {lab : Lab σ} {y : Yard σ} {i : Nat} {t : Tenure}

/-- A holder can be told from the others. -/
theorem exists_others (h : y.tenures[i]? = some t) : ∃ others, y.tenures.Perm (t :: others) ∧
    ∀ t', (y.tenures.set i t').Perm (t' :: others) := by
  obtain ⟨hlt, hget⟩ := List.getElem?_eq_some_iff.mp h
  have hset (t' : Tenure) : (y.tenures.set i t').Perm
      (t' :: (y.tenures.take i ++ y.tenures.drop (i + 1))) := by
    rw [List.set_eq_take_append_cons_drop, if_pos hlt]
    exact List.perm_middle
  refine ⟨_, ?_, hset⟩
  have hnow := hset t
  rwa [show y.tenures.set i t = y.tenures from hget ▸ List.set_getElem_self hlt] at hnow

theorem move_eq (lab : Lab σ) (h : y.tenures[i]? = some t) :
    y.move lab i =
      ⟨(Tenure.advance lab (t, y.site)).2, y.tenures.set i (Tenure.advance lab (t, y.site)).1,
        if t.leaves then i :: y.returned else y.returned⟩ := by
  rw [move, h]

/-- The ledger counts the directories in use, and each return once. -/
structure Counted (y : Yard σ) : Prop where
  active : y.site.ledger.active = y.tenures.countP (·.inUse)
  distinct : y.returned.Nodup
  returned : ∀ i, i ∈ y.returned ↔ ∃ t, y.tenures[i]? = some t ∧ t.isReturned = true

theorem counted_opening (labels : List String) (world : σ) : Counted (opening labels world) where
  active := by
    have hnone : (labels.map Tenure.away).countP (·.inUse) = 0 := by
      simp [List.countP_eq_zero, Tenure.inUse]
    exact hnone.symm
  distinct := List.nodup_nil
  returned i := by
    simp only [opening, List.not_mem_nil, List.getElem?_map, Option.map_eq_some_iff, false_iff]
    rintro ⟨t, ⟨label, -, rfl⟩, h⟩
    cases h

theorem Counted.step (h : Counted y) (a : Act σ) : Counted (y.step lab a) := by
  cases a with
  | drift w => exact ⟨h.active, h.distinct, h.returned⟩
  | move i =>
      show Counted (y.move lab i)
      cases ht : y.tenures[i]? with
      | none =>
          rw [move, ht]
          exact h
      | some t =>
          have hturn := Tenure.turn_advance lab t y.site
          obtain ⟨others, hperm, hset⟩ := exists_others ht
          obtain ⟨hlt, -⟩ := List.getElem?_eq_some_iff.mp ht
          have hreturned (j : Nat) :
              (∃ u, (y.tenures.set i (Tenure.advance lab (t, y.site)).1)[j]? = some u ∧
                u.isReturned = true) ↔ (j = i ∧ t.leaves = true) ∨ j ∈ y.returned := by
            rw [h.returned, List.getElem?_set]
            by_cases hj : i = j
            · subst hj
              rw [ht]
              simp [hlt, hturn.isReturned_eq, or_comm]
            · simp [hj, Ne.symm hj]
          rw [move_eq lab ht]
          constructor
          case active =>
              rw [(hset _).countP_eq]
              exact hturn.countP_inUse (h.active.trans (hperm.countP_eq _))
          case distinct =>
              cases hleaves : t.leaves with
              | false => exact h.distinct
              | true =>
                  refine List.nodup_cons.mpr ⟨fun hmem => ?_, h.distinct⟩
                  obtain ⟨u, hu, hback⟩ := (h.returned i).mp hmem
                  rw [ht] at hu
                  cases hu
                  cases t <;> simp_all [Tenure.leaves, Tenure.isReturned]
          case returned =>
              intro j
              rw [hreturned]
              cases hleaves : t.leaves <;> simp

theorem Counted.run (h : Counted y) (acts : List (Act σ)) : Counted (y.run lab acts) := by
  induction acts generalizing y with
  | nil => exact h
  | cons a acts ih => exact ih (h.step a)

/-- The numbers in use after each act so far. -/
def reached (lab : Lab σ) (y : Yard σ) (acts : List (Act σ)) : Set Nat :=
  {n | ∃ before, before <+: acts ∧ (y.run lab before).site.ledger.active = n}

theorem reached_concat (lab : Lab σ) (y : Yard σ) (acts : List (Act σ)) (a : Act σ) :
    y.reached lab (acts ++ [a]) =
      insert (y.run lab (acts ++ [a])).site.ledger.active (y.reached lab acts) := by
  ext n
  simp only [reached, List.prefix_concat_iff, Set.mem_insert_iff, Set.mem_ofPred_eq]
  constructor
  · rintro ⟨before, rfl | hbefore, rfl⟩
    · exact .inl rfl
    · exact .inr ⟨before, hbefore, rfl⟩
  · rintro (rfl | ⟨before, hbefore, rfl⟩)
    · exact ⟨_, .inl rfl, rfl⟩
    · exact ⟨before, .inr hbefore, rfl⟩

theorem peaked_step {numbers : Set Nat}
    (h : Tenure.Peaked numbers y.site.ledger y.tenures) (a : Act σ) :
    Tenure.Peaked (insert (y.step lab a).site.ledger.active numbers) (y.step lab a).site.ledger
      (y.step lab a).tenures := by
  have hstay : Tenure.Peaked (insert y.site.ledger.active numbers) y.site.ledger y.tenures := by
    rwa [Set.insert_eq_of_mem h.active]
  cases a with
  | drift w => exact hstay
  | move i =>
      show Tenure.Peaked (insert (y.move lab i).site.ledger.active numbers)
        (y.move lab i).site.ledger (y.move lab i).tenures
      cases ht : y.tenures[i]? with
      | none =>
          rw [move, ht]
          exact hstay
      | some t =>
          obtain ⟨others, hperm, hset⟩ := exists_others ht
          rw [move_eq lab ht]
          exact ((h.perm hperm).turn (Tenure.turn_advance lab t y.site)).perm (hset _).symm

theorem peaked_run (lab : Lab σ) (labels : List String) (world : σ) (acts : List (Act σ)) :
    Tenure.Peaked ((opening labels world).reached lab acts)
      ((opening labels world).run lab acts).site.ledger
      ((opening labels world).run lab acts).tenures := by
  induction acts using List.reverseRecOn with
  | nil =>
      constructor
      case active => exact ⟨[], List.prefix_refl _, rfl⟩
      case peak => exact ⟨[], List.prefix_refl _, rfl⟩
      case told =>
          intro t ht n hn
          obtain ⟨label, -, rfl⟩ := List.mem_map.mp ht
          cases hn
      case covered =>
          rintro n ⟨before, hbefore, rfl⟩
          rw [List.prefix_nil.mp hbefore]
          exact .inl (Nat.le_refl _)
  | append_singleton acts a ih =>
      have hlast : (opening labels world).run lab (acts ++ [a]) =
          ((opening labels world).run lab acts).step lab a := by
        rw [run, List.foldl_append]
        rfl
      rw [reached_concat, hlast]
      exact peaked_step ih a

/-- Whatever the interleaving, the ledger tells how many directories are in use, and the return of
each is counted once, however often it is given back and whether or not its removal succeeds. While
nobody is about to raise the peak, it is the greatest number that was ever in use. -/
theorem run_counts (lab : Lab σ) (labels : List String) (world : σ) (acts : List (Act σ)) :
    let y := (opening labels world).run lab acts
    y.site.ledger.active = y.tenures.countP (·.inUse) ∧
      y.returned.Nodup ∧
      (∀ i, i ∈ y.returned ↔ ∃ t, y.tenures[i]? = some t ∧ t.isReturned = true) ∧
      ((∀ t ∈ y.tenures, t.told? = none) →
        IsGreatest ((opening labels world).reached lab acts) y.site.ledger.peak) := by
  have hcounted : Counted ((opening labels world).run lab acts) :=
    (counted_opening labels world).run acts
  exact ⟨hcounted.active, hcounted.distinct, hcounted.returned,
    (peaked_run lab labels world acts).isGreatest⟩

end Run

end Yard

end Culprit
