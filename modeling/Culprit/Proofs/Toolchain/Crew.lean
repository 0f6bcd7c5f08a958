import Culprit.Proofs.Survey.Pool
import Culprit.Proofs.Toolchain.Compiling
import Mathlib.Algebra.Order.BigOperators.Group.List
import Mathlib.Algebra.Order.Ring.Nat
import Mathlib.Data.List.Range
import Mathlib.Logic.Relation

/-!
Workers that compile side by side. A worker looks whether a failure is flagged, then whether there
is a request to stop, takes the number of the next job and compiles it. When that fails, it flags
the failure, and then leaves its error unless there is one already. Between any two of these moments
the others may do anything, and the request to stop may come. What the tools answer is left open,
so a job may fail or not.
-/

namespace Culprit.Toolchain

/-- How far a worker is in its round. -/
inductive Hand where
  | idle
  /-- Saw no failure flagged. -/
  | unwarned
  /-- Saw no request to stop either. -/
  | cleared
  | busy (job : Nat)
  /-- Its job failed. -/
  | failing (e : Error)
  /-- The failure is flagged. -/
  | reporting (e : Error)
  | gone

namespace Hand

/-- The worker once its job has ended. -/
def after : Except Error Unit → Hand
  | .ok () => .idle
  | .error e => .failing e

def job? : Hand → Option Nat
  | .busy k => some k
  | _ => none

/-- The worker has an error to leave. -/
def telling : Hand → Bool
  | .failing _ | .reporting _ => true
  | _ => false

end Hand

inductive Event where
  /-- A worker looked whether a failure is flagged. -/
  | checked (worker : Nat)
  | started (worker job : Nat)
  | ended (worker job : Nat) (calls : List Exchange) (result : Except Error Unit)
  | flagged (worker : Nat)

namespace Event

def start? : Event → Option Nat
  | .started _ k => some k
  | _ => none

def end? : Event → Option Nat
  | .ended _ k _ _ => some k
  | _ => none

end Event

structure Crew where
  /-- The number of the next job. -/
  next : Nat
  flagged : Bool
  first? : Option Error
  cancelled : Bool
  hands : List Hand
  history : List Event

namespace Crew

def start (workers : Nat) : Crew :=
  ⟨0, false, none, false, List.replicate workers .idle, []⟩

def move (c : Crew) (u : Nat) (x : Hand) (es : List Event) : Crew :=
  { c with hands := c.hands.set u x, history := c.history ++ es }

/-- All workers are gone. -/
def Over (c : Crew) : Prop :=
  ∀ x ∈ c.hands, x = .gone

/-- What the compilation comes to when all workers are gone. -/
def verdict (c : Crew) : Except Error Unit :=
  Toolchain.verdict (c.first?.toList.map .error) c.cancelled

end Crew

/-- One moment of the round of a worker: what becomes of the shared state and of the worker, and
what there is to note. -/
inductive Turn (s : Settings) (jobs : List CompileJob) (c : Crew) (u : Nat) :
    Hand → Crew → Hand → List Event → Prop
  | check : Turn s jobs c u .idle c (if c.flagged then .gone else .unwarned) [.checked u]
  | ask : Turn s jobs c u .unwarned c (if c.cancelled then .gone else .cleared) []
  | start (h : c.next < jobs.length) :
      Turn s jobs c u .cleared { c with next := c.next + 1 } (.busy c.next) [.started u c.next]
  | leave (h : jobs.length ≤ c.next) :
      Turn s jobs c u .cleared { c with next := c.next + 1 } .gone []
  | finish {k : Nat} {job : CompileJob} {calls : List Exchange} {r : Except Error Unit}
      (hjob : jobs[k]? = some job) (hcalls : Compiles s job calls r) :
      Turn s jobs c u (.busy k) c (.after r) [.ended u k calls r]
  | flag {e : Error} :
      Turn s jobs c u (.failing e) { c with flagged := true } (.reporting e) [.flagged u]
  | report {e : Error} :
      Turn s jobs c u (.reporting e) { c with first? := some (c.first?.getD e) } .gone []

/-- The request to stop comes, or some worker has its turn. -/
inductive Step (s : Settings) (jobs : List CompileJob) (c : Crew) : Crew → Prop
  | cancel (h : c.cancelled = false) : Step s jobs c { c with cancelled := true }
  | turn {u : Nat} {x y : Hand} {c' : Crew} {es : List Event} (hu : c.hands[u]? = some x)
      (h : Turn s jobs c u x c' y es) : Step s jobs c (c'.move u y es)

/-- Any number of steps in any order. -/
abbrev Steps (s : Settings) (jobs : List CompileJob) : Crew → Crew → Prop :=
  Relation.ReflTransGen (Step s jobs)

/-! ### One worker among the others -/

theorem exists_perm_set {α : Type} {l : List α} {u : Nat} {x : α} (h : l[u]? = some x) :
    ∃ others, l.Perm (x :: others) ∧ ∀ y, (l.set u y).Perm (y :: others) := by
  obtain ⟨hlt, hx⟩ := List.getElem?_eq_some_iff.mp h
  have hset (y : α) : (l.set u y).Perm (y :: (l.take u ++ l.drop (u + 1))) := by
    rw [List.set_eq_take_append_cons_drop, if_pos hlt]
    exact List.perm_middle
  refine ⟨_, ?_, hset⟩
  have hself : l.set u x = l := hx ▸ List.set_getElem_self hlt
  have hnow := hset x
  rwa [hself] at hnow

/-- What is moved from one place to another is still there. -/
theorem perm_books {ended more before after taken new others now next : List Nat}
    (hmove : (more ++ after).Perm (before ++ new)) (hnow : now.Perm (before ++ others))
    (hnext : next.Perm (after ++ others)) (htaken : (ended ++ now).Perm taken) :
    (ended ++ more ++ next).Perm (taken ++ new) := by
  rw [List.perm_iff_count] at hmove hnow hnext htaken ⊢
  simp only [List.count_append] at hmove hnow hnext htaken ⊢
  intro k
  have hmoved := hmove k
  have hbefore := hnow k
  have hafter := hnext k
  have hall := htaken k
  omega

theorem filterMap_cons_toList {α β : Type} (f : α → Option β) (a : α) (l : List α) :
    (a :: l).filterMap f = (f a).toList ++ l.filterMap f := by
  rw [List.filterMap_cons]
  cases f a <;> rfl

section Turn

variable {s : Settings} {jobs : List CompileJob} {c c' : Crew} {u : Nat} {x y : Hand}
  {es : List Event}

theorem getElem?_move (hu : c.hands[u]? = some x) (v : Nat) :
    (c.move u y es).hands[v]? = if v = u then some y else c.hands[v]? := by
  obtain ⟨hlt, -⟩ := List.getElem?_eq_some_iff.mp hu
  show (c.hands.set u y)[v]? = _
  rw [List.getElem?_set]
  split_ifs with huv hvu hvu
  · rfl
  · exact absurd huv.symm hvu
  · exact absurd hvu.symm huv
  · rfl

/-- What a turn leaves as it is, and what it can only add. -/
structure Turn.Shared (c c' : Crew) : Prop where
  hands : c'.hands = c.hands
  history : c'.history = c.history
  cancelled : c'.cancelled = c.cancelled
  next : c.next ≤ c'.next
  flagged : c.flagged = true → c'.flagged = true
  first : c.first?.isSome = true → c'.first?.isSome = true

theorem Turn.shared (h : Turn s jobs c u x c' y es) : Turn.Shared c c' := by
  cases h with
  | flag => exact ⟨rfl, rfl, rfl, Nat.le_refl _, fun _ => rfl, id⟩
  | report => exact ⟨rfl, rfl, rfl, Nat.le_refl _, id, fun _ => rfl⟩
  | _ => exact ⟨rfl, rfl, rfl, by simp, id, id⟩

theorem Turn.history_move (h : Turn s jobs c u x c' y es) :
    (c'.move u y es).history = c.history ++ es :=
  congrArg (· ++ es) h.shared.history

theorem Turn.getElem?_move (h : Turn s jobs c u x c' y es) (hu : c.hands[u]? = some x) (v : Nat) :
    (c'.move u y es).hands[v]? = if v = u then some y else c.hands[v]? := by
  rw [← h.shared.hands]
  exact Toolchain.getElem?_move (h.shared.hands ▸ hu) v

/-! ### The books -/

/-- How far a worker is, in terms of what the crew has seen. -/
def Hand.Fits (jobs : List CompileJob) (c : Crew) (u : Nat) : Hand → Prop
  | .failing e => ∃ k calls, .ended u k calls (.error e) ∈ c.history
  | .reporting e => (∃ k calls, .ended u k calls (.error e) ∈ c.history) ∧ c.flagged = true
  | .gone => jobs.length ≤ c.next ∨ c.flagged = true ∨ c.cancelled = true
  | _ => True

/-- Every number is taken once, the jobs that were taken have ended or are in hand, and a failure is
on its way until there is a first error. -/
structure Sound (s : Settings) (jobs : List CompileJob) (workers : Nat) (c : Crew) : Prop where
  crew : c.hands.length = workers
  started : c.history.filterMap Event.start? = List.range (min c.next jobs.length)
  taken : (c.history.filterMap Event.end? ++ c.hands.filterMap Hand.job?).Perm
    (List.range (min c.next jobs.length))
  ended {u k : Nat} {calls : List Exchange} {r : Except Error Unit} :
    .ended u k calls r ∈ c.history → ∃ job, jobs[k]? = some job ∧ Compiles s job calls r
  fits {u : Nat} {x : Hand} : c.hands[u]? = some x → x.Fits jobs c u
  first {e : Error} : c.first? = some e → ∃ u k calls, .ended u k calls (.error e) ∈ c.history
  told {u k : Nat} {calls : List Exchange} {e : Error} :
    .ended u k calls (.error e) ∈ c.history →
      c.first?.isSome = true ∨ ∃ x, c.hands[u]? = some x ∧ x.telling = true
  blamed : c.flagged = true → ∃ u k calls e, .ended u k calls (.error e) ∈ c.history

variable {n : Nat}

theorem sound_start (s : Settings) (jobs : List CompileJob) (n : Nat) :
    Sound s jobs n (.start n) where
  crew := List.length_replicate
  started := by simp [Crew.start]
  taken := by
    have hnone : (List.replicate n Hand.idle).filterMap Hand.job? = [] :=
      List.filterMap_eq_nil_iff.mpr fun x hx => (List.mem_replicate.mp hx).2 ▸ rfl
    simp [Crew.start, hnone]
  ended h := absurd h List.not_mem_nil
  fits {u x} h := by
    have hidle : x = .idle := (List.mem_replicate.mp (List.mem_of_getElem? h)).2
    rw [hidle]
    trivial
  first h := by cases h
  told h := absurd h List.not_mem_nil
  blamed h := by cases h

/-- What fits a worker goes on fitting it while only the others move. -/
theorem Hand.Fits.mono {c₁ : Crew} (hshared : Turn.Shared c c') (hhistory : c.history ⊆ c₁.history)
    (hrest : c'.next = c₁.next ∧ c'.flagged = c₁.flagged ∧ c'.cancelled = c₁.cancelled)
    (h : x.Fits jobs c u) : x.Fits jobs c₁ u := by
  obtain ⟨hnext, hflagged, hcancelled⟩ := hrest
  cases x with
  | failing e =>
      obtain ⟨k, calls, hended⟩ := h
      exact ⟨k, calls, hhistory hended⟩
  | reporting e =>
      obtain ⟨⟨k, calls, hended⟩, hflag⟩ := h
      exact ⟨⟨k, calls, hhistory hended⟩, hflagged ▸ hshared.flagged hflag⟩
  | gone =>
      rcases h with hend | hflag | hstop
      · exact .inl (hend.trans (hnext ▸ hshared.next))
      · exact .inr (.inl (hflagged ▸ hshared.flagged hflag))
      · exact .inr (.inr (hcancelled ▸ hshared.cancelled ▸ hstop))
  | _ => trivial

theorem Sound.cancel (h : Sound s jobs n c) : Sound s jobs n { c with cancelled := true } where
  crew := h.crew
  started := h.started
  taken := h.taken
  ended := h.ended
  fits {u x} hu := by
    have hfits := h.fits hu
    cases x with
    | gone => exact .inr (.inr rfl)
    | _ => exact hfits
  first := h.first
  told := h.told
  blamed := h.blamed

/-- The numbers that a turn takes are the next ones; a job that it takes is in hand, and one that it
ends is no longer. -/
theorem Turn.books (h : Turn s jobs c u x c' y es) :
    List.range (min c'.next jobs.length) =
      List.range (min c.next jobs.length) ++ es.filterMap Event.start? ∧
    (es.filterMap Event.end? ++ y.job?.toList).Perm
      (x.job?.toList ++ es.filterMap Event.start?) := by
  cases h with
  | check =>
      refine ⟨by simp [Event.start?], ?_⟩
      cases c.flagged <;> exact .nil
  | ask =>
      refine ⟨by simp, ?_⟩
      cases c.cancelled <;> exact .nil
  | start hlt =>
      refine ⟨?_, .refl _⟩
      rw [min_eq_left (Nat.succ_le_of_lt hlt), min_eq_left hlt.le, List.range_succ]
      rfl
  | leave hend =>
      refine ⟨?_, .nil⟩
      rw [min_eq_right (Nat.le_succ_of_le hend), min_eq_right hend]
      exact (List.append_nil _).symm
  | @finish k job calls r hjob hcalls =>
      refine ⟨by simp [Event.start?], ?_⟩
      cases r <;> exact .refl _
  | flag => exact ⟨by simp [Event.start?], .nil⟩
  | report => exact ⟨by simp, .nil⟩

theorem Turn.fits (h : Turn s jobs c u x c' y es) (hx : x.Fits jobs c u) :
    y.Fits jobs (c'.move u y es) u := by
  have hhistory := h.shared.history
  cases h with
  | check =>
      cases hflagged : c.flagged with
      | true => exact .inr (.inl hflagged)
      | false => trivial
  | ask =>
      cases hcancelled : c.cancelled with
      | true => exact .inr (.inr hcancelled)
      | false => trivial
  | start => trivial
  | leave hend => exact .inl (Nat.le_succ_of_le hend)
  | @finish k job calls r hjob hcalls =>
      rcases r with e | ⟨⟩
      · exact ⟨k, calls, List.mem_append_right _ (List.mem_singleton_self _)⟩
      · trivial
  | flag =>
      obtain ⟨k, calls, hended⟩ := hx
      exact ⟨⟨k, calls, List.mem_append_left _ hended⟩, rfl⟩
  | report => exact .inr (.inl hx.2)

theorem Turn.ended {v k : Nat} {calls : List Exchange} {r : Except Error Unit}
    (h : Turn s jobs c u x c' y es) (hmem : .ended v k calls r ∈ es) :
    v = u ∧ y = .after r ∧ ∃ job, jobs[k]? = some job ∧ Compiles s job calls r := by
  cases h with
  | finish hjob hcalls =>
      obtain ⟨rfl, rfl, rfl, rfl⟩ := Event.ended.inj (List.mem_singleton.mp hmem)
      exact ⟨rfl, rfl, _, hjob, hcalls⟩
  | _ => simp at hmem

/-- An error to leave stays one until there is a first error. -/
theorem Turn.telling (h : Turn s jobs c u x c' y es) (hx : x.telling = true) :
    c'.first?.isSome = true ∨ y.telling = true := by
  cases h with
  | flag => exact .inr rfl
  | report => exact .inl rfl
  | _ => cases hx

theorem Turn.first {e : Error} (h : Turn s jobs c u x c' y es) (hfirst : c'.first? = some e) :
    c.first? = some e ∨ x = .reporting e := by
  cases h with
  | @report e' =>
      replace hfirst : some (c.first?.getD e') = some e := hfirst
      cases hold : c.first? with
      | some e'' =>
          rw [hold] at hfirst
          exact .inl hfirst
      | none =>
          rw [hold] at hfirst
          exact .inr (congrArg Hand.reporting (Option.some.inj hfirst))
  | _ => exact .inl hfirst

theorem Turn.blames (h : Turn s jobs c u x c' y es) (hflagged : c'.flagged = true) :
    c.flagged = true ∨ ∃ e, x = .failing e := by
  cases h with
  | flag => exact .inr ⟨_, rfl⟩
  | _ => exact .inl hflagged

/-- Who has failed leaves an error, or is about to. -/
theorem Sound.told_move (h : Sound s jobs n c) (hu : c.hands[u]? = some x)
    (hturn : Turn s jobs c u x c' y es) {v k : Nat} {calls : List Exchange} {e : Error}
    (he : .ended v k calls (.error e) ∈ (c'.move u y es).history) :
    c'.first?.isSome = true ∨
      ∃ z, (c'.move u y es).hands[v]? = some z ∧ z.telling = true := by
  have hget := hturn.getElem?_move hu
  rw [hturn.history_move] at he
  rcases List.mem_append.mp he with he | he
  · rcases h.told he with hfirst | ⟨z, hz, htelling⟩
    · exact .inl (hturn.shared.first hfirst)
    · by_cases hv : v = u
      · subst hv
        obtain rfl := Option.some.inj (hz.symm.trans hu)
        exact (hturn.telling htelling).imp_right fun hy => ⟨y, by rw [hget, if_pos rfl], hy⟩
      · exact .inr ⟨z, by rw [hget, if_neg hv, hz], htelling⟩
  · obtain ⟨rfl, rfl, -⟩ := hturn.ended he
    exact .inr ⟨_, by rw [hget, if_pos rfl], rfl⟩

theorem Sound.turn (h : Sound s jobs n c) (hu : c.hands[u]? = some x)
    (hturn : Turn s jobs c u x c' y es) : Sound s jobs n (c'.move u y es) := by
  have hshared := hturn.shared
  have hold : c.history ⊆ (c'.move u y es).history := by
    rw [hturn.history_move]
    exact List.subset_append_left _ _
  constructor
  case crew =>
    show (c'.hands.set u y).length = n
    rw [hshared.hands, List.length_set, h.crew]
  case started =>
    show _ = List.range (min c'.next jobs.length)
    rw [hturn.history_move, List.filterMap_append, h.started, hturn.books.1]
  case taken =>
    obtain ⟨others, hbefore, hafter⟩ := exists_perm_set hu
    show (_ ++ (c'.hands.set u y).filterMap Hand.job?).Perm (List.range (min c'.next jobs.length))
    rw [hturn.history_move, hshared.hands, hturn.books.1, List.filterMap_append]
    have hnow := (hafter y).filterMap Hand.job?
    have hthen := hbefore.filterMap Hand.job?
    rw [filterMap_cons_toList] at hnow hthen
    exact perm_books hturn.books.2 hthen hnow h.taken
  case ended =>
    intro v k calls r he
    rw [hturn.history_move] at he
    rcases List.mem_append.mp he with he | he
    · exact h.ended he
    · exact (hturn.ended he).2.2
  case fits =>
    intro v z hz
    rw [hturn.getElem?_move hu] at hz
    split_ifs at hz with hv
    · subst hv
      obtain rfl := Option.some.inj hz
      exact hturn.fits (h.fits hu)
    · exact (h.fits hz).mono hshared hold ⟨rfl, rfl, rfl⟩
  case first =>
    intro e he
    rcases hturn.first he with he | rfl
    · obtain ⟨v, k, calls, hended⟩ := h.first he
      exact ⟨v, k, calls, hold hended⟩
    · obtain ⟨⟨k, calls, hended⟩, -⟩ := h.fits hu
      exact ⟨u, k, calls, hold hended⟩
  case told => exact fun he => h.told_move hu hturn he
  case blamed =>
    intro hflagged
    rcases hturn.blames hflagged with hflagged | ⟨e, rfl⟩
    · obtain ⟨v, k, calls, e, hended⟩ := h.blamed hflagged
      exact ⟨v, k, calls, e, hold hended⟩
    · obtain ⟨k, calls, hended⟩ := h.fits hu
      exact ⟨u, k, calls, e, hold hended⟩

theorem Sound.step (h : Sound s jobs n c) (hstep : Step s jobs c c') : Sound s jobs n c' := by
  cases hstep with
  | cancel => exact h.cancel
  | turn hu hturn => exact h.turn hu hturn

theorem sound_of_steps (h : Steps s jobs (.start n) c) : Sound s jobs n c := by
  induction h with
  | refl => exact sound_start s jobs n
  | tail _ hstep ih => exact ih.step hstep

/-! ### What a flag is for -/

theorem Turn.noted (h : Turn s jobs c u x c' y es) : es = [] ∨ ∃ e, es = [e] := by
  cases h with
  | ask => exact .inl rfl
  | leave => exact .inl rfl
  | report => exact .inl rfl
  | _ => exact .inr ⟨_, rfl⟩

theorem sublist_noted {α : Type} {es r : List α} (l : List α) (a : α)
    (hes : es = [] ∨ ∃ e, es = [e]) (h : (l ++ [a]).Sublist (r ++ es)) :
    (l ++ [a]).Sublist r ∨ es = [a] ∧ l.Sublist r := by
  rcases hes with rfl | ⟨b, rfl⟩
  · rw [List.append_nil] at h
    exact .inl h
  · rw [← List.reverse_sublist] at h
    simp only [List.reverse_append, List.reverse_singleton, List.singleton_append] at h
    rcases List.cons_sublist_cons'.mp h with hskip | ⟨rfl, htake⟩
    · refine .inl (List.reverse_sublist.mp ?_)
      rwa [List.reverse_append]
    · exact .inr ⟨rfl, List.reverse_sublist.mp htake⟩

/-- Who looks after a failure is flagged is gone from then on. -/
structure Warned (c : Crew) : Prop where
  flagged {v : Nat} : .flagged v ∈ c.history → c.flagged = true
  gone {u v : Nat} : [.flagged v, .checked u].Sublist c.history → c.hands[u]? = some .gone
  late {u v k : Nat} : ¬ [.flagged v, .checked u, .started u k].Sublist c.history

theorem warned_start (n : Nat) : Warned (.start n) where
  flagged h := absurd h List.not_mem_nil
  gone h := by cases h
  late h := by cases h

theorem Warned.turn (h : Warned c) (hu : c.hands[u]? = some x)
    (hturn : Turn s jobs c u x c' y es) : Warned (c'.move u y es) := by
  constructor
  case flagged =>
    intro v hv
    rw [hturn.history_move] at hv
    rcases List.mem_append.mp hv with hv | hv
    · exact hturn.shared.flagged (h.flagged hv)
    · cases hturn with
      | flag => rfl
      | _ => simp at hv
  case gone =>
    intro v w hsub
    rw [hturn.history_move] at hsub
    rw [hturn.getElem?_move hu]
    rcases sublist_noted [Event.flagged w] (.checked v) hturn.noted hsub with hold | ⟨rfl, hold⟩
    · have hgone := h.gone hold
      rw [if_neg]
      · exact hgone
      · rintro rfl
        obtain rfl := Option.some.inj (hu.symm.trans hgone)
        cases hturn
    · have hflagged := h.flagged (List.singleton_sublist.mp hold)
      cases hturn
      rw [if_pos rfl, if_pos hflagged]
  case late =>
    intro v w k hsub
    rw [hturn.history_move] at hsub
    rcases sublist_noted [Event.flagged w, .checked v] (.started v k) hturn.noted hsub with
      hold | ⟨rfl, hold⟩
    · exact h.late hold
    · have hgone := h.gone hold
      cases hturn
      cases hu.symm.trans hgone

theorem Warned.step (h : Warned c) (hstep : Step s jobs c c') : Warned c' := by
  cases hstep with
  | cancel => exact ⟨h.flagged, h.gone, h.late⟩
  | turn hu hturn => exact h.turn hu hturn

theorem warned_of_steps (h : Steps s jobs (.start n) c) : Warned c := by
  induction h with
  | refl => exact warned_start n
  | tail _ hstep ih => exact ih.step hstep

/-! ### Coming to an end -/

/-- An upper bound of the moments that a worker still has while `left` jobs are left. -/
def Hand.rank (left : Nat) : Hand → Nat
  | .idle => 4 * left + 3
  | .unwarned => 4 * left + 2
  | .cleared => 4 * left + 1
  | .busy _ => 4 * left + 4
  | .failing _ => 2
  | .reporting _ => 1
  | .gone => 0

theorem Hand.rank_mono {left left' : Nat} (h : left ≤ left') (x : Hand) :
    x.rank left ≤ x.rank left' := by
  cases x <;> simp only [rank] <;> omega

theorem Turn.rank_lt (h : Turn s jobs c u x c' y es) :
    y.rank (jobs.length - c'.next) < x.rank (jobs.length - c.next) := by
  cases h with
  | check => cases c.flagged <;> simp [Hand.rank]
  | ask => cases c.cancelled <;> simp [Hand.rank]
  | start hlt =>
      simp only [Hand.rank]
      omega
  | leave => exact Nat.succ_pos _
  | @finish k job calls r => rcases r with e | ⟨⟩ <;> simp [Hand.after, Hand.rank]
  | flag => exact Nat.lt_succ_self 1
  | report => exact Nat.succ_pos 0

/-- An upper bound of the steps that are still to come. -/
def Crew.rank (jobs : List CompileJob) (c : Crew) : Nat :=
  (c.hands.map (Hand.rank (jobs.length - c.next))).sum + if c.cancelled then 0 else 1

theorem Step.rank_lt (h : Step s jobs c c') : c'.rank jobs < c.rank jobs := by
  cases h with
  | cancel hnot => simp [Crew.rank, hnot]
  | @turn u x y c' es hu hturn =>
      obtain ⟨others, hbefore, hafter⟩ := exists_perm_set hu
      have hless := hturn.rank_lt
      have hshared := hturn.shared
      have hothers : (others.map (Hand.rank (jobs.length - c'.next))).sum ≤
          (others.map (Hand.rank (jobs.length - c.next))).sum :=
        List.sum_le_sum fun z _ => z.rank_mono (Nat.sub_le_sub_left hshared.next _)
      show ((c'.hands.set u y).map (Hand.rank (jobs.length - c'.next))).sum +
        (if c'.cancelled then 0 else 1) < _
      rw [hshared.hands, hshared.cancelled, ((hafter y).map _).sum_eq, Crew.rank,
        (hbefore.map _).sum_eq, List.map_cons, List.map_cons, List.sum_cons, List.sum_cons]
      omega

theorem wellFounded_step (s : Settings) (jobs : List CompileJob) :
    WellFounded fun c' c => Step s jobs c c' :=
  Subrelation.wf (fun h => h.rank_lt) (InvImage.wf (Crew.rank jobs) wellFounded_lt)

/-- A worker that is not gone has its turn, whatever the others do. -/
theorem Sound.exists_turn (h : Sound s jobs n c) (hu : c.hands[u]? = some x) (hx : x ≠ .gone) :
    ∃ c' y es, Turn s jobs c u x c' y es := by
  cases x with
  | idle => exact ⟨_, _, _, .check⟩
  | unwarned => exact ⟨_, _, _, .ask⟩
  | cleared =>
      rcases Nat.lt_or_ge c.next jobs.length with hlt | hge
      · exact ⟨_, _, _, .start hlt⟩
      · exact ⟨_, _, _, .leave hge⟩
  | busy k =>
      have hbusy : k ∈ c.hands.filterMap Hand.job? :=
        List.mem_filterMap.mpr ⟨_, List.mem_of_getElem? hu, rfl⟩
      have hk := List.mem_range.mp (h.taken.mem_iff.mp (List.mem_append_right _ hbusy))
      have hjob := List.getElem?_eq_getElem (Nat.lt_of_lt_of_le hk (min_le_right _ _))
      exact ⟨_, _, _, .finish hjob (.refused (.unstarted (.build .cancelled)))⟩
  | failing e => exact ⟨_, _, _, .flag⟩
  | reporting e => exact ⟨_, _, _, .report⟩
  | gone => exact absurd rfl hx

end Turn

/-! ### What it comes to -/

namespace Crew

/-- Every job was compiled once, and well. -/
def Complete (jobs : List CompileJob) (c : Crew) : Prop :=
  (c.history.filterMap Event.end?).Perm (List.range jobs.length) ∧
    ∀ u k calls r, .ended u k calls r ∈ c.history → r = .ok ()

theorem verdict_eq_ok_iff {c : Crew} :
    c.verdict = .ok () ↔ c.first? = none ∧ c.cancelled = false := by
  obtain ⟨next, flagged, first?, cancelled, hands, history⟩ := c
  cases first? <;> cases cancelled <;> simp [verdict, Toolchain.verdict, failed]

theorem verdict_eq_error_iff {c : Crew} {e : Error} :
    c.verdict = .error e ↔
      c.first? = some e ∨ c.first? = none ∧ c.cancelled = true ∧ e = .build .cancelled := by
  obtain ⟨next, flagged, first?, cancelled, hands, history⟩ := c
  cases first? <;> cases cancelled <;> simp [verdict, Toolchain.verdict, failed, eq_comm]

end Crew

section Over

variable {s : Settings} {jobs : List CompileJob} {c : Crew} {n : Nat}

theorem Crew.Over.hand {u : Nat} {x : Hand} (h : c.Over) (hu : c.hands[u]? = some x) : x = .gone :=
  h x (List.mem_of_getElem? hu)

/-- When all are gone, no failure is left untold. -/
theorem Sound.first?_eq_none_iff (h : Sound s jobs n c) (hover : c.Over) :
    c.first? = none ↔ ∀ u k calls r, .ended u k calls r ∈ c.history → r = .ok () := by
  constructor
  · intro hfirst u k calls r hended
    rcases r with e | ⟨⟩
    · rcases h.told hended with htold | ⟨x, hx, htelling⟩
      · rw [hfirst] at htold
        cases htold
      · rw [hover.hand hx] at htelling
        cases htelling
    · rfl
  · intro hall
    rcases hfirst : c.first? with _ | e
    · rfl
    · obtain ⟨u, k, calls, hended⟩ := h.first hfirst
      cases hall _ _ _ _ hended

theorem Sound.perm_ended (h : Sound s jobs n c) (hn : 0 < n) (hover : c.Over)
    (hfirst : c.first? = none) (hcancelled : c.cancelled = false) :
    (c.history.filterMap Event.end?).Perm (List.range jobs.length) := by
  have hidle : c.hands.filterMap Hand.job? = [] :=
    List.filterMap_eq_nil_iff.mpr fun x hx => hover x hx ▸ rfl
  have hhand : c.hands[0]? = some .gone := by
    have hlt : 0 < c.hands.length := h.crew.symm ▸ hn
    rw [List.getElem?_eq_getElem hlt, hover _ (List.getElem_mem hlt)]
  have hend : jobs.length ≤ c.next := by
    rcases h.fits hhand with hend | hflagged | hstopped
    · exact hend
    · obtain ⟨u, k, calls, e, hended⟩ := h.blamed hflagged
      cases (h.first?_eq_none_iff hover).mp hfirst _ _ _ _ hended
    · cases hcancelled.symm.trans hstopped
  have htaken := h.taken
  rwa [hidle, List.append_nil, min_eq_right hend] at htaken

theorem Sound.verdict_eq_ok_iff (h : Sound s jobs n c) (hn : 0 < n) (hover : c.Over) :
    c.verdict = .ok () ↔ c.Complete jobs ∧ c.cancelled = false := by
  rw [Crew.verdict_eq_ok_iff]
  constructor
  · rintro ⟨hfirst, hcancelled⟩
    exact ⟨⟨h.perm_ended hn hover hfirst hcancelled, (h.first?_eq_none_iff hover).mp hfirst⟩,
      hcancelled⟩
  · rintro ⟨⟨-, hall⟩, hcancelled⟩
    exact ⟨(h.first?_eq_none_iff hover).mpr hall, hcancelled⟩

theorem Sound.of_verdict_eq_error {e : Error} (h : Sound s jobs n c) (hover : c.Over)
    (herror : c.verdict = .error e) :
    (∃ u k calls, .ended u k calls (.error e) ∈ c.history) ∨
      e = .build .cancelled ∧ c.cancelled = true ∧
        ∀ u k calls r, .ended u k calls r ∈ c.history → r = .ok () := by
  rcases Crew.verdict_eq_error_iff.mp herror with hfirst | ⟨hfirst, hcancelled, rfl⟩
  · exact .inl (h.first hfirst)
  · exact .inr ⟨rfl, hcancelled, (h.first?_eq_none_iff hover).mp hfirst⟩

end Over

end Culprit.Toolchain
