import Culprit.Pool
import Mathlib.Data.List.Forall2
import Mathlib.Data.List.Induction
import Mathlib.Tactic.Common

/-!
Workers of a pool that nothing stops, in every interleaving of their steps. The jobs taken so far
are the results handed in and the jobs in hand; a worker that gets enough turns comes to its end,
and when all have, there is one result for each job. Pools whose work agrees stay in step.
-/

namespace Culprit

variable {ι τ ρ : Type}

/-- Nothing stops the pool. -/
structure Shift.Steadfast (s : Shift ι τ ρ) : Prop where
  stop (t : τ) : s.stop t = (false, t)
  fails (r : ρ) : s.fails r = false

/-- Every result tells the job that it is of. -/
def Shift.Labelled (s : Shift ι τ ρ) (label : ρ → ι) : Prop :=
  ∀ job t, label (s.work job t).1 = job

namespace Worker

/-- The job that a worker has in hand, done or not. -/
def load (label : ρ → ι) : Worker ι ρ → Option ι
  | .working job => some job
  | .carrying r => some (label r)
  | _ => none

/-- An upper bound of the steps a worker can still take while `left` jobs are left. -/
def rank (left : Nat) : Worker ι ρ → Nat
  | .ready => 4 * left + 2
  | .cleared => 4 * left + 1
  | .working _ => 4 * left + 4
  | .carrying _ => 4 * left + 3
  | .gone => 0

theorem rank_mono {left left' : Nat} (h : left ≤ left') (x : Worker ι ρ) :
    x.rank left ≤ x.rank left' := by
  cases x <;> simp only [rank] <;> omega

theorem eq_gone_of_rank {left : Nat} {x : Worker ι ρ} (h : x.rank left = 0) : x = .gone := by
  cases x <;> simp_all [rank]

end Worker

namespace Pool

/-- What one worker does to the pool when its turn comes. -/
inductive Turn (s : Shift ι τ ρ) (jobs : List ι) (p : Pool ι τ ρ) (w : Nat) : Pool ι τ ρ → Prop
  | idle : p.workers[w]? = none ∨ p.workers[w]? = some .gone → Turn s jobs p w p
  | clear : p.workers[w]? = some .ready → Turn s jobs p w (p.setWorker w .cleared)
  | fetch {job : ι} : p.workers[w]? = some .cleared → jobs[p.next]? = some job →
      Turn s jobs p w ({ p with next := p.next + 1 }.setWorker w (.working job))
  | leave : p.workers[w]? = some .cleared → jobs.length ≤ p.next →
      Turn s jobs p w ({ p with next := p.next + 1 }.setWorker w .gone)
  | work {job : ι} {r : ρ} {t : τ} : p.workers[w]? = some (.working job) →
      s.work job p.state = (r, t) →
      Turn s jobs p w ({ p with state := t }.setWorker w (.carrying r))
  | handIn {r : ρ} : p.workers[w]? = some (.carrying r) →
      Turn s jobs p w ({ p with results := p.results ++ [r] }.setWorker w .ready)

variable {s : Shift ι τ ρ} {jobs : List ι} {p p' : Pool ι τ ρ} {w : Nat}

theorem look_eq (hs : s.Steadfast) (hfailed : p.failed = false) :
    p.look s w = p.setWorker w .cleared := by
  rw [look, if_neg (Bool.eq_false_iff.mp hfailed), hs.stop]
  rfl

theorem handIn_eq (hs : s.Steadfast) (r : ρ) :
    p.handIn s w r = { p with results := p.results ++ [r] }.setWorker w .ready := by
  rw [handIn, hs.fails, Bool.or_false]
  rfl

theorem turn_step (hs : s.Steadfast) (hfailed : p.failed = false) :
    Turn s jobs p w (step s jobs p w) := by
  rw [step]
  split
  · next hw => exact .idle (.inl hw)
  · next hw =>
      rw [look_eq hs hfailed]
      exact .clear hw
  · next hw =>
      rw [take]
      cases hjob : jobs[p.next]? with
      | some job => exact .fetch hw hjob
      | none => exact .leave hw (List.getElem?_eq_none_iff.mp hjob)
  · next job hw => exact .work hw rfl
  · next r hw =>
      rw [handIn_eq hs]
      exact .handIn hw
  · next hw => exact .idle (.inr hw)

theorem Turn.failed (h : Turn s jobs p w p') : p'.failed = p.failed := by
  cases h <;> rfl

theorem failed_run (hs : s.Steadfast) (schedule : List Nat) (hfailed : p.failed = false) :
    (run s jobs schedule p).failed = false := by
  induction schedule generalizing p with
  | nil => exact hfailed
  | cons w schedule ih => exact ih ((turn_step hs hfailed).failed.trans hfailed)

/-! ### Jobs in hand -/

/-- The jobs in progress. -/
def inProgress (label : ρ → ι) (p : Pool ι τ ρ) : List ι :=
  p.workers.filterMap (Worker.load label)

theorem length_inProgress_le (label : ρ → ι) (p : Pool ι τ ρ) :
    (p.inProgress label).length ≤ p.workers.length :=
  List.length_filterMap_le _ _

/-- A worker can be told from the others. -/
theorem exists_inProgress_set (label : ρ → ι) {x : Worker ι ρ} (h : p.workers[w]? = some x) :
    ∃ others, (p.inProgress label).Perm ((x.load label).toList ++ others) ∧
      ∀ y, ((p.setWorker w y).inProgress label).Perm ((y.load label).toList ++ others) := by
  obtain ⟨hlt, hx⟩ := List.getElem?_eq_some_iff.mp h
  have hset (y : Worker ι ρ) : ((p.workers.set w y).filterMap (Worker.load label)).Perm
      ((y.load label).toList ++
        (p.workers.take w ++ p.workers.drop (w + 1)).filterMap (Worker.load label)) := by
    rw [List.set_eq_take_append_cons_drop, if_pos hlt]
    refine (List.perm_middle.filterMap _).trans ?_
    rw [List.filterMap_cons]
    cases y.load label <;> rfl
  refine ⟨_, ?_, hset⟩
  have hself : p.workers.set w x = p.workers := hx ▸ List.set_getElem_self hlt
  have hnow := hset x
  rwa [hself] at hnow

theorem getElem?_setWorker {x y : Worker ι ρ} (h : p.workers[w]? = some x) (u : Nat) :
    (p.setWorker w y).workers[u]? = if u = w then some y else p.workers[u]? := by
  obtain ⟨hlt, -⟩ := List.getElem?_eq_some_iff.mp h
  rw [setWorker, List.getElem?_set]
  split_ifs with hwu huw huw
  · rfl
  · exact absurd hwu.symm huw
  · exact absurd huw.symm hwu
  · rfl

/-- The turn of one worker is nothing to the others. -/
theorem Turn.workers_other (h : Turn s jobs p w p') {u : Nat} (hu : u ≠ w) :
    p'.workers[u]? = p.workers[u]? := by
  cases h with
  | idle hw => rfl
  | clear hw => rw [getElem?_setWorker hw, if_neg hu]
  | fetch hw _ => exact (getElem?_setWorker (p := p) hw u).trans (if_neg hu)
  | leave hw _ => exact (getElem?_setWorker (p := p) hw u).trans (if_neg hu)
  | work hw _ => exact (getElem?_setWorker (p := p) hw u).trans (if_neg hu)
  | handIn hw => exact (getElem?_setWorker (p := p) hw u).trans (if_neg hu)

/-- The jobs taken are accounted for, and a worker is gone only when there are no more. -/
structure Accounts (label : ρ → ι) (jobs : List ι) (n : Nat) (p : Pool ι τ ρ) : Prop where
  failed : p.failed = false
  crew : p.workers.length = n
  taken : (p.results.map label ++ p.inProgress label).Perm (jobs.take p.next)
  gone : ∀ u : Nat, p.workers[u]? = some .gone → jobs.length ≤ p.next

variable {label : ρ → ι} {n : Nat}

theorem accounts_start (t : τ) : Accounts label jobs n (start n t) where
  failed := rfl
  crew := List.length_replicate
  taken := by
    have hnone : (List.replicate n Worker.ready).filterMap (Worker.load label) = [] :=
      List.filterMap_eq_nil_iff.mpr fun x hx => (List.mem_replicate.mp hx).2 ▸ rfl
    simp [inProgress, start, hnone]
  gone u h := by
    obtain ⟨hlt, hgone⟩ := List.getElem?_eq_some_iff.mp h
    simp [start] at hgone

/-- A job in hand is one of those to do. -/
theorem Accounts.mem_of_working {job : ι} (h : Accounts label jobs n p)
    (hw : p.workers[w]? = some (.working job)) : job ∈ jobs := by
  have hload : job ∈ p.inProgress label :=
    List.mem_filterMap.mpr ⟨_, List.mem_of_getElem? hw, rfl⟩
  exact List.take_subset _ _ (h.taken.mem_iff.mp (List.mem_append_right _ hload))

/-- Who is not gone after its turn adds nobody to those that are. -/
theorem Accounts.gone_setWorker {x y : Worker ι ρ} (h : Accounts label jobs n p)
    (hw : p.workers[w]? = some x) (hy : y ≠ .gone) (u : Nat)
    (hu : (p.setWorker w y).workers[u]? = some .gone) : jobs.length ≤ p.next := by
  rw [getElem?_setWorker hw] at hu
  split_ifs at hu with heq
  · exact absurd (Option.some.inj hu) hy
  · exact h.gone u hu

theorem Accounts.turn (hlabel : s.Labelled label) (h : Accounts label jobs n p)
    (hturn : Turn s jobs p w p') : Accounts label jobs n p' := by
  have hcrew (y : Worker ι ρ) : (p.workers.set w y).length = n := by rw [List.length_set, h.crew]
  cases hturn with
  | idle => exact h
  | clear hw =>
      obtain ⟨others, hbefore, hafter⟩ := exists_inProgress_set label hw
      refine ⟨h.failed, hcrew _, ?_, h.gone_setWorker hw (by simp)⟩
      exact (((hafter .cleared).trans hbefore.symm).append_left _).trans h.taken
  | @fetch job hw hjob =>
      obtain ⟨others, hbefore, hafter⟩ := exists_inProgress_set label hw
      refine ⟨h.failed, hcrew _, ?_, fun u hu => ?_⟩
      · show (p.results.map label ++ _).Perm (jobs.take (p.next + 1))
        rw [List.take_add_one, hjob]
        refine ((hafter (.working job)).append_left _).trans ?_
        refine List.perm_middle.trans (List.Perm.trans (List.Perm.cons job ?_)
          (List.perm_append_singleton job _).symm)
        exact (hbefore.symm.append_left _).trans h.taken
      · exact Nat.le_succ_of_le (h.gone_setWorker hw (by simp) u hu)
  | leave hw hend =>
      obtain ⟨others, hbefore, hafter⟩ := exists_inProgress_set label hw
      refine ⟨h.failed, hcrew _, ?_, fun u hu => Nat.le_succ_of_le hend⟩
      show (p.results.map label ++ _).Perm (jobs.take (p.next + 1))
      rw [List.take_of_length_le (Nat.le_succ_of_le hend), ← List.take_of_length_le hend]
      exact (((hafter .gone).trans hbefore.symm).append_left _).trans h.taken
  | @work job r t hw hwork =>
      obtain ⟨others, hbefore, hafter⟩ := exists_inProgress_set label hw
      obtain rfl : label r = job := by simpa [hwork] using hlabel job p.state
      refine ⟨h.failed, hcrew _, ?_, h.gone_setWorker hw (by simp)⟩
      exact (((hafter (.carrying r)).trans hbefore.symm).append_left _).trans h.taken
  | @handIn r hw =>
      obtain ⟨others, hbefore, hafter⟩ := exists_inProgress_set label hw
      refine ⟨h.failed, hcrew _, ?_, h.gone_setWorker hw (by simp)⟩
      show ((p.results ++ [r]).map label ++ _).Perm _
      rw [List.map_append, List.append_assoc]
      have hone := ((hafter .ready).append_left [label r]).trans hbefore.symm
      exact (hone.append_left _).trans h.taken

theorem Accounts.run (hs : s.Steadfast) (hlabel : s.Labelled label) (schedule : List Nat)
    (h : Accounts label jobs n p) : Accounts label jobs n (run s jobs schedule p) := by
  induction schedule generalizing p with
  | nil => exact h
  | cons w schedule ih => exact ih (h.turn hlabel (turn_step hs h.failed))

/-- What the work on each job keeps holds after any interleaving. -/
theorem Accounts.state_run {I : τ → Prop} (h : Accounts label jobs n p) (hs : s.Steadfast)
    (hlabel : s.Labelled label) (hwork : ∀ job ∈ jobs, ∀ t, I t → I (s.work job t).2)
    (schedule : List Nat) (hstate : I p.state) : I (Pool.run s jobs schedule p).state := by
  induction schedule generalizing p with
  | nil => exact hstate
  | cons w schedule ih =>
      have hturn : Turn s jobs p w (step s jobs p w) := turn_step hs h.failed
      refine ih (h.turn hlabel hturn) ?_
      generalize step s jobs p w = q at hturn
      cases hturn with
      | work hw hdone =>
          have hkept := hwork _ (h.mem_of_working hw) p.state hstate
          rwa [hdone] at hkept
      | _ => exact hstate

/-! ### Coming to an end -/

/-- All workers are gone. -/
def Over (p : Pool ι τ ρ) : Prop :=
  ∀ x ∈ p.workers, x = .gone

/-- When all workers are gone, there is one result for each job. -/
theorem Accounts.perm_of_over (h : Accounts label jobs n p) (hn : 0 < n) (hover : p.Over) :
    (p.results.map label).Perm jobs := by
  have hidle : p.inProgress label = [] :=
    List.filterMap_eq_nil_iff.mpr fun x hx => hover x hx ▸ rfl
  have hfirst : p.workers[0]? = some .gone := by
    have hlt : 0 < p.workers.length := h.crew.symm ▸ hn
    rw [List.getElem?_eq_getElem hlt, hover _ (List.getElem_mem hlt)]
  have htaken := h.taken
  rwa [hidle, List.append_nil, List.take_of_length_le (h.gone 0 hfirst)] at htaken

/-- An upper bound of the turns in which worker `w` still does something. -/
def rank (jobs : List ι) (p : Pool ι τ ρ) (w : Nat) : Nat :=
  match p.workers[w]? with
  | none => 0
  | some x => x.rank (jobs.length - p.next)

/-- A worker that comes nearer to its end takes no other one farther from it. -/
theorem rank_setWorker_le {q : Pool ι τ ρ} {x y : Worker ι ρ} (hworkers : q.workers = p.workers)
    (hnext : p.next ≤ q.next) (hw : p.workers[w]? = some x)
    (hless : y.rank (jobs.length - q.next) < x.rank (jobs.length - p.next)) (u : Nat) :
    rank jobs (q.setWorker w y) u ≤ rank jobs p u - if u = w then 1 else 0 := by
  have hset := getElem?_setWorker (p := q) (y := y) (hworkers ▸ hw) u
  by_cases hu : u = w
  · subst hu
    rw [if_pos rfl] at hset ⊢
    rw [rank, hset, rank, hw]
    exact Nat.le_sub_one_of_lt hless
  · rw [if_neg hu, hworkers] at hset
    rw [if_neg hu, rank, hset, rank]
    cases p.workers[u]? with
    | none => exact Nat.le_refl _
    | some x => exact Worker.rank_mono (Nat.sub_le_sub_left hnext _) x

theorem Turn.rank_le (h : Turn s jobs p w p') (u : Nat) :
    rank jobs p' u ≤ rank jobs p u - if u = w then 1 else 0 := by
  cases h with
  | idle hw =>
      split_ifs with hu
      · subst hu
        rcases hw with hw | hw <;> simp [rank, hw, Worker.rank]
      · exact Nat.le_refl _
  | clear hw => exact rank_setWorker_le rfl (Nat.le_refl _) hw (Nat.lt_succ_self _) u
  | fetch hw hjob =>
      have hlt := (List.getElem?_eq_some_iff.mp hjob).1
      refine rank_setWorker_le (p := p) (q := { p with next := p.next + 1 }) rfl (Nat.le_succ _)
        hw ?_ u
      simp only [Worker.rank]
      omega
  | leave hw _ =>
      refine rank_setWorker_le (p := p) (q := { p with next := p.next + 1 }) rfl (Nat.le_succ _)
        hw ?_ u
      exact Nat.succ_pos _
  | work hw _ => exact rank_setWorker_le rfl (Nat.le_refl _) hw (Nat.lt_succ_self _) u
  | handIn hw => exact rank_setWorker_le rfl (Nat.le_refl _) hw (Nat.lt_succ_self _) u

/-- The same of any shift, steadfast or not. -/
theorem rank_step_le (s : Shift ι τ ρ) (jobs : List ι) (p : Pool ι τ ρ) (w u : Nat) :
    rank jobs (step s jobs p w) u ≤ rank jobs p u - if u = w then 1 else 0 := by
  rw [step]
  split
  · next hw => exact (Turn.idle (s := s) (.inl hw)).rank_le u
  · next hw =>
      rw [look]
      split
      · exact rank_setWorker_le (y := .gone) rfl (Nat.le_refl _) hw (Nat.succ_pos _) u
      · refine rank_setWorker_le (q := { p with state := (s.stop p.state).2 }) rfl (Nat.le_refl _)
          hw ?_ u
        cases (s.stop p.state).1 with
        | true => exact Nat.succ_pos _
        | false => exact Nat.lt_succ_self _
  · next hw =>
      rw [take]
      refine rank_setWorker_le (p := p) (q := { p with next := p.next + 1 }) rfl (Nat.le_succ _)
        hw ?_ u
      cases hjob : jobs[p.next]? with
      | some job =>
          have hlt := (List.getElem?_eq_some_iff.mp hjob).1
          simp only [Worker.rank]
          omega
      | none => exact Nat.succ_pos _
  · next job hw =>
      exact rank_setWorker_le (q := { p with state := (s.work job p.state).2 }) rfl
        (Nat.le_refl _) hw (Nat.lt_succ_self _) u
  · next r hw =>
      rw [handIn]
      refine rank_setWorker_le
        (q := { p with results := p.results ++ [r], failed := p.failed || s.fails r }) rfl
        (Nat.le_refl _) hw ?_ u
      split
      · exact Nat.succ_pos _
      · exact Nat.lt_succ_self _
  · next hw => exact (Turn.idle (s := s) (.inr hw)).rank_le u

theorem rank_run (s : Shift ι τ ρ) (jobs : List ι) (schedule : List Nat) (p : Pool ι τ ρ)
    (u : Nat) : rank jobs (run s jobs schedule p) u ≤ rank jobs p u - schedule.count u := by
  induction schedule generalizing p with
  | nil => exact Nat.le_refl _
  | cons w schedule ih =>
      have hlater := ih (step s jobs p w)
      have hfirst := rank_step_le s jobs p w u
      rw [run_cons, List.count_cons]
      by_cases hu : u = w
      · simp only [hu, if_true, beq_self_eq_true] at hfirst hlater ⊢
        omega
      · simp only [hu, if_false, beq_false_of_ne (Ne.symm hu), Bool.false_eq_true] at hfirst ⊢
        omega

theorem length_setWorker (p : Pool ι τ ρ) (w : Nat) (x : Worker ι ρ) :
    (p.setWorker w x).workers.length = p.workers.length :=
  List.length_set

theorem length_step (s : Shift ι τ ρ) (jobs : List ι) (p : Pool ι τ ρ) (w : Nat) :
    (step s jobs p w).workers.length = p.workers.length := by
  rw [step]
  split
  · rfl
  · rw [look]
    split
    · exact length_setWorker ..
    · exact length_setWorker { p with state := (s.stop p.state).2 } w _
  · exact length_setWorker { p with next := p.next + 1 } w _
  · next job hw => exact length_setWorker { p with state := (s.work job p.state).2 } w _
  · next r hw =>
      exact length_setWorker
        { p with results := p.results ++ [r], failed := p.failed || s.fails r } w _
  · rfl

theorem length_run (s : Shift ι τ ρ) (jobs : List ι) (schedule : List Nat) (p : Pool ι τ ρ) :
    (run s jobs schedule p).workers.length = p.workers.length := by
  induction schedule generalizing p with
  | nil => rfl
  | cons w schedule ih => rw [run_cons, ih, length_step]

/-- Once each worker has had its turns, all are gone, whatever the order was. -/
theorem over_run (s : Shift ι τ ρ) {schedule : List Nat} (t : τ)
    (hturns : ∀ w < n, 4 * (jobs.length + 1) ≤ schedule.count w) :
    (run s jobs schedule (start n t)).Over := by
  intro x hx
  obtain ⟨w, hlt, hget⟩ := List.getElem_of_mem hx
  have hw : w < n := by rwa [length_run, start, List.length_replicate] at hlt
  have hstart : rank jobs (start n t : Pool ι τ ρ) w = 4 * jobs.length + 2 := by
    simp [rank, start, hw, Worker.rank]
  have hrank := rank_run s jobs schedule (start n t) w
  have hend : rank jobs (run s jobs schedule (start n t)) w = 0 := by
    have hcount := hturns w hw
    omega
  rw [rank, List.getElem?_eq_getElem hlt, hget] at hend
  exact Worker.eq_gone_of_rank hend

theorem count_inTurn (n k w : Nat) :
    (inTurn n k).count w = if w < n then 4 * (k + 1) else 0 := by
  rw [inTurn, List.count_flatMap]
  induction n with
  | zero => simp
  | succ n ih =>
      rw [List.range_succ, List.map_append, List.sum_append, ih]
      rcases Nat.lt_trichotomy w n with hlt | rfl | hgt
      · simp [List.count_replicate, hlt, Nat.lt_succ_of_lt hlt, Nat.ne_of_gt hlt]
      · simp
      · simp [List.count_replicate, Nat.not_lt_of_gt hgt, Nat.not_lt_of_ge (Nat.succ_le_of_lt hgt),
          Nat.ne_of_lt hgt]

/-! ### Where results come from -/

/-- What is known of every result, handed in or not. -/
structure Traces (made : ρ → Prop) (p : Pool ι τ ρ) : Prop where
  results : ∀ r ∈ p.results, made r
  carried : ∀ (u : Nat) r, p.workers[u]? = some (.carrying r) → made r

theorem Traces.carried_setWorker {made : ρ → Prop} {x y : Worker ι ρ} (h : Traces made p)
    (hw : p.workers[w]? = some x) (hy : ∀ r, y = .carrying r → made r) (u : Nat) (r : ρ)
    (hu : (p.setWorker w y).workers[u]? = some (.carrying r)) : made r := by
  rw [getElem?_setWorker hw] at hu
  split_ifs at hu
  · exact hy r (Option.some.inj hu)
  · exact h.carried u r hu

theorem Traces.turn {made : ρ → Prop} (h : Traces made p)
    (hmade : ∀ job, p.workers[w]? = some (.working job) → made (s.work job p.state).1)
    (hturn : Turn s jobs p w p') :
    Traces made p' := by
  cases hturn with
  | idle => exact h
  | clear hw => exact ⟨h.results, h.carried_setWorker hw (by simp)⟩
  | fetch hw _ => exact ⟨h.results, h.carried_setWorker hw (by simp)⟩
  | leave hw _ => exact ⟨h.results, h.carried_setWorker hw (by simp)⟩
  | @work job r t hw hwork =>
      refine ⟨h.results, h.carried_setWorker hw fun r' hr' => ?_⟩
      obtain rfl : r = r' := by simpa using hr'
      have hjob := hmade job hw
      rwa [hwork] at hjob
  | @handIn r hw =>
      refine ⟨fun r' hr' => ?_, h.carried_setWorker hw (by simp)⟩
      rcases List.mem_append.mp hr' with hr' | hr'
      · exact h.results r' hr'
      · exact List.mem_singleton.mp hr' ▸ h.carried w r hw

/-- Every result was worked out from the state at some moment of the run. -/
theorem traces_run (hs : s.Steadfast) (t : τ) (schedule : List Nat) :
    Traces (fun r => ∃ before job, before <+: schedule ∧
      r = (s.work job (run s jobs before (start n t)).state).1)
      (run s jobs schedule (start n t)) := by
  induction schedule using List.reverseRecOn with
  | nil =>
      refine ⟨fun r hr => absurd hr List.not_mem_nil, fun u r hu => ?_⟩
      obtain ⟨hlt, hcarrying⟩ := List.getElem?_eq_some_iff.mp hu
      simp [start] at hcarrying
  | append_singleton schedule w ih =>
      have hlater : Traces (fun r => ∃ before job, before <+: schedule ++ [w] ∧
          r = (s.work job (run s jobs before (start n t)).state).1)
          (run s jobs schedule (start n t)) :=
        ⟨fun r hr => (ih.results r hr).imp fun before ⟨job, hbefore, hr⟩ =>
            ⟨job, hbefore.trans (List.prefix_append _ _), hr⟩,
          fun u r hu => (ih.carried u r hu).imp fun before ⟨job, hbefore, hr⟩ =>
            ⟨job, hbefore.trans (List.prefix_append _ _), hr⟩⟩
      rw [run_append]
      exact hlater.turn (fun job _ => ⟨schedule, job, List.prefix_append _ _, rfl⟩)
        (turn_step hs (failed_run hs schedule rfl))

/-! ### Two pools in step -/

/-- Two workers that are equally far with the same job. -/
inductive Abreast (jobs : List ι) (same : ρ → ρ → Prop) : Worker ι ρ → Worker ι ρ → Prop
  | ready : Abreast jobs same .ready .ready
  | cleared : Abreast jobs same .cleared .cleared
  | working {job : ι} : job ∈ jobs → Abreast jobs same (.working job) (.working job)
  | carrying {r r' : ρ} : same r r' → Abreast jobs same (.carrying r) (.carrying r')
  | gone : Abreast jobs same .gone .gone

structure Lockstep {τ' : Type} (jobs : List ι) (alike : τ → τ' → Prop) (same : ρ → ρ → Prop)
    (p : Pool ι τ ρ) (p' : Pool ι τ' ρ) : Prop where
  failed : p.failed = false ∧ p'.failed = false
  next : p.next = p'.next
  workers : ∀ u : Nat, Option.Rel (Abreast jobs same) p.workers[u]? p'.workers[u]?
  results : List.Forall₂ same p.results p'.results
  state : alike p.state p'.state

variable {τ' : Type} {alike : τ → τ' → Prop} {same : ρ → ρ → Prop} {s' : Shift ι τ' ρ}
  {q : Pool ι τ' ρ}

theorem lockstep_start {t : τ} {t' : τ'} (h : alike t t') :
    Lockstep jobs alike same (start n t) (start n t') where
  failed := ⟨rfl, rfl⟩
  next := rfl
  workers u := by
    show Option.Rel _ (List.replicate n Worker.ready)[u]? (List.replicate n Worker.ready)[u]?
    rw [List.getElem?_replicate]
    split_ifs
    · exact .some .ready
    · exact .none
  results := .nil
  state := h

theorem Lockstep.setWorker {x x' y y' : Worker ι ρ} (h : Lockstep jobs alike same p q)
    (hw : p.workers[w]? = some x) (hw' : q.workers[w]? = some x')
    (hy : Abreast jobs same y y') (u : Nat) :
    Option.Rel (Abreast jobs same) (p.setWorker w y).workers[u]?
      (q.setWorker w y').workers[u]? := by
  rw [getElem?_setWorker hw, getElem?_setWorker hw']
  split_ifs
  · exact .some hy
  · exact h.workers u

theorem Lockstep.step (hs : s.Steadfast) (hs' : s'.Steadfast)
    (hwork : ∀ job ∈ jobs, ∀ t t', alike t t' → same (s.work job t).1 (s'.work job t').1 ∧
      alike (s.work job t).2 (s'.work job t').2)
    (h : Lockstep jobs alike same p q) (w : Nat) :
    Lockstep jobs alike same (p.step s jobs w) (q.step s' jobs w) := by
  have hpair := h.workers w
  rcases hx : p.workers[w]? with _ | x <;> rcases hx' : q.workers[w]? with _ | x'
  all_goals rw [hx, hx'] at hpair
  case none.none =>
    rw [Pool.step, Pool.step, hx, hx']
    exact h
  case none.some => cases hpair
  case some.none => cases hpair
  case some.some =>
    rw [Pool.step, Pool.step, hx, hx']
    obtain ⟨hfailed, hfailed'⟩ := h.failed
    cases hpair with
    | some hpair =>
        cases hpair with
        | ready =>
            simp only [look_eq hs hfailed, look_eq hs' hfailed']
            exact { h with workers := h.setWorker hx hx' .cleared }
        | cleared =>
            have hboth : jobs[q.next]? = jobs[p.next]? := by rw [h.next]
            simp only [take, hboth]
            cases hjob : jobs[p.next]? with
            | some job =>
                have hin := List.mem_of_getElem? hjob
                exact { h with
                  next := congrArg Nat.succ h.next
                  workers := h.setWorker hx hx' (.working hin) }
            | none =>
                exact { h with
                  next := congrArg Nat.succ h.next
                  workers := h.setWorker hx hx' .gone }
        | @working job hjob =>
            obtain ⟨hsame, halike⟩ := hwork job hjob _ _ h.state
            exact { h with
              state := halike
              workers := h.setWorker hx hx' (.carrying hsame) }
        | @carrying r r' hsame =>
            simp only [handIn_eq hs, handIn_eq hs']
            exact { h with
              results := List.rel_append h.results (.cons hsame .nil)
              workers := h.setWorker hx hx' .ready }
        | gone => exact h

theorem Lockstep.run (hs : s.Steadfast) (hs' : s'.Steadfast)
    (hwork : ∀ job ∈ jobs, ∀ t t', alike t t' → same (s.work job t).1 (s'.work job t').1 ∧
      alike (s.work job t).2 (s'.work job t').2)
    (schedule : List Nat) (h : Lockstep jobs alike same p q) :
    Lockstep jobs alike same (p.run s jobs schedule) (q.run s' jobs schedule) := by
  induction schedule generalizing p q with
  | nil => exact h
  | cons w schedule ih => exact ih (h.step hs hs' hwork w)

end Pool

end Culprit
