import Culprit.Proofs.Session.Kept
import Mathlib.Algebra.BigOperators.Group.Multiset.Basic
import Mathlib.Algebra.Order.Group.Multiset
import Mathlib.Tactic.Abel

/-!
What a batch adds to the books of a session. It makes one record for each of its partitions, with
the outcome that it answers. It begins at most one build for each partition whose outcome is not
remembered.
-/

namespace Culprit

variable {σ : Type}

namespace Trial

/-- What a record says of the trial itself, without its number, its times, and whether the outcome
was remembered. -/
def gist (t : Trial) : Trial :=
  { t with seq := 0, buildMs? := none, runMs? := none, cached := false }

/-- The gist of a record. -/
def note (p : Partition) (o : Outcome) : Trial :=
  .ofOutcome 0 p o none none false

@[simp] theorem gist_ofOutcome (seq : Nat) (p : Partition) (o : Outcome)
    (buildMs? runMs? : Option Nat) (cached : Bool) :
    (Trial.ofOutcome seq p o buildMs? runMs? cached).gist = note p o := rfl

end Trial

open Trial (note)

namespace Session

/-- The records in any order. -/
def notes (s : Session σ) : Multiset Trial :=
  s.trials.map Trial.gist

end Session

def Progress.isWaiting : Progress → Bool
  | .waiting => true
  | _ => false

/-- The record of a task that is over. -/
def Task.notes (k : Task) : Multiset Trial :=
  match k.progress with
  | .settled o => {note k.partition o}
  | _ => 0

/-- Partitions with their outcomes. -/
def notesOf (answers : List (Partition × Outcome)) : Multiset Trial :=
  answers.map fun a => note a.1 a.2

theorem notesOf_cons (a : Partition × Outcome) (answers : List (Partition × Outcome)) :
    notesOf (a :: answers) = {note a.1 a.2} + notesOf answers := rfl

theorem notesOf_append (answers answers' : List (Partition × Outcome)) :
    notesOf (answers ++ answers') = notesOf answers + notesOf answers' := by
  rw [notesOf, List.map_append, ← Multiset.coe_add]
  rfl

/-- Since the session was as `s₀` each task that is over was recorded once, and as many builds have
begun or are waiting as `builds` says. -/
structure Accounted (s₀ : Session σ) (builds : Nat) (tasks : List Task) (s : Session σ) :
    Prop where
  notes : s.notes = s₀.notes + (tasks.map Task.notes).sum
  executed : s.executed + tasks.countP (·.progress.isWaiting) = s₀.executed + builds

namespace Accounted

variable {s₀ s s' : Session σ} {builds : Nat} {tasks tasks' others : List Task} {k : Task}

theorem perm (htasks : tasks.Perm tasks') (h : Accounted s₀ builds tasks s) :
    Accounted s₀ builds tasks' s where
  notes := by rw [h.notes, (htasks.map _).sum_eq]
  executed := by rw [← h.executed, htasks.countP_eq]

/-- The first task is over now and has been recorded. -/
theorem settle {o : Outcome} (h : Accounted s₀ builds (k :: others) s) (hopen : k.notes = 0)
    (hnotes : s'.notes = s.notes + {note k.partition o})
    (hexecuted : s'.executed = s.executed + if k.progress.isWaiting then 1 else 0) :
    Accounted s₀ builds ({ k with progress := .settled o } :: others) s' where
  notes := by
    rw [hnotes, h.notes, List.map_cons, List.sum_cons, hopen, List.map_cons, List.sum_cons]
    simp only [Task.notes]
    abel
  executed := by
    rw [← h.executed, hexecuted, List.countP_cons, List.countP_cons]
    simp only [Progress.isWaiting, Bool.false_eq_true, if_false]
    omega

end Accounted

namespace Experiment

variable {x : Experiment σ} {k : Task} {s₀ s : Session σ} {builds : Nat} {others : List Task}

theorem notes_record (p : Partition) (o : Outcome) (buildMs? runMs? : Option Nat) (cached : Bool) :
    (x.record p o buildMs? runMs? cached s).2.notes = s.notes + {note p o} := by
  rw [record_eq, Session.notes, List.map_append, ← Multiset.coe_add]
  rfl

theorem finish_leaves (o : Outcome) (buildMs? runMs? : Option Nat) :
    ∃ s', x.finish k o buildMs? runMs? s = ({ k with progress := .settled o }, s') ∧
      s'.notes = s.notes + {note k.partition o} ∧ s'.executed = s.executed := by
  rcases hlook : x.lab.cancelled s.site.world with ⟨stop, w⟩
  rw [finish, bind_of (Session.onWorld_eq hlook)]
  cases stop with
  | true => exact ⟨_, rfl, notes_record k.partition o buildMs? runMs? false, rfl⟩
  | false => exact ⟨_, rfl, notes_record k.partition o buildMs? runMs? false, rfl⟩

theorem buildTask_accounted (h : Accounted s₀ builds (k :: others) s) :
    Accounted s₀ builds ((x.buildTask k s).1 :: others) (x.buildTask k s).2 := by
  have hopen (hk : k.progress = .waiting) : k.notes = 0 := by rw [Task.notes, hk]
  have hwaiting (hk : k.progress = .waiting) : k.progress.isWaiting = true := by rw [hk]; rfl
  have hturn := buildTask_turn x k s
  generalize x.buildTask k s = r at hturn ⊢
  cases hturn with
  | other => exact h
  | @barred e w hk =>
      obtain ⟨s', heq, hnotes, hexecuted⟩ := finish_leaves (x := x) (k := k)
        (s := { s with site := { s.site with world := w }, executed := s.executed + 1 })
        (.error ⟨.build, e.message⟩) none none
      rw [heq]
      exact h.settle (hopen hk) hnotes (by rw [hexecuted, hwaiting hk]; rfl)
  | @unbuilt path f w w' hk =>
      obtain ⟨s', heq, hnotes, hexecuted⟩ := finish_leaves (x := x) (k := k)
        (s := { s with
          site := (Site.drop x.lab { path := path } ⟨w', s.site.ledger.enter⟩).2
          executed := s.executed + 1 }) (.error f) none none
      rw [heq]
      exact h.settle (hopen hk) hnotes (by rw [hexecuted, hwaiting hk]; rfl)
  | built hk =>
      have hnotes := h.notes
      have hexecuted := h.executed
      rw [List.map_cons, List.sum_cons, hopen hk] at hnotes
      rw [List.countP_cons, hwaiting hk] at hexecuted
      refine ⟨hnotes, ?_⟩
      rw [← hexecuted, List.countP_cons]
      simp only [Progress.isWaiting, Bool.false_eq_true, if_false, if_true]
      omega

theorem runTask_accounted (h : Accounted s₀ builds (k :: others) s) :
    Accounted s₀ builds ((x.runTask k s).1 :: others) (x.runTask k s).2 := by
  cases hk : k.progress with
  | built w made =>
      rcases hrun : (x.execute made.executable x.target w.path).run s.site.world with ⟨ran, v⟩
      rw [runTask_built hk hrun]
      obtain ⟨s', heq, hnotes, hexecuted⟩ := finish_leaves (x := x) (k := k)
        (s := { s with site := (Site.drop x.lab w { s.site with world := v }).2 })
        (x.judge ran).1 (some made.ms) (x.judge ran).2
      rw [heq]
      refine h.settle ?_ hnotes ?_
      · rw [Task.notes, hk]
      · rw [hexecuted, hk]
        rfl
  | _ =>
      rw [runTask_other (by rw [hk]; rfl)]
      exact h

/-- The first pass records what is remembered and leaves builds to the second. -/
theorem recallAll_accounted (seen : List String) (ps : List Partition) (s : Session σ) :
    (x.recallAll seen ps s).2.notes =
        s.notes + ((x.recallAll seen ps s).1.map Task.notes).sum ∧
      (x.recallAll seen ps s).2.executed = s.executed ∧
      (x.recallAll seen ps s).1.countP (·.progress.isWaiting) ≤
        ps.countP (·.signature ∉ s.signatures) := by
  induction ps generalizing seen s with
  | nil => exact ⟨(add_zero _).symm, rfl, Nat.le_refl _⟩
  | cons p rest ih =>
      cases hknown : s.remembered? p.signature with
      | some o =>
          rw [recallAll_known hknown rfl]
          obtain ⟨hnotes, hexecuted, hwaiting⟩ := ih seen (x.record p o none none true s).2
          refine ⟨?_, hexecuted, ?_⟩
          · rw [hnotes, notes_record, List.map_cons, List.sum_cons, add_assoc]
            rfl
          · rw [List.countP_cons, List.countP_cons]
            exact Nat.le_trans hwaiting (Nat.le_add_right _ _)
      | none =>
          have hnew := Session.remembered?_eq_none.mp hknown
          by_cases hseen : p.signature ∈ seen
          · rw [recallAll_repeated hknown hseen rfl]
            obtain ⟨hnotes, hexecuted, hwaiting⟩ := ih seen s
            refine ⟨?_, hexecuted, ?_⟩
            · rw [hnotes, List.map_cons, List.sum_cons]
              exact congrArg _ (zero_add _).symm
            · rw [List.countP_cons, List.countP_cons]
              exact Nat.le_trans hwaiting (Nat.le_add_right _ _)
          · rw [recallAll_new hknown hseen rfl]
            obtain ⟨hnotes, hexecuted, hwaiting⟩ := ih (p.signature :: seen) s
            refine ⟨?_, hexecuted, ?_⟩
            · rw [hnotes, List.map_cons, List.sum_cons]
              exact congrArg _ (zero_add _).symm
            · rw [List.countP_cons_of_pos rfl, List.countP_cons_of_pos (by simpa using hnew)]
              exact Nat.succ_le_succ hwaiting

theorem settleTask_leaves (k : Task) (s : Session σ) :
    (x.settleTask k s).2.notes + k.notes = s.notes + {note k.partition (x.settleTask k s).1} ∧
      (x.settleTask k s).2.executed = s.executed := by
  obtain ⟨p, signature, progress⟩ := k
  cases progress with
  | settled o => exact ⟨rfl, rfl⟩
  | _ =>
      refine ⟨?_, rfl⟩
      exact (add_zero _).trans (notes_record p _ none none true)

/-- The last pass records what is not recorded yet. -/
theorem settleAll_leaves (tasks : List Task) (s : Session σ) :
    (tasks.mapM x.settleTask s).2.notes + (tasks.map Task.notes).sum =
        s.notes + notesOf ((tasks.map (·.partition)).zip (tasks.mapM x.settleTask s).1) ∧
      (tasks.mapM x.settleTask s).2.executed = s.executed := by
  induction tasks generalizing s with
  | nil => exact ⟨rfl, rfl⟩
  | cons k tasks ih =>
      obtain ⟨hnotes₁, hexecuted₁⟩ := settleTask_leaves (x := x) k s
      rcases hk : x.settleTask k s with ⟨o, s₁⟩
      rw [hk] at hnotes₁ hexecuted₁
      obtain ⟨hnotes, hexecuted⟩ := ih s₁
      rw [List.mapM_cons, bind_of hk]
      refine ⟨?_, hexecuted.trans hexecuted₁⟩
      show (tasks.mapM x.settleTask s₁).2.notes + _ = s.notes +
        notesOf ((k.partition, o) :: (tasks.map (·.partition)).zip (tasks.mapM x.settleTask s₁).1)
      rw [notesOf_cons, List.map_cons, List.sum_cons, ← add_assoc s.notes, ← hnotes₁,
        add_right_comm s₁.notes, ← hnotes]
      abel

/-- A batch makes one record for each of its partitions, with the outcome it answers. It begins at
most one build for each partition that is not remembered. -/
theorem batch_accounted (x : Experiment σ) (ps : List Partition) (s : Session σ) :
    (x.batch ps s).2.notes = s.notes + notesOf (ps.zip (x.batch ps s).1) ∧
      (x.batch ps s).2.executed ≤ s.executed + ps.countP (·.signature ∉ s.signatures) := by
  obtain ⟨hnotes₁, hexecuted₁, hwaiting⟩ := recallAll_accounted (x := x) [] ps s
  have hmade := congrArg (List.map Prod.fst) (recallAll_tasks (x := x) [] ps s)
  rw [List.map_map, List.map_map] at hmade
  rcases hrecall : x.recallAll [] ps s with ⟨tasks, s₁⟩
  rw [hrecall] at hnotes₁ hexecuted₁ hwaiting hmade
  -- Between the passes the books agree with the tasks.
  let J := Accounted s (tasks.countP (·.progress.isWaiting))
  have h₁ : J (tasks ++ []) s₁ :=
    ⟨by rw [List.append_nil]; exact hnotes₁, by rw [List.append_nil, hexecuted₁]⟩
  have h₂ := mapM_tasks (J := J) Accounted.perm (buildTask_accounted (x := x)) h₁
  rcases hbuild : tasks.mapM x.buildTask s₁ with ⟨built, s₂⟩
  rw [hbuild] at h₂
  have h₃ := mapM_tasks (J := J) Accounted.perm (runTask_accounted (x := x)) h₂
  rcases hrun : built.mapM x.runTask s₂ with ⟨ran, s₃⟩
  rw [hrun, List.append_nil] at h₃
  obtain ⟨hnotes₄, hexecuted₄⟩ := settleAll_leaves (x := x) ran s₃
  have hps : ran.map (·.partition) = ps := by
    rw [map_partition_of_passes hbuild hrun]
    simpa [Function.comp_def] using hmade
  rw [batch_of_passes hrecall hbuild hrun]
  refine ⟨?_, ?_⟩
  · rw [h₃.notes, hps, add_right_comm] at hnotes₄
    exact add_right_cancel hnotes₄
  · calc (ran.mapM x.settleTask s₃).2.executed = s₃.executed := hexecuted₄
      _ ≤ s.executed + tasks.countP (·.progress.isWaiting) := Nat.le.intro h₃.executed
      _ ≤ s.executed + ps.countP (·.signature ∉ s.signatures) := Nat.add_le_add_left hwaiting _

end Experiment

end Culprit
