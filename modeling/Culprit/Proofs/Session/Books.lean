import Culprit.Proofs.Session.Agreement
import Culprit.Proofs.Session.Lodging
import Culprit.Proofs.Session.Upheld

/-!
The books of a session: the numbers of its records, the log and the observer that get them, and the
count of its builds. Whatever happens to a trial, its record is numbered after the last one, logged,
shown and kept, and it says whether the trial was built.
-/

namespace Culprit

variable {σ : Type}

/-- The lab without a log and without an observer. -/
def Lab.silenced (lab : Lab σ) : Lab σ :=
  { lab with appendLog := fun _ => pure (), observe := fun _ => pure () }

/-- Two lists outside. Every record that is logged goes to the end of the first, every record that
is shown to the end of the second, and nothing else that a lab does changes them. -/
structure Lab.Files (lab : Lab σ) (logged seen : σ → List Trial) : Prop where
  others : lab.silenced.Spares fun w => (logged w, seen w)
  made (label : String) (w : σ) :
    (logged ((lab.makeDirectory label).runOn w).2, seen ((lab.makeDirectory label).runOn w).2) =
      (logged w, seen w)
  removed (path : String) (w : σ) :
    (logged ((lab.removeDirectory path).runOn w).2, seen ((lab.removeDirectory path).runOn w).2) =
      (logged w, seen w)
  appended (t : Trial) (w : σ) : ∃ w', (lab.appendLog t).runOn w = (.ok (), w') ∧
    logged w' = logged w ++ [t] ∧ seen w' = seen w
  observed (t : Trial) (w : σ) : logged (lab.observe t w).2 = logged w ∧
    seen (lab.observe t w).2 = seen w ++ [t]

/-- So both lists stay as they are through everything but logging and showing. -/
theorem Lab.Files.keeps {lab : Lab σ} {logged seen : σ → List Trial} (h : lab.Files logged seen)
    (lists : List Trial × List Trial) :
    lab.silenced.Keeps fun w => (logged w, seen w) = lists where
  cancelled w hw := (h.others.cancelled w).trans hw
  runner call limit w hw := (h.others.runner call limit w).trans hw
  readText path w hw := (h.others.readText path w).trans hw
  makeDirectory label w hw := (h.made label w).trans hw
  removeDirectory path w hw := (h.removed path w).trans hw
  appendLog _ _ hw := hw
  observe _ _ hw := hw

namespace Session

/-- The records have the numbers from one on, and went to both lists since these were `before`. -/
structure Filed (logged seen : σ → List Trial) (before : List Trial × List Trial)
    (s : Session σ) : Prop where
  numbers : s.trials.map (·.seq) = List.range' 1 s.trials.length
  lists : (logged s.site.world, seen s.site.world) = (before.1 ++ s.trials, before.2 ++ s.trials)

variable {logged seen : σ → List Trial} {before : List Trial × List Trial}

theorem filed_start (site : Site σ) :
    (start site).Filed logged seen (logged site.world, seen site.world) where
  numbers := rfl
  lists := Prod.ext (List.append_nil _).symm (List.append_nil _).symm

/-- What leaves both lists alone leaves the books in order. -/
theorem onSite_filed {α : Type} {a : StateM (Site σ) α}
    (ha : ∀ lists, Preserves (fun s : Site σ => (logged s.world, seen s.world) = lists) a) :
    Preserves (Filed logged seen before) (onSite a) :=
  fun s h => ⟨h.numbers, ha _ s.site h.lists⟩

end Session

/-- The records of trials that were built, or tried to be. -/
def Session.uncached (s : Session σ) : Nat :=
  s.trials.countP (!·.cached)

namespace Experiment

variable {x : Experiment σ} {logged seen : σ → List Trial} {before : List Trial × List Trial}

theorem record_filed (h : x.lab.Files logged seen) (p : Partition) (o : Outcome)
    (buildMs? runMs? : Option Nat) (cached : Bool) :
    Preserves (Session.Filed logged seen before) (x.record p o buildMs? runMs? cached) := by
  intro s hs
  rw [record_eq]
  let t := Trial.ofOutcome (s.trials.length + 1) p o buildMs? runMs? cached
  obtain ⟨w, hlog, hlogged, hunseen⟩ := h.appended t s.site.world
  obtain ⟨hkept, hshown⟩ := h.observed t w
  obtain ⟨hlogs, hviews⟩ := Prod.mk.inj hs.lists
  refine ⟨?_, Prod.ext ?_ ?_⟩
  · show (s.trials ++ [t]).map (·.seq) = List.range' 1 (s.trials ++ [t]).length
    rw [List.map_append, hs.numbers, List.length_append, List.length_singleton,
      List.range'_concat]
    simp [t, Trial.ofOutcome, Nat.add_comm]
  · show logged (x.lab.observe t ((x.lab.appendLog t).runOn s.site.world).2).2 = _
    rw [hlog, hkept, hlogged, hlogs, List.append_assoc]
  · show seen (x.lab.observe t ((x.lab.appendLog t).runOn s.site.world).2).2 = _
    rw [hlog, hshown, hunseen, hviews, List.append_assoc]

theorem upholds_filed (h : x.lab.Files logged seen) :
    x.Upholds (fun _ => True) (Session.Filed logged seen before) where
  cancelled := Session.onSite_filed fun _ s hs => (h.keeps _).cancelled s.world hs
  acquire label := Session.onSite_filed fun lists => (h.keeps lists).acquire label
  drop w := Session.onSite_filed fun lists => (h.keeps lists).drop w
  build _ _ := Session.onSite_filed fun _ s hs => (h.others.builds _ s.world).trans hs
  execute executable dir := Session.onSite_filed fun _ s hs =>
    (Setup.execute_spares (x := { x.toSetup with lab := x.lab.silenced }) h.others executable
      x.target dir s.world).trans hs
  count h := ⟨h.numbers, h.lists⟩
  remember _ _ _ h := ⟨h.numbers, h.lists⟩
  record p _ buildMs? runMs? cached _ := record_filed h p _ buildMs? runMs? cached
  failure _ := trivial
  judged _ := trivial
  recalled _ _ := trivial

/-- Each build that was counted has its record, or waits for it in one of the tasks. -/
def Counted (tasks : List Task) (s : Session σ) : Prop :=
  s.executed = s.uncached + tasks.countP (·.progress.isBuilt)

namespace Counted

variable {tasks tasks' others : List Task} {k : Task} {s s' : Session σ}

theorem perm (htasks : tasks.Perm tasks') (h : Counted tasks s) : Counted tasks' s := by
  rw [Counted, h, htasks.countP_eq]

/-- A task that is not built makes no difference. -/
theorem cons_iff (hk : k.progress.isBuilt = false) :
    Counted (k :: others) s ↔ Counted others s := by
  rw [Counted, Counted, List.countP_cons_of_neg (by simp [hk])]

end Counted

variable {k : Task} {others tasks : List Task} {s : Session σ}

theorem uncached_record (p : Partition) (o : Outcome) (buildMs? runMs? : Option Nat)
    (cached : Bool) : (x.record p o buildMs? runMs? cached s).2.uncached =
      s.uncached + if cached then 0 else 1 := by
  rw [record_eq, Session.uncached, List.countP_append]
  cases cached <;> rfl

theorem finish_uncached (o : Outcome) (buildMs? runMs? : Option Nat) :
    (x.finish k o buildMs? runMs? s).2.executed = s.executed ∧
      (x.finish k o buildMs? runMs? s).2.uncached = s.uncached + 1 := by
  rcases hlook : x.lab.cancelled s.site.world with ⟨_ | _, w⟩ <;>
    rw [finish, bind_of (Session.onWorld_eq hlook)]
  · exact ⟨rfl, uncached_record k.partition o buildMs? runMs? false⟩
  · exact ⟨rfl, uncached_record k.partition o buildMs? runMs? false⟩

/-- The build that a record is made of was counted. -/
theorem finish_counted (h : s.executed = s.uncached + 1 + others.countP (·.progress.isBuilt))
    (o : Outcome) (buildMs? runMs? : Option Nat) :
    Counted ((x.finish k o buildMs? runMs? s).1 :: others) (x.finish k o buildMs? runMs? s).2 := by
  obtain ⟨hexecuted, huncached⟩ := finish_uncached (x := x) (k := k) (s := s) o buildMs? runMs?
  rw [finish_fst, Counted.cons_iff rfl, Counted, hexecuted, huncached, h]

/-- A record that is cached is not counted. -/
theorem record_counted (p : Partition) (o : Outcome) :
    Preserves (Counted tasks) (x.record p o none none true) := by
  intro s h
  rw [Counted, uncached_record]
  exact h

theorem recallAll_counted (seen : List String) (ps : List Partition) (h : Counted tasks s) :
    Counted ((x.recallAll seen ps s).1 ++ tasks) (x.recallAll seen ps s).2 := by
  induction ps generalizing seen s with
  | nil => exact h
  | cons p rest ih =>
      cases hknown : s.remembered? p.signature with
      | some o =>
          rw [recallAll_known hknown rfl]
          exact (Counted.cons_iff rfl).mpr (ih seen (record_counted p o s h))
      | none =>
          by_cases hseen : p.signature ∈ seen
          · rw [recallAll_repeated hknown hseen rfl]
            exact (Counted.cons_iff rfl).mpr (ih seen h)
          · rw [recallAll_new hknown hseen rfl]
            exact (Counted.cons_iff rfl).mpr (ih _ h)

theorem buildTask_counted (h : Counted (k :: others) s) :
    Counted ((x.buildTask k s).1 :: others) (x.buildTask k s).2 := by
  have hcounted (hk : k.progress = .waiting) :
      s.executed + 1 = s.uncached + 1 + others.countP (·.progress.isBuilt) := by
    rw [Counted.cons_iff (by rw [hk]; rfl)] at h
    rw [h, Nat.add_right_comm]
  have hturn := buildTask_turn x k s
  generalize x.buildTask k s = r at hturn ⊢
  cases hturn with
  | other => exact h
  | barred hk | unbuilt hk => exact finish_counted (hcounted hk) _ none none
  | built hk =>
      rw [Counted, List.countP_cons_of_pos rfl]
      exact (hcounted hk).trans (Nat.add_right_comm _ _ _)

theorem runTask_counted (h : Counted (k :: others) s) :
    Counted ((x.runTask k s).1 :: others) (x.runTask k s).2 := by
  cases hk : k.progress with
  | built w made =>
      rw [runTask_built hk rfl]
      rw [Counted, List.countP_cons_of_pos (by rw [hk]; rfl)] at h
      have hcounted : s.executed = s.uncached + 1 + others.countP (·.progress.isBuilt) :=
        h.trans ((Nat.add_assoc _ _ _).symm.trans (Nat.add_right_comm _ _ _))
      refine finish_counted ?_ _ _ _
      exact hcounted
  | _ =>
      rw [runTask_other (by rw [hk]; rfl)]
      exact h

theorem settleAll_counted (tasks : List Task) :
    Preserves (Counted []) (tasks.mapM x.settleTask) :=
  Preserves.mapM fun k _ => settleTask_preserves record_counted k

/-- After a batch each build that was counted has its record. -/
theorem batch_counted (x : Experiment σ) (ps : List Partition) (h : Counted [] s) :
    Counted [] (x.batch ps s).2 := by
  have h₁ := recallAll_counted (x := x) [] ps h
  rcases hrecall : x.recallAll [] ps s with ⟨tasks, s₁⟩
  rw [hrecall] at h₁
  have h₂ := mapM_tasks (J := Counted) Counted.perm (buildTask_counted (x := x)) h₁
  rcases hbuild : tasks.mapM x.buildTask s₁ with ⟨built, s₂⟩
  rw [hbuild] at h₂
  have h₃ := mapM_tasks (J := Counted) Counted.perm (runTask_counted (x := x)) h₂
  rcases hrun : built.mapM x.runTask s₂ with ⟨ran, s₃⟩
  rw [hrun, List.append_nil] at h₃
  rw [batch_of_passes hrecall hbuild hrun]
  have hran := not_pending_of_passes hbuild hrun
  have hnone : ran.countP (·.progress.isBuilt) = 0 := List.countP_eq_zero.mpr fun k hk hbuilt =>
    absurd (Progress.isPending_of_isBuilt hbuilt) (by simp [hran k hk])
  refine settleAll_counted ran s₃ ?_
  rw [Counted, h₃, hnone]
  rfl

end Experiment

end Culprit
