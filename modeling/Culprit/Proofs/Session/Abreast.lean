import Culprit.Proofs.Session.Seen

/-!
Two series of trials on steady outsides. Each pass of a batch changes what is seen of a session as
what is seen of its outcomes says, so outsides whose outcomes look alike stay side by side.
-/

namespace Culprit

variable {σ : Type}

namespace Experiment

variable {x : Experiment σ} {s : Session σ}

/-! ### The stage of a failure -/

/-- Every failure of the action belongs to one stage. -/
def FailsIn {α : Type} (stage : Stage) (a : ExceptT Failure (StateM σ) α) : Prop :=
  ∀ w f, (a.run w).1 = .error f → f.stage = stage

namespace FailsIn

variable {α β ε : Type} {stage : Stage}

theorem ret (r : α) : FailsIn stage (pure r : ExceptT Failure (StateM σ) α) :=
  fun _ _ h => by cases h

theorem adapt {a : ExceptT ε (StateM σ) α} {g : ε → Failure} (hg : ∀ e, (g e).stage = stage) :
    FailsIn stage (ExceptT.adapt g a) := by
  intro w f h
  have h' : ((a.run w).1.mapError g : Except Failure α) = .error f := h
  cases hr : (a.run w).1 with
  | ok r => simp [hr, Except.mapError] at h'
  | error e =>
      rw [hr] at h'
      exact Except.error.inj h' ▸ hg e

theorem bind {a : ExceptT Failure (StateM σ) α} {b : α → ExceptT Failure (StateM σ) β}
    (ha : FailsIn stage a) (hb : ∀ r, FailsIn stage (b r)) : FailsIn stage (a >>= b) := by
  intro w f h
  rw [ExceptT.run_bind] at h
  rcases hr : a.run w with ⟨e | r, w'⟩
  · rw [bind_of hr] at h
    cases h
    exact ha w f (by rw [hr])
  · rw [bind_of hr] at h
    exact hb r w' f h

end FailsIn

theorem build_failsIn (p : Partition) (dir : String) :
    FailsIn .build (x.build p x.trusted x.variant dir) :=
  FailsIn.adapt fun _ => rfl

theorem execute_failsIn (executable dir : String) :
    FailsIn .run (x.execute executable x.target dir) := by
  refine FailsIn.bind (FailsIn.adapt fun _ => rfl) fun ended => ?_
  split
  · refine FailsIn.bind ?_ fun text => FailsIn.ret _
    rw [Setup.outputText]
    split
    · exact FailsIn.ret _
    · exact FailsIn.adapt fun _ => rfl
  · intro w f h
    cases h
    rfl

/-- Once there is an executable, nothing that goes wrong is a failure of the build. -/
theorem isUnbuilt_judge {r : Except Failure (String × Nat)}
    (hr : ∀ f, r = .error f → f.stage = .run) : (x.judge r).1.isUnbuilt = false := by
  match r with
  | .error f => simp [judge, Outcome.isUnbuilt, hr f rfl]
  | .ok (output, ms) =>
      rw [judge, compare]
      cases x.lab.comparator.compare x.baseline.output output <;> rfl

/-! ### The passes on a steady outside -/

/-- Nobody asks to stop, and for the partitions of `domain` what happens outside comes to outcomes
that look like `seen`. -/
structure SteadyThrough (x : Experiment σ) (g : Look) (domain : Partition → Prop)
    (seen : Partition → Outcome) (inv : Track → σ → Prop) : Prop where
  going {t : Track} {w : σ} : inv t w → (x.lab.cancelled w).1 = false
  looked {t : Track} {w : σ} : inv t w → inv t (x.lab.cancelled w).2
  logged {t : Track} {w : σ} (r : Trial) : inv t w → inv t ((x.lab.appendLog r).runOn w).2
  shown {t : Track} {w : σ} (r : Trial) : inv t w → inv t (x.lab.observe r w).2
  entered {t : Track} {w w' : σ} {label path : String} : inv t w →
    (x.lab.makeDirectory label).runOn w = (.ok path, w') →
    path ∉ t.directories ∧ inv (t.enter path) w'
  barred {t : Track} {w w' : σ} {p : Partition} {e : Error} : inv t w → domain p →
    (x.lab.makeDirectory (directoryLabel p)).runOn w = (.error e, w') →
    Outcome.through g (.error ⟨.build, e.message⟩) = seen p ∧ inv t w'
  stored {t : Track} {w w' : σ} {p : Partition} {dir : String} {made : Built} : inv t w →
    domain p → dir ∈ t.directories → (∀ q ∈ t.products, q.workdir ≠ dir) →
    (x.build p x.trusted x.variant dir).run w = (.ok made, w') → inv (t.store ⟨dir, p, made⟩) w'
  unbuilt {t : Track} {w w' : σ} {p : Partition} {dir : String} {f : Failure} : inv t w →
    domain p → dir ∈ t.directories → (∀ q ∈ t.products, q.workdir ≠ dir) →
    (x.build p x.trusted x.variant dir).run w = (.error f, w') →
    Outcome.through g (.error f) = seen p ∧ inv (t.attempt p) w'
  ran {t : Track} {w w' : σ} {q : Product} {r : Except Failure (String × Nat)} : inv t w →
    domain q.partition → q ∈ t.products →
    (x.execute q.made.executable x.target q.workdir).run w = (r, w') →
    (x.judge r).1.through g = seen q.partition ∧ inv (t.run q.partition) w'
  left {t : Track} {w : σ} {dir : String} : inv t w → dir ∈ t.directories →
    inv (t.leave dir) ((x.lab.removeDirectory dir).runOn w).2

theorem Steady.through {domain : Partition → Prop} {truth seen : Partition → Outcome}
    {inv : Track → σ → Prop} {g : Look} (hx : x.Steady domain truth inv)
    (hseen : ∀ p, domain p → (truth p).through g = seen p) : x.SteadyThrough g domain seen inv :=
  { hx with
    barred := fun hw hp hmake =>
      ⟨(hx.barred hw hp hmake).1 ▸ hseen _ hp, (hx.barred hw hp hmake).2⟩
    unbuilt := fun hw hp hdir hempty hbuild =>
      ⟨(hx.unbuilt hw hp hdir hempty hbuild).1 ▸ hseen _ hp,
        (hx.unbuilt hw hp hdir hempty hbuild).2⟩
    ran := fun hw hp hq hrun =>
      ⟨(hx.ran hw hp hq hrun).1 ▸ hseen _ hp, (hx.ran hw hp hq hrun).2⟩ }

section Passes

variable {domain : Partition → Prop} {o : Partition → Outcome} {inv : Track → σ → Prop}
  {tasks others : List Task} {k : Task} {t : Track} {g : Look}

/-- Where there is an executable, no failure of the build is seen. -/
theorem SteadyThrough.isUnbuilt_of_product (hx : x.SteadyThrough g domain o inv) {w : σ}
    (hw : inv t w) {q : Product} (hq : domain q.partition) (hmem : q ∈ t.products) :
    (o q.partition).isUnbuilt = false := by
  obtain ⟨hseen, -⟩ := hx.ran hw hq hmem rfl
  rw [← hseen, Outcome.isUnbuilt_through]
  exact isUnbuilt_judge fun f hf => execute_failsIn _ _ w f hf

/-- The other tasks keep their products while the outside moves on. -/
theorem finish_stocked (hx : x.SteadyThrough g domain o inv) {r : Outcome}
    {buildMs? runMs? : Option Nat} (h : Stocked domain inv others t s)
    (hdomain : domain k.partition)
    (hsignature : k.signature = k.partition.signature) :
    Stocked domain inv ((x.finish k r buildMs? runMs? s).1 :: others) t
        (x.finish k r buildMs? runMs? s).2 ∧
      ((x.finish k r buildMs? runMs? s).1.through g, (x.finish k r buildMs? runMs? s).2.through g) =
        silent.finish (k.through g) (r.through g) (buildMs?.map fun _ => 0) (runMs?.map fun _ => 0)
          (s.through g) := by
  refine ⟨?_, finish_through g k r buildMs? runMs? (hx.going h.world)⟩
  rw [finish_eq x (hx.going h.world), record_eq]
  refine Stocked.unbuilt ?_ hdomain hsignature rfl
  exact h.move (hx.shown _ (hx.logged _ (hx.looked h.world))) h.housed
    fun k' hk' w made hbuilt => (h.held k' hk' w made hbuilt).2

/-- The task in hand settles once the outside has moved on. -/
theorem finish_of_move (hx : x.SteadyThrough g domain o inv) {r : Outcome}
    (hr : r.through g = o k.partition) {s' : Session σ} {t' : Track} {buildMs? runMs? : Option Nat}
    (h : Stocked domain inv (k :: others) t s) (hworld : inv t' s'.site.world)
    (hhoused : t'.Housed) (hproducts : ∀ k' ∈ others, ∀ w made, k'.progress = .built w made →
      ⟨w.path, k'.partition, made⟩ ∈ t'.products) :
    ∃ t', Stocked domain inv ((x.finish k r buildMs? runMs? s').1 :: others) t'
        (x.finish k r buildMs? runMs? s').2 ∧
      ((x.finish k r buildMs? runMs? s').1.through g,
          (x.finish k r buildMs? runMs? s').2.through g) =
        silent.finish (k.through g) (o k.partition) (buildMs?.map fun _ => 0)
          (runMs?.map fun _ => 0) (s'.through g) := by
  obtain ⟨hdomain, hsignature⟩ := h.tasked k List.mem_cons_self
  rw [← hr]
  exact ⟨t', finish_stocked hx (h.tail.move hworld hhoused hproducts) hdomain hsignature⟩

theorem buildTask_through (hx : x.SteadyThrough g domain o inv)
    (h : Stocked domain inv (k :: others) t s) :
    ∃ t', Stocked domain inv ((x.buildTask k s).1 :: others) t' (x.buildTask k s).2 ∧
      ((x.buildTask k s).1.through g, (x.buildTask k s).2.through g) =
        buildSeen o (k.through g) (s.through g) := by
  obtain ⟨hdomain, hsignature⟩ := h.tasked k List.mem_cons_self
  have hkept : ∀ k' ∈ others, ∀ w made, k'.progress = .built w made →
      ⟨w.path, k'.partition, made⟩ ∈ t.products :=
    fun k' hk' w made hbuilt => (h.tail.held k' hk' w made hbuilt).2
  have hwaits (hk : k.progress = .waiting) : (k.through g).progress = .waiting := by
    rw [Task.through, hk, Progress.through]
  have hturn := buildTask_turn x k s
  generalize x.buildTask k s = r at hturn ⊢
  cases hturn with
  | other hk =>
      refine ⟨t, h, ?_⟩
      rw [buildSeen_other]
      cases hprogress : k.progress <;> simp_all [Task.through, Progress.through]
  | barred hk hmake =>
      rw [hsignature] at hmake
      obtain ⟨hseen, hw⟩ := hx.barred h.world hdomain hmake
      have hfails : (o k.partition).isUnbuilt = true := by rw [← hseen]; rfl
      rw [buildSeen_unbuilt (hwaits hk) hfails]
      exact finish_of_move hx hseen h hw h.housed hkept
  | @unbuilt path f w w' hk hmake hbuild =>
      rw [hsignature] at hmake
      obtain ⟨hfresh, hw⟩ := hx.entered h.world hmake
      have hempty := h.housed.workdir_ne hfresh
      obtain ⟨hseen, hw'⟩ := hx.unbuilt hw hdomain List.mem_cons_self hempty hbuild
      obtain ⟨t', hdropped, hhoused, -, -, hproducts⟩ :=
        drop_tracked (fun hs hmem => hx.left hs hmem) { path := path }
          ⟨w', s.site.ledger.enter⟩ rfl List.mem_cons_self hw' (h.housed.enter path)
      have hfails : (o k.partition).isUnbuilt = true := by
        rw [← hseen, Outcome.isUnbuilt_through]
        exact decide_eq_true (build_failsIn _ _ w f (by rw [hbuild]))
      rw [buildSeen_unbuilt (hwaits hk) hfails]
      refine finish_of_move hx hseen h hdropped hhoused fun k' hk' w made hbuilt => ?_
      have hmem := hkept k' hk' w made hbuilt
      exact hproducts _ hmem (hempty _ hmem)
  | @built path made w w' hk hmake hbuild =>
      rw [hsignature] at hmake
      obtain ⟨hfresh, hw⟩ := hx.entered h.world hmake
      have hstored := hx.stored hw hdomain List.mem_cons_self (h.housed.workdir_ne hfresh) hbuild
      have hsucceeds : (o k.partition).isUnbuilt = false :=
        hx.isUnbuilt_of_product hstored hdomain List.mem_cons_self
      rw [buildSeen_built (hwaits hk) hsucceeds]
      exact ⟨_, h.store rfl hfresh hstored, rfl⟩

theorem runTask_through (hx : x.SteadyThrough g domain o inv)
    (h : Stocked domain inv (k :: others) t s) :
    ∃ t', Stocked domain inv ((x.runTask k s).1 :: others) t' (x.runTask k s).2 ∧
      ((x.runTask k s).1.through g, (x.runTask k s).2.through g) =
        runSeen o (k.through g) (s.through g) := by
  obtain ⟨hdomain, -⟩ := h.tasked k List.mem_cons_self
  cases hk : k.progress with
  | built w made =>
      have hbuilt : (k.through g).progress = .built ⟨"", true⟩ ⟨"", 0, 0⟩ := by
        rw [Task.through, hk, Progress.through]
      obtain ⟨hheld, hproduct⟩ := h.held k List.mem_cons_self w made hk
      rcases hrun : (x.execute made.executable x.target w.path).run s.site.world with ⟨ran, v⟩
      obtain ⟨hseen, hv⟩ := hx.ran h.world hdomain hproduct hrun
      obtain ⟨t', hdropped, hhoused, -, -, hproducts⟩ :=
        drop_tracked (t := t.run k.partition) (fun hs hmem => hx.left hs hmem) w
          ⟨v, s.site.ledger⟩ hheld (h.housed _ hproduct) hv h.housed
      have htimed : ((x.judge ran).2.map fun _ => 0) = (o k.partition).toOption.map fun _ => 0 := by
        rw [judge_snd, ← hseen]
        cases (x.judge ran).1 <;> rfl
      rw [runTask_built hk hrun, runSeen_built hbuilt]
      show ∃ t', _ ∧ _ = silent.finish (k.through g) (o k.partition) ((some made.ms).map fun _ => 0)
        ((o k.partition).toOption.map fun _ => 0) (s.through g)
      rw [← htimed]
      refine finish_of_move hx hseen h hdropped hhoused fun k' hk' w' made' hbuilt' => ?_
      exact hproducts _ (h.tail.held k' hk' w' made' hbuilt').2 (h.workdir_ne hk' hk hbuilt')
  | _ =>
      rw [runTask_other (by rw [hk]; rfl)]
      refine ⟨t, h, ?_⟩
      rw [runSeen_other (by rw [Task.through, hk]; rfl)]

theorem record_stocked (hx : x.SteadyThrough g domain o inv) (p : Partition) (r : Outcome)
    (buildMs? runMs? : Option Nat) (cached : Bool) (h : Stocked domain inv tasks t s) :
    Stocked domain inv tasks t (x.record p r buildMs? runMs? cached s).2 := by
  rw [record_eq]
  exact h.move (hx.shown _ (hx.logged _ h.world)) h.housed
    fun k hk w made hbuilt => (h.held k hk w made hbuilt).2

/-- The first pass only reads what is remembered. -/
theorem recallAll_through (hx : x.SteadyThrough g domain o inv) {ps : List Partition}
    (seen : List String) (hps : ∀ p ∈ ps, domain p) (h : Stocked domain inv [] t s) :
    ∃ tasks s', x.recallAll seen ps s = (tasks, s') ∧ Stocked domain inv tasks t s' ∧
      silent.recallAll seen ps (s.through g) = (tasks.map (Task.through g), (s'.through g)) := by
  induction ps generalizing seen s with
  | nil => exact ⟨[], s, rfl, h, rfl⟩
  | cons p rest ih =>
      obtain ⟨hp, hrest⟩ := List.forall_mem_cons.mp hps
      have hmemory := s.remembered?_through g p.signature
      cases hknown : s.remembered? p.signature with
      | some r =>
          obtain ⟨tasks, s', heq, hstocked, halike⟩ :=
            ih seen hrest (record_stocked hx p r none none true h)
          rw [hknown] at hmemory
          rw [record_through] at halike
          exact ⟨_, s', recallAll_known hknown heq, hstocked.unbuilt hp rfl rfl,
            recallAll_known hmemory halike⟩
      | none =>
          rw [hknown] at hmemory
          by_cases hseen : p.signature ∈ seen
          · obtain ⟨tasks, s', heq, hstocked, halike⟩ := ih seen hrest h
            exact ⟨_, s', recallAll_repeated hknown hseen heq, hstocked.unbuilt hp rfl rfl,
              recallAll_repeated hmemory hseen halike⟩
          · obtain ⟨tasks, s', heq, hstocked, halike⟩ := ih (p.signature :: seen) hrest h
            exact ⟨_, s', recallAll_new hknown hseen heq, hstocked.unbuilt hp rfl rfl,
              recallAll_new hmemory hseen halike⟩

/-- A pass that commutes with `through` at one task commutes with it at all tasks. -/
theorem mapM_through {f : Task → StateM (Session σ) Task} {f' : Task → StateM (Session Unit) Task}
    (hstep : ∀ {k : Task} {others : List Task} {t : Track} {s : Session σ},
      Stocked domain inv (k :: others) t s →
      ∃ t', Stocked domain inv ((f k s).1 :: others) t' (f k s).2 ∧
        ((f k s).1.through g, (f k s).2.through g) = f' (k.through g) (s.through g))
    {tasks done : List Task} (h : Stocked domain inv (tasks ++ done) t s) :
    ∃ t', Stocked domain inv ((tasks.mapM f s).1 ++ done) t' (tasks.mapM f s).2 ∧
      ((tasks.mapM f s).1.map (Task.through g), (tasks.mapM f s).2.through g) =
        (tasks.map (Task.through g)).mapM f' (s.through g) := by
  induction tasks generalizing done t s with
  | nil => exact ⟨t, h, rfl⟩
  | cons k tasks ih =>
      obtain ⟨t₁, h₁, halike₁⟩ := hstep h
      -- The task is done with and makes way for the next one.
      obtain ⟨t₂, h₂, halike₂⟩ := ih (h₁.perm List.perm_middle.symm)
      refine ⟨t₂, ?_, ?_⟩
      · rw [List.mapM_cons]
        exact h₂.perm List.perm_middle
      · rw [List.mapM_cons, List.map_cons, List.mapM_cons, bind_of halike₁.symm,
          bind_of halike₂.symm]
        rfl

theorem settleTask_through (hx : x.SteadyThrough g domain o inv) (h : Stocked domain inv [] t s)
    (k : Task) :
    Stocked domain inv [] t (x.settleTask k s).2 ∧
      ((x.settleTask k s).1.through g, (x.settleTask k s).2.through g) =
        settleSeen g (k.through g) (s.through g) := by
  cases hk : k.progress with
  | settled r =>
      rw [settleTask_settled hk,
        settleSeen_settled (r := r.through g) (by rw [Task.through, hk]; rfl)]
      exact ⟨h, rfl⟩
  | _ =>
      rw [settleTask_other (by simp [hk]),
        settleSeen_other (by simp [Task.through, hk, Progress.through])]
      refine ⟨record_stocked hx _ _ none none true h, ?_⟩
      have hrecalled : ((s.through g).remembered? (k.through g).signature).getD
          (.error ((⟨.run, "cancelled"⟩ : Failure).through g)) =
            ((s.remembered? k.signature).getD (.error ⟨.run, "cancelled"⟩)).through g := by
        rw [Session.remembered?_through]
        show ((s.remembered? k.signature).map (Outcome.through g)).getD _ = _
        cases s.remembered? k.signature <;> rfl
      simp only [hrecalled, record_through]
      rfl

theorem settleAll_through (hx : x.SteadyThrough g domain o inv) (h : Stocked domain inv [] t s) :
    Stocked domain inv [] t (tasks.mapM x.settleTask s).2 ∧
      ((tasks.mapM x.settleTask s).1.map (Outcome.through g),
        (tasks.mapM x.settleTask s).2.through g) =
        (tasks.map (Task.through g)).mapM (settleSeen g) (s.through g) := by
  induction tasks generalizing s with
  | nil => exact ⟨h, rfl⟩
  | cons k tasks ih =>
      obtain ⟨h₁, halike₁⟩ := settleTask_through hx h k
      obtain ⟨h₂, halike₂⟩ := ih h₁
      rw [List.mapM_cons]
      refine ⟨h₂, ?_⟩
      rw [List.map_cons, List.mapM_cons, bind_of halike₁.symm, bind_of halike₂.symm]
      rfl

/-- A batch commutes with `through`. -/
theorem batch_through (hx : x.SteadyThrough g domain o inv) {ps : List Partition}
    (hps : ∀ p ∈ ps, domain p) (h : Stocked domain inv [] t s) :
    ∃ t', Stocked domain inv [] t' (x.batch ps s).2 ∧
      ((x.batch ps s).1.map (Outcome.through g), (x.batch ps s).2.through g) =
        batchSeen g o ps (s.through g) := by
  obtain ⟨tasks, s₁, hrecall, h₁, halike₁⟩ := recallAll_through hx [] hps h
  rw [← List.append_nil tasks] at h₁
  obtain ⟨t₂, h₂, halike₂⟩ := mapM_through (fun h => buildTask_through hx h) h₁
  obtain ⟨t₃, h₃, halike₃⟩ := mapM_through (fun h => runTask_through hx h) h₂
  obtain ⟨h₄, halike₄⟩ := settleAll_through hx (.idle h₃.world h₃.housed)
  rw [batch, bind_of hrecall]
  refine ⟨t₃, h₄, ?_⟩
  rw [batchSeen, bind_of halike₁, bind_of halike₂.symm, bind_of halike₃.symm]
  exact halike₄

end Passes

end Experiment

/-! ### Two sessions side by side -/

/-- Two sessions between two batches that look alike. -/
structure Session.Abreast {σ' : Type} (g : Look) (inv : Track → σ → Prop)
    (inv' : Track → σ' → Prop) (s : Session σ) (s' : Session σ') : Prop where
  world : ∃ t, inv t s.site.world ∧ t.Housed
  world' : ∃ t', inv' t' s'.site.world ∧ t'.Housed
  alike : s.through g = s'.through g

/-- Steady outsides whose outcomes look alike are in step. -/
theorem Experiment.bench_inStep {σ' : Type} {g : Look} (hg : g.Shown) {x : Experiment σ}
    {x' : Experiment σ'} {domain : Partition → Prop} {seen : Partition → Outcome}
    {inv : Track → σ → Prop} {inv' : Track → σ' → Prop} (hx : x.SteadyThrough g domain seen inv)
    (hx' : x'.SteadyThrough g domain seen inv') :
    x.bench.InStep g x'.bench (Session.Abreast g inv inv') domain where
  shown := hg
  looked := by
    rintro s s' ⟨⟨t, hworld, hhoused⟩, ⟨t', hworld', hhoused'⟩, halike⟩
    refine ⟨(hx.going hworld).trans (hx'.going hworld').symm, ?_⟩
    exact ⟨⟨t, hx.looked hworld, hhoused⟩, ⟨t', hx'.looked hworld', hhoused'⟩, halike⟩
  tried hps := by
    rintro s s' ⟨⟨t, hworld, hhoused⟩, ⟨t', hworld', hhoused'⟩, halike⟩
    obtain ⟨t₁, h₁, hbatch⟩ := batch_through hx hps (.idle hworld hhoused)
    obtain ⟨t₁', h₁', hbatch'⟩ := batch_through hx' hps (.idle hworld' hhoused')
    rw [halike] at hbatch
    obtain ⟨houtcomes, hsessions⟩ := Prod.mk.inj (hbatch.trans hbatch'.symm)
    exact ⟨houtcomes, ⟨t₁, h₁.world, h₁.housed⟩, ⟨t₁', h₁'.world, h₁'.housed⟩, hsessions⟩

end Culprit
