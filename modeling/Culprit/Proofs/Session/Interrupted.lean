import Culprit.Proofs.Bisection.Localisation
import Culprit.Proofs.Search.Culprits
import Culprit.Proofs.Search.Removal
import Culprit.Proofs.Session.Kept

/-!
Trials that a request to stop interrupts. As long as no request has come, what happens outside
comes to the outcome of each partition; after one, a trial may fail instead. No interrupted trial
is remembered, so what a batch recalls is right at any time, and each of its outcomes is right or
excused by a request. So a request only removes findings of a search.
-/

namespace Culprit

variable {σ : Type}

/-- A request to stop stays, and unless there is one, what happens outside for the partitions of
`domain` comes to `truth`. -/
structure Experiment.Interruptible (x : Experiment σ) (domain : Partition → Prop)
    (truth : Partition → Outcome) (inv : Track → σ → Prop) (fired : σ → Prop) : Prop where
  latched : x.Latched fired
  looked {t : Track} {w : σ} : inv t w → inv t (x.lab.cancelled w).2
  logged {t : Track} {w : σ} (r : Trial) : inv t w → inv t ((x.lab.appendLog r).runOn w).2
  shown {t : Track} {w : σ} (r : Trial) : inv t w → inv t (x.lab.observe r w).2
  entered {t : Track} {w w' : σ} {label path : String} : inv t w →
    (x.lab.makeDirectory label).runOn w = (.ok path, w') →
    path ∉ t.directories ∧ inv (t.enter path) w'
  barred {t : Track} {w w' : σ} {p : Partition} {e : Error} : inv t w → domain p →
    (x.lab.makeDirectory (directoryLabel p)).runOn w = (.error e, w') →
    Outcome.Excused (truth p) (.error ⟨.build, e.message⟩) (fired w') ∧ inv t w'
  stored {t : Track} {w w' : σ} {p : Partition} {dir : String} {made : Built} : inv t w →
    domain p → dir ∈ t.directories → (∀ q ∈ t.products, q.workdir ≠ dir) →
    (x.build p x.trusted x.variant dir).run w = (.ok made, w') → inv (t.store ⟨dir, p, made⟩) w'
  unbuilt {t : Track} {w w' : σ} {p : Partition} {dir : String} {f : Failure} : inv t w →
    domain p → dir ∈ t.directories → (∀ q ∈ t.products, q.workdir ≠ dir) →
    (x.build p x.trusted x.variant dir).run w = (.error f, w') →
    Outcome.Excused (truth p) (.error f) (fired w') ∧ inv (t.attempt p) w'
  ran {t : Track} {w w' : σ} {q : Product} {r : Except Failure (String × Nat)} : inv t w →
    domain q.partition → q ∈ t.products →
    (x.execute q.made.executable x.target q.workdir).run w = (r, w') →
    Outcome.Excused (truth q.partition) (x.judge r).1 (fired w') ∧ inv (t.run q.partition) w'
  left {t : Track} {w : σ} {dir : String} : inv t w → dir ∈ t.directories →
    inv (t.leave dir) ((x.lab.removeDirectory dir).runOn w).2

/-- What is remembered is right, and a task that is over has the right outcome unless a request
came by now. -/
structure Trusted (domain : Partition → Prop) (truth : Partition → Outcome)
    (inv : Track → σ → Prop) (fired : σ → Prop) (tasks : List Task) (t : Track)
    (s : Session σ) : Prop where
  stocked : Stocked domain inv tasks t s
  recalls : ∀ p o, domain p → s.remembered? p.signature = some o → o = truth p
  settled : ∀ k ∈ tasks, ∀ o, k.progress = .settled o →
    Outcome.Excused (truth k.partition) o (fired s.site.world)

namespace Trusted

variable {domain : Partition → Prop} {truth : Partition → Outcome} {inv : Track → σ → Prop}
  {fired : σ → Prop} {k : Task} {tasks tasks' others : List Task} {t : Track} {s : Session σ}

theorem perm (htasks : tasks.Perm tasks') (h : Trusted domain truth inv fired tasks t s) :
    Trusted domain truth inv fired tasks' t s :=
  ⟨h.stocked.perm htasks, h.recalls, fun k hk => h.settled k (htasks.mem_iff.mpr hk)⟩

/-- A task with no directory of its own. -/
theorem push (h : Trusted domain truth inv fired others t s) (hdomain : domain k.partition)
    (hsignature : k.signature = k.partition.signature) (hunbuilt : k.progress.isBuilt = false)
    (hsettled : ∀ o, k.progress = .settled o →
      Outcome.Excused (truth k.partition) o (fired s.site.world)) :
    Trusted domain truth inv fired (k :: others) t s :=
  ⟨h.stocked.unbuilt hdomain hsignature hunbuilt, h.recalls,
    List.forall_mem_cons.mpr ⟨hsettled, h.settled⟩⟩

theorem tail (h : Trusted domain truth inv fired (k :: others) t s) :
    Trusted domain truth inv fired others t s :=
  ⟨h.stocked.tail, h.recalls, (List.forall_mem_cons.mp h.settled).2⟩

/-- The outside moves on, keeps the products of the tasks and forgets no request. -/
theorem move {t' : Track} {site : Site σ} {executed : Nat}
    (h : Trusted domain truth inv fired tasks t s) (hworld : inv t' site.world)
    (hhoused : t'.Housed) (hkept : fired s.site.world → fired site.world)
    (hproducts : ∀ k ∈ tasks, ∀ w made, k.progress = .built w made →
      ⟨w.path, k.partition, made⟩ ∈ t'.products) :
    Trusted domain truth inv fired tasks t' { s with site := site, executed := executed } :=
  ⟨h.stocked.move hworld hhoused hproducts, h.recalls,
    fun k hk o ho => (h.settled k hk o ho).imp_right (And.imp_left hkept)⟩

/-- A right outcome is remembered, for all partitions of its signature. -/
theorem remember (hsame : SameBySignature domain truth)
    (h : Trusted domain truth inv fired others t s) (hdomain : domain k.partition)
    (hsignature : k.signature = k.partition.signature) :
    Trusted domain truth inv fired others t (s.remember k.signature (truth k.partition)) := by
  refine ⟨h.stocked.move h.stocked.world h.stocked.housed
    fun k hk w made hbuilt => (h.stocked.held k hk w made hbuilt).2, fun p o hp ho => ?_, h.settled⟩
  rw [Session.remembered?_remember] at ho
  split at ho
  · next heq =>
      obtain rfl : truth k.partition = o := Option.some.inj ho
      exact hsame _ _ hdomain hp (hsignature.symm.trans heq.symm)
  · exact h.recalls p o hp ho

end Trusted

theorem Outcome.Excused.mono {right o : Outcome} {cut cut' : Prop}
    (h : Outcome.Excused right o cut) (hcut : cut → cut') : Outcome.Excused right o cut' :=
  h.imp_right fun ⟨hfired, hfailed⟩ => ⟨hcut hfired, hfailed⟩

namespace Experiment

variable {x : Experiment σ} {domain : Partition → Prop} {truth : Partition → Outcome}
  {inv : Track → σ → Prop} {fired : σ → Prop} {k : Task} {tasks others : List Task}
  {t t' : Track} {s s' : Session σ}

/-! ### A request is kept -/

/-- What no action of a trial forgets, none of its passes forgets. -/
theorem Latched.kept {α : Type} {a : StateM (Session σ) α}
    (ha : Preserves (Session.Holds fired fun _ => False) a) (hfired : fired s.site.world) :
    fired (a s).2.site.world :=
  (ha s (.inl hfired)).resolve_right id

/-! ### One task -/

theorem record_trusted (hx : x.Interruptible domain truth inv fired) (p : Partition) (o : Outcome)
    (buildMs? runMs? : Option Nat) (cached : Bool)
    (h : Trusted domain truth inv fired tasks t s) :
    Trusted domain truth inv fired tasks t (x.record p o buildMs? runMs? cached s).2 := by
  have hkept (hfired : fired s.site.world) :
      fired (x.record p o buildMs? runMs? cached s).2.site.world :=
    Latched.kept (record_holds hx.latched.keeps p o buildMs? runMs? cached) hfired
  refine ⟨?_, h.recalls, fun k hk o ho => (h.settled k hk o ho).mono hkept⟩
  rw [record_eq]
  exact h.stocked.move (hx.shown _ (hx.logged _ h.stocked.world)) h.stocked.housed
    fun k hk w made hbuilt => (h.stocked.held k hk w made hbuilt).2

/-- The end of a trial. A request that came during the trial is seen here, and then nothing is
remembered. -/
theorem finish_trusted (hx : x.Interruptible domain truth inv fired)
    (hsame : SameBySignature domain truth) {o : Outcome} (buildMs? runMs? : Option Nat)
    (h : Trusted domain truth inv fired others t s) (hdomain : domain k.partition)
    (hsignature : k.signature = k.partition.signature)
    (ho : Outcome.Excused (truth k.partition) o (fired s.site.world)) :
    Trusted domain truth inv fired ((x.finish k o buildMs? runMs? s).1 :: others) t
      (x.finish k o buildMs? runMs? s).2 := by
  have hfinished : fired s.site.world → fired (x.finish k o buildMs? runMs? s).2.site.world :=
    Latched.kept (finish_holds hx.latched.keeps (fun _ _ => id) o buildMs? runMs?)
  rw [finish_fst]
  refine Trusted.push ?_ hdomain hsignature rfl fun o' ho' => ?_
  · rcases hlook : x.lab.cancelled s.site.world with ⟨stop, w⟩
    have hworld := hx.looked h.stocked.world
    have hkept := hx.latched.keeps.lab.cancelled s.site.world
    rw [hlook] at hworld hkept
    have hlooked : Trusted domain truth inv fired others t { s with site.world := w } :=
      h.move hworld h.stocked.housed hkept
        fun k hk w made hbuilt => (h.stocked.held k hk w made hbuilt).2
    rw [finish, bind_of (Session.onWorld_eq hlook)]
    cases stop with
    | true => exact record_trusted hx k.partition o buildMs? runMs? false hlooked
    | false =>
        have hseen := (hx.latched.seen (w := s.site.world)).not
        have hquiet : ¬fired s.site.world := fun hfired =>
          hseen.mp (by simp [hlook]) (by rw [hlook]; exact hkept hfired)
        obtain rfl := ho.resolve_right fun hcut => hquiet hcut.1
        exact record_trusted hx k.partition _ buildMs? runMs? false
          (hlooked.remember hsame hdomain hsignature)
  · obtain rfl : o = o' := by simpa using ho'
    exact ho.mono hfinished

theorem buildTask_trusted (hx : x.Interruptible domain truth inv fired)
    (hsame : SameBySignature domain truth)
    (h : Trusted domain truth inv fired (k :: others) t s) :
    ∃ t', Trusted domain truth inv fired ((x.buildTask k s).1 :: others) t'
      (x.buildTask k s).2 := by
  obtain ⟨hdomain, hsignature⟩ := h.stocked.tasked k List.mem_cons_self
  have hothers := h.tail
  have hheld := hothers.stocked.held
  have hlab := hx.latched.keeps.lab
  have hturn := buildTask_turn x k s
  generalize x.buildTask k s = r at hturn ⊢
  cases hturn with
  | other => exact ⟨t, h⟩
  | barred hk hmake =>
      have hkept := (hlab.makeDirectory _).of_eq hmake
      rw [hsignature] at hmake
      obtain ⟨hexcused, hw⟩ := hx.barred h.stocked.world hdomain hmake
      refine ⟨t, finish_trusted hx hsame none none ?_ hdomain hsignature hexcused⟩
      exact hothers.move hw h.stocked.housed hkept
        fun k' hk' w' made' hbuilt => (hheld k' hk' w' made' hbuilt).2
  | @unbuilt path f w w' hk hmake hbuild =>
      have hkept := (hlab.makeDirectory _).of_eq hmake
      have hkept' := (hx.latched.keeps.build path trivial).of_eq hbuild
      have hdropKept := hlab.drop { path := path } ⟨w', s.site.ledger.enter⟩
      rw [hsignature] at hmake
      obtain ⟨hfresh, hw⟩ := hx.entered h.stocked.world hmake
      have hempty := h.stocked.housed.workdir_ne hfresh
      obtain ⟨hexcused, hw'⟩ := hx.unbuilt hw hdomain List.mem_cons_self hempty hbuild
      obtain ⟨t', hdropped, hhoused, -, -, hproducts⟩ :=
        drop_tracked (fun hs hmem => hx.left hs hmem) { path := path }
          ⟨w', s.site.ledger.enter⟩ rfl List.mem_cons_self hw' (h.stocked.housed.enter path)
      refine ⟨t', finish_trusted hx hsame none none ?_ hdomain hsignature
        (hexcused.mono hdropKept)⟩
      refine hothers.move hdropped hhoused
        (fun hfired => hdropKept (hkept' (hkept hfired))) fun k' hk' v made' hbuilt => ?_
      have hproduct := (hheld k' hk' v made' hbuilt).2
      exact hproducts _ hproduct (hempty _ hproduct)
  | @built path made w w' hk hmake hbuild =>
      have hkept := (hlab.makeDirectory _).of_eq hmake
      have hkept' := (hx.latched.keeps.build path trivial).of_eq hbuild
      rw [hsignature] at hmake
      obtain ⟨hfresh, hw⟩ := hx.entered h.stocked.world hmake
      have hempty := h.stocked.housed.workdir_ne hfresh
      have hstored := hx.stored hw hdomain List.mem_cons_self hempty hbuild
      refine ⟨_, h.stocked.store rfl hfresh hstored, h.recalls, ?_⟩
      refine List.forall_mem_cons.mpr ⟨fun o ho => by simp at ho, fun k' hk' o ho => ?_⟩
      exact (h.tail.settled k' hk' o ho).mono fun hfired => hkept' (hkept hfired)

theorem runTask_trusted (hx : x.Interruptible domain truth inv fired)
    (hsame : SameBySignature domain truth)
    (h : Trusted domain truth inv fired (k :: others) t s) :
    ∃ t', Trusted domain truth inv fired ((x.runTask k s).1 :: others) t'
      (x.runTask k s).2 := by
  obtain ⟨hdomain, hsignature⟩ := h.stocked.tasked k List.mem_cons_self
  have hlab := hx.latched.keeps.lab
  cases hk : k.progress with
  | built w made =>
      obtain ⟨hheld, hproduct⟩ := h.stocked.held k List.mem_cons_self w made hk
      rcases hrun : (x.execute made.executable x.target w.path).run s.site.world with ⟨ran, v⟩
      obtain ⟨hexcused, hv⟩ := hx.ran h.stocked.world hdomain hproduct hrun
      have hkept := (hx.latched.keeps.execute made.executable w.path).of_eq hrun
      obtain ⟨t', hdropped, hhoused, -, -, hproducts⟩ :=
        drop_tracked (t := t.run k.partition) (fun hs hmem => hx.left hs hmem) w
          ⟨v, s.site.ledger⟩ hheld (h.stocked.housed _ hproduct) hv h.stocked.housed
      have hdropKept := hlab.drop w ⟨v, s.site.ledger⟩
      rw [runTask_built hk hrun]
      refine ⟨t', finish_trusted hx hsame _ _ ?_ hdomain hsignature (hexcused.mono hdropKept)⟩
      refine h.tail.move hdropped hhoused (fun hfired => hdropKept (hkept hfired))
        fun k' hk' w' made' hbuilt => ?_
      exact hproducts _ (h.tail.stocked.held k' hk' w' made' hbuilt).2
        (h.stocked.workdir_ne hk' hk hbuilt)
  | _ =>
      rw [runTask_other (by rw [hk]; rfl)]
      exact ⟨t, h⟩

/-! ### Whole passes -/

/-- The first pass takes right outcomes from the memory. -/
theorem recallAll_trusted (hx : x.Interruptible domain truth inv fired) {ps : List Partition}
    (seen : List String) (hps : ∀ p ∈ ps, domain p)
    (h : Trusted domain truth inv fired [] t s) :
    Trusted domain truth inv fired (x.recallAll seen ps s).1 t (x.recallAll seen ps s).2 := by
  induction ps generalizing seen s with
  | nil => exact h
  | cons p rest ih =>
      obtain ⟨hp, hrest⟩ := List.forall_mem_cons.mp hps
      cases hknown : s.remembered? p.signature with
      | some o =>
          rw [recallAll_known hknown rfl]
          refine (ih seen hrest (record_trusted hx p o none none true h)).push hp rfl rfl ?_
          rintro o' ho
          obtain rfl : o = o' := by simpa using ho
          exact .inl (h.recalls p o hp hknown)
      | none =>
          by_cases hseen : p.signature ∈ seen
          · rw [recallAll_repeated hknown hseen rfl]
            exact (ih seen hrest h).push hp rfl rfl fun o ho => by simp at ho
          · rw [recallAll_new hknown hseen rfl]
            exact (ih _ hrest h).push hp rfl rfl fun o ho => by simp at ho

theorem settleTask_trusted (hx : x.Interruptible domain truth inv fired)
    (h : Trusted domain truth inv fired (k :: others) t s) :
    Trusted domain truth inv fired others t (x.settleTask k s).2 := by
  by_cases hk : ∃ o, k.progress = .settled o
  · obtain ⟨o, hk⟩ := hk
    rw [settleTask_settled hk]
    exact h.tail
  · rw [settleTask_other (not_exists.mp hk)]
    exact record_trusted hx _ _ none none true h.tail

theorem settleAll_memory (tasks : List Task) (s : Session σ) :
    (tasks.mapM x.settleTask s).2.memory = s.memory := by
  induction tasks generalizing s with
  | nil => rfl
  | cons k tasks ih =>
      have hk : (x.settleTask k s).2.memory = s.memory := by
        obtain ⟨p, signature, _ | _ | _ | _⟩ := k <;> rfl
      rw [List.mapM_cons]
      exact (ih _).trans hk

/-- What is missing from the memory in the last pass was cut short. -/
theorem settleTask_excused (h : Trusted domain truth inv fired (k :: others) t s) {cut : Prop}
    (hcut : fired s.site.world → cut) (hover : cut ∨ k.signature ∈ s.signatures) :
    Outcome.Excused (truth k.partition) (x.settleTask k s).1 cut := by
  obtain ⟨hdomain, hsignature⟩ := h.stocked.tasked k List.mem_cons_self
  by_cases hk : ∃ o, k.progress = .settled o
  · obtain ⟨o, hk⟩ := hk
    rw [settleTask_settled hk]
    exact (h.settled k List.mem_cons_self o hk).mono hcut
  · rw [settleTask_other (not_exists.mp hk)]
    cases hknown : s.remembered? k.signature with
    | some o => exact .inl (h.recalls k.partition o hdomain (hsignature ▸ hknown))
    | none => exact .inr ⟨hover.resolve_right (Session.remembered?_eq_none.mp hknown), _, rfl⟩

theorem settleAll_trusted (hx : x.Interruptible domain truth inv fired) {cut : Prop}
    (h : Trusted domain truth inv fired tasks t s)
    (hcut : fired (tasks.mapM x.settleTask s).2.site.world → cut)
    (hover : ∀ k ∈ tasks, cut ∨ k.signature ∈ s.signatures) :
    Trusted domain truth inv fired [] t (tasks.mapM x.settleTask s).2 ∧
      List.Forall₂ (fun k o => Outcome.Excused (truth k.partition) o cut) tasks
        (tasks.mapM x.settleTask s).1 := by
  induction tasks generalizing s with
  | nil => exact ⟨h, .nil⟩
  | cons k tasks ih =>
      obtain ⟨hk, hrest⟩ := List.forall_mem_cons.mp hover
      have hkept : fired s.site.world → cut := fun hfired => hcut <|
        Latched.kept (Preserves.mapM fun k _ => settleTask_holds hx.latched.keeps k) hfired
      rw [List.mapM_cons] at hcut ⊢
      have hmemory : (x.settleTask k s).2.memory = s.memory := settleAll_memory [k] s
      obtain ⟨h', hos⟩ := ih (settleTask_trusted hx h) hcut fun k' hk' => by
        rw [Session.signatures, hmemory]
        exact hrest k' hk'
      exact ⟨h', .cons (settleTask_excused h hkept hk) hos⟩

/-- Every outcome of a batch is right, or a request came by the end of the batch and the trial
failed. -/
theorem batch_trusted (hx : x.Interruptible domain truth inv fired)
    (hsame : SameBySignature domain truth) {ps : List Partition} (hps : ∀ p ∈ ps, domain p)
    (h : Trusted domain truth inv fired [] t s) :
    ∃ t', Trusted domain truth inv fired [] t' (x.batch ps s).2 ∧
      List.Forall₂ (fun p o => Outcome.Excused (truth p) o (fired (x.batch ps s).2.site.world)) ps
        (x.batch ps s).1 := by
  have hrecalled := recallAll_trusted hx [] hps h
  have hmade := congrArg (List.map Prod.fst) (recallAll_tasks (x := x) [] ps s)
  rcases hrecall : x.recallAll [] ps s with ⟨tasks, s₁⟩
  rw [hrecall] at hrecalled hmade
  rw [List.map_map, List.map_map] at hmade
  rw [← List.append_nil tasks] at hrecalled
  have hpasses {f : Task → StateM (Session σ) Task} {tasks : List Task} {s : Session σ}
      (hf : ∀ {k : Task} {others : List Task} {t : Track} {s : Session σ},
        Trusted domain truth inv fired (k :: others) t s →
        ∃ t', Trusted domain truth inv fired ((f k s).1 :: others) t' (f k s).2)
      (h : ∃ t, Trusted domain truth inv fired (tasks ++ []) t s) :
      ∃ t, Trusted domain truth inv fired ((tasks.mapM f s).1 ++ []) t (tasks.mapM f s).2 :=
    mapM_tasks (J := fun ks s => ∃ t, Trusted domain truth inv fired ks t s)
      (fun hks ⟨t, h⟩ => ⟨t, h.perm hks⟩) (fun ⟨_, h⟩ => hf h) h
  have hbuilt := hpasses (buildTask_trusted hx hsame) ⟨t, hrecalled⟩
  rcases hbuild : tasks.mapM x.buildTask s₁ with ⟨built, s₂⟩
  rw [hbuild] at hbuilt
  obtain ⟨t', hran⟩ := hpasses (runTask_trusted hx hsame) hbuilt
  rcases hrun : built.mapM x.runTask s₂ with ⟨ran, s₃⟩
  rw [hrun, List.append_nil] at hran
  have hbatch := batch_of_passes hrecall hbuild hrun
  have hps' : ran.map (·.partition) = ps := by
    rw [map_partition_of_passes hbuild hrun]
    exact hmade.trans (List.map_id _)
  have hover : ∀ k ∈ ran, fired (x.batch ps s).2.site.world ∨ k.signature ∈ s₃.signatures := by
    intro k hk
    have hremembers := batch_remembers hx.latched (hps' ▸ List.mem_map_of_mem hk) s
    rw [← (hran.stocked.tasked k hk).2, Remembers, Session.Holds, hbatch,
      settleAll_memory] at hremembers
    rwa [hbatch]
  rw [hbatch] at hover ⊢
  obtain ⟨h', hos⟩ := settleAll_trusted hx hran id hover
  refine ⟨t', h', ?_⟩
  rw [← hps']
  exact List.forall₂_map_left_iff.mpr hos

/-- So a session is a bench where only requests to stop make trials fail. -/
theorem bench_interruptible (hx : x.Interruptible domain truth inv fired)
    (hsame : SameBySignature domain truth) :
    x.bench.Interruptible (fun s => ∃ t, Trusted domain truth inv fired [] t s)
      (fun s => fired s.site.world) domain truth where
  looked := fun ⟨t, h⟩ => ⟨t, h.move (hx.looked h.stocked.world) h.stocked.housed
    (hx.latched.keeps.lab.cancelled _) fun _ hk => absurd hk List.not_mem_nil⟩
  seen _ hfired := hx.latched.seen.mpr (hx.latched.keeps.lab.cancelled _ hfired)
  tried := fun ⟨_, h⟩ hps =>
    have ⟨t', h', _⟩ := batch_trusted hx hsame hps h
    ⟨t', h'⟩
  answered := fun ⟨_, h⟩ hps =>
    have ⟨_, _, hos⟩ := batch_trusted hx hsame hps h
    hos

end Experiment

/-! ### Requests on a shelf -/

namespace Scenario

variable {c : Scenario} {x : Experiment Shelf}

/-- The same outside without a request. -/
def undisturbed (c : Scenario) : Scenario :=
  { c with stops := fun _ => false }

theorem agrees_undisturbed (c : Scenario) : c.undisturbed.Agrees = c.Agrees := by
  funext start t s
  exact propext ⟨fun ⟨hbuilt, hran, hproducts, hdirs⟩ => ⟨hbuilt, hran, hproducts, hdirs⟩,
    fun ⟨hbuilt, hran, hproducts, hdirs⟩ => ⟨hbuilt, hran, hproducts, hdirs⟩⟩

/-- A build after the request fails; any other goes as it would without the request. -/
theorem build_disturbed (hlab : x.lab = c.lab) (p : Partition) (dir : String) (s : Shelf) :
    (x.build p x.trusted x.variant dir).run s =
      if c.stops (p :: s.built) then
        (.error ⟨.build, (Error.build .cancelled).message⟩, { s with built := p :: s.built })
      else
        (({ x with lab := c.undisturbed.lab } : Experiment Shelf).build p x.trusted x.variant
          dir).run s := by
  rw [Setup.build, Setup.build, hlab]
  show (Except.mapError _ (c.build _ s).1, (c.build _ s).2) =
    if _ then _
    else (Except.mapError _ (c.undisturbed.build _ s).1, (c.undisturbed.build _ s).2)
  rw [Scenario.build, Scenario.build]
  cases hstops : c.stops (p :: s.built) <;> simp [ExceptT.mk, hstops, undisturbed]
  rfl

/-- On a shelf only a request makes builds fail that would not fail otherwise. -/
theorem interruptible (domain : Partition → Prop) (start : Shelf) (hlab : x.lab = c.lab)
    (hrun : x.run.outputFile? = none)
    (hstays : ∀ p ps, c.stops ps = true → c.stops (p :: ps) = true) :
    x.Interruptible domain (c.truth x) (c.Agrees start) (fun w => c.stops w.built = true) := by
  have hquiet := Scenario.steady (c := c.undisturbed)
    (x := { x with lab := c.undisturbed.lab }) domain start rfl hrun fun _ => rfl
  rw [agrees_undisturbed] at hquiet
  obtain ⟨⟨lab, run, jobs, buildTimeout⟩, baseline, trusted, variant, target⟩ := x
  obtain rfl : lab = c.lab := hlab
  exact {
    latched :=
      { keeps := keeps rfl _ (fun ps => c.stops ps = true) fun p ps _ h => hstays p ps h
        seen := Iff.rfl }
    looked := fun h => h
    logged := hquiet.logged
    shown := hquiet.shown
    entered := fun {t w w' label path} h
        (hmake : (c.undisturbed.lab.makeDirectory label).runOn w = (.ok path, w')) =>
      hquiet.entered h hmake
    barred := fun h hp hmake => (hquiet.barred h hp hmake).imp_left fun h => .inl h.symm
    stored := fun h hp hdir hempty hbuild => by
      rw [build_disturbed rfl] at hbuild
      split at hbuild
      · cases hbuild
      · exact hquiet.stored h hp hdir hempty hbuild
    unbuilt := fun {t w w' p dir f} h hp hdir hempty hbuild => by
      rw [build_disturbed rfl] at hbuild
      split at hbuild
      · next hstops =>
          obtain ⟨-, rfl⟩ := Prod.mk.inj hbuild
          exact ⟨.inr ⟨hstops, f, rfl⟩, congrArg _ h.built, h.ran, h.products, h.directories⟩
      · exact (hquiet.unbuilt h hp hdir hempty hbuild).imp_left fun h => .inl h.symm
    ran := fun h hp hq hexecute => (hquiet.ran h hp hq hexecute).imp_left .inl
    left := hquiet.left }

end Scenario

/-! ### Searches -/

/-- Whenever a request to stop comes, and whichever trials it makes fail, the search reports some of
the suspects that it reports without the request, in the same order and with the same scores. Its
interactions are among those reported without the request, with some of the members that diverge
alone. -/
theorem search_interrupted {α σ τ : Type} [Candidate α] (x : Experiment σ) (space : Space α)
    (whole : Score) (truth : Partition → Outcome) (inv : Track → σ → Prop) (fired : σ → Prop)
    (t : Track) (session : Session σ) (bench : Bench τ) (going : τ → Prop) (start : τ)
    (hkeys : (Search.keys space).Nodup)
    (hx : x.Interruptible space.IsTrial truth inv fired)
    (hsame : SameBySignature space.IsTrial truth)
    (hs : Trusted space.IsTrial truth inv fired [] t session)
    (hbench : bench.FollowsOn going space.IsTrial truth) (hstart : going start) :
    ∃ part full s s', (Search.search x.bench space whole).runOn session = (.ok part, s) ∧
      (Search.search bench space whole).runOn start = (.ok full, s') ∧
      full.cancelled = false ∧ part.suspects.Sublist full.suspects ∧
      ∀ i ∈ part.interactions, ∃ j ∈ full.interactions, i.PartOf j := by
  obtain ⟨part, s, hpart, hsuspects, hinteractions⟩ := Search.search_below hkeys
    (Experiment.bench_interruptible hx hsame) (fun _ hp => hp) whole ⟨t, hs⟩
  obtain ⟨full, s', hfull, -, hgoing, hbag⟩ :=
    Search.search_bag_on space whole hkeys hbench hstart
  refine ⟨part, full.result, s, s', hpart, hfull, hgoing, ?_, fun i hi => ?_⟩
  · rw [Search.suspects_of_bag hbag]
    exact hsuspects
  · obtain ⟨j, hj, hij⟩ := hinteractions i hi
    exact ⟨j, (Search.Findings.perm_of_bag_eq hbag).2.1.symm.subset hj, hij⟩

namespace CutSingle

/-- Three files diverge together, and two of them alone. The request to stop comes while the second
of these is built. -/
def scenario : Scenario where
  units := Search.threeUnits.candidates
  symbols := fun _ => []
  ends := fun p => .ok ⟨.code 0,
    if p.variant ∈ [["a.c"], ["b.c"], ["a.c", "b.c", "c.c"]] then "x" else "", "", 1⟩
  stops := fun built => built.any fun p => decide (p.variant = ["b.c"])

theorem stays (p : Partition) (ps : List Partition) (h : scenario.stops ps = true) :
    scenario.stops (p :: ps) = true := by
  simp [scenario] at h ⊢
  exact .inr h

end CutSingle

/-- A request that comes while the members of an interaction are tried alone takes at most findings
of the search that is not disturbed. -/
theorem search_interrupted_cutSingle :
    (Search.keys Search.threeUnits).Nodup ∧ ∃ part full s s',
      (Search.search CutSingle.scenario.experiment.bench Search.threeUnits ⟨1⟩).runOn
        (.start ⟨.empty, .empty⟩) = (.ok part, s) ∧
      (Search.search CutSingle.scenario.undisturbed.experiment.bench Search.threeUnits ⟨1⟩).runOn
        (.start ⟨.empty, .empty⟩) = (.ok full, s') ∧
      full.cancelled = false ∧ part.suspects.Sublist full.suspects ∧
      ∀ i ∈ part.interactions, ∃ j ∈ full.interactions, i.PartOf j := by
  have hkeys : (Search.keys Search.threeUnits).Nodup := by decide
  have hsame : SameBySignature Search.threeUnits.IsTrial
      (CutSingle.scenario.truth CutSingle.scenario.experiment) :=
    fun p q hp hq h => congrArg _ (Search.eq_of_signature_eq hp hq h)
  have hquiet := Scenario.steady (c := CutSingle.scenario.undisturbed)
    (x := CutSingle.scenario.undisturbed.experiment) Search.threeUnits.IsTrial .empty rfl rfl
    fun _ => rfl
  have htrusted : Trusted Search.threeUnits.IsTrial
      (CutSingle.scenario.truth CutSingle.scenario.experiment)
      (CutSingle.scenario.Agrees .empty) (fun w => CutSingle.scenario.stops w.built = true) []
      .empty (.start ⟨.empty, .empty⟩) :=
    ⟨.idle (CutSingle.scenario.agrees_start _) fun _ hq => absurd hq List.not_mem_nil,
      fun _ _ _ h => by simp [Session.start, Session.remembered?] at h,
      fun _ hk => absurd hk List.not_mem_nil⟩
  exact ⟨hkeys, search_interrupted CutSingle.scenario.experiment Search.threeUnits ⟨1⟩
    (CutSingle.scenario.truth CutSingle.scenario.experiment) _ _ .empty
    (.start ⟨.empty, .empty⟩) CutSingle.scenario.undisturbed.experiment.bench _
    (.start ⟨.empty, .empty⟩) hkeys
    (Scenario.interruptible _ .empty rfl rfl CutSingle.stays) hsame htrusted
    (Experiment.bench_followsOn (hquiet.congr fun _ _ => rfl) hsame)
    ⟨[], .empty, start_underway (CutSingle.scenario.undisturbed.agrees_start _)⟩⟩

end Culprit
