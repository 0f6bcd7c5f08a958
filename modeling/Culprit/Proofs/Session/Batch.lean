import Culprit.Proofs.Session.Underway

/-!
The passes of a batch.
-/

namespace Culprit

variable {σ : Type}

namespace Experiment

section Passes

variable {x : Experiment σ} {k : Task} {s : Session σ}

theorem buildTask_barred {e : Error} {w : σ} (hwaiting : k.progress = .waiting)
    (hmake : (x.lab.makeDirectory (Workspace.cleanLabel (workspaceLabel k.signature) ++ "-")).runOn
      s.site.world = (.error e, w)) :
    x.buildTask k s = x.finish k (.error ⟨.build, e.message⟩) none none
      { s with site := { s.site with world := w }, executed := s.executed + 1 } := by
  rw [buildTask, hwaiting]
  refine (bind_of rfl).trans ?_
  exact bind_of (Session.onSite_eq (s := { s with executed := s.executed + 1 })
    (Site.acquire_error x.lab hmake))

theorem buildTask_unbuilt {path : String} {f : Failure} {w w' : σ}
    (hwaiting : k.progress = .waiting)
    (hmake : (x.lab.makeDirectory (Workspace.cleanLabel (workspaceLabel k.signature) ++ "-")).runOn
      s.site.world = (.ok path, w))
    (hbuild : (x.build k.partition x.trusted x.variant path).run w = (.error f, w')) :
    x.buildTask k s = x.finish k (.error f) none none
      { s with
        site := (Site.drop x.lab { path := path } ⟨w', s.site.ledger.enter⟩).2
        executed := s.executed + 1 } := by
  rw [buildTask, hwaiting]
  refine (bind_of rfl).trans ?_
  refine (bind_of (Session.onSite_eq (s := { s with executed := s.executed + 1 })
    (Site.acquire_ok x.lab hmake))).trans ?_
  exact bind_of (Session.onWorld_eq
    (s := { s with site := ⟨w, s.site.ledger.enter⟩, executed := s.executed + 1 }) hbuild)

theorem buildTask_built {path : String} {made : Built} {w w' : σ}
    (hwaiting : k.progress = .waiting)
    (hmake : (x.lab.makeDirectory (Workspace.cleanLabel (workspaceLabel k.signature) ++ "-")).runOn
      s.site.world = (.ok path, w))
    (hbuild : (x.build k.partition x.trusted x.variant path).run w = (.ok made, w')) :
    x.buildTask k s = ({ k with progress := .built { path := path } made },
      { s with site := ⟨w', s.site.ledger.enter⟩, executed := s.executed + 1 }) := by
  rw [buildTask, hwaiting]
  refine (bind_of rfl).trans ?_
  refine (bind_of (Session.onSite_eq (s := { s with executed := s.executed + 1 })
    (Site.acquire_ok x.lab hmake))).trans ?_
  exact bind_of (Session.onWorld_eq
    (s := { s with site := ⟨w, s.site.ledger.enter⟩, executed := s.executed + 1 }) hbuild)

theorem runTask_built {w : Workspace} {made : Built} {ran : Except Failure (String × Nat)} {v : σ}
    (hbuilt : k.progress = .built w made)
    (hrun : (x.execute made.executable x.target w.path).run s.site.world = (ran, v)) :
    x.runTask k s = x.finish k (x.judge ran).1 (some made.ms) (x.judge ran).2
      { s with site := (Site.drop x.lab w { s.site with world := v }).2 } := by
  rw [runTask, hbuilt]
  exact bind_of (Session.onWorld_eq hrun)

theorem finish_fst (o : Outcome) (buildMs? runMs? : Option Nat) :
    (x.finish k o buildMs? runMs? s).1 = { k with progress := .settled o } := by
  rcases hlook : x.lab.cancelled s.site.world with ⟨stop, w⟩
  rw [finish, bind_of (Session.onWorld_eq hlook)]
  cases stop <;> rfl

theorem buildTask_other (h : k.progress ≠ .waiting) : x.buildTask k s = (k, s) := by
  obtain ⟨p, signature, progress⟩ := k
  cases progress with
  | waiting => exact absurd rfl h
  | _ => rfl

/-- What the second pass makes of a task, and the session after it. -/
inductive BuildTurn (x : Experiment σ) (k : Task) (s : Session σ) : Task × Session σ → Prop
  | other (hother : k.progress ≠ .waiting) : BuildTurn x k s (k, s)
  /-- There is no directory for it. -/
  | barred {e : Error} {w : σ} (hwaiting : k.progress = .waiting)
      (hmake : (x.lab.makeDirectory (Workspace.cleanLabel (workspaceLabel k.signature) ++
        "-")).runOn s.site.world = (.error e, w)) :
      BuildTurn x k s (x.finish k (.error ⟨.build, e.message⟩) none none
        { s with site := { s.site with world := w }, executed := s.executed + 1 })
  | unbuilt {path : String} {f : Failure} {w w' : σ} (hwaiting : k.progress = .waiting)
      (hmake : (x.lab.makeDirectory (Workspace.cleanLabel (workspaceLabel k.signature) ++
        "-")).runOn s.site.world = (.ok path, w))
      (hbuild : (x.build k.partition x.trusted x.variant path).run w = (.error f, w')) :
      BuildTurn x k s (x.finish k (.error f) none none
        { s with
          site := (Site.drop x.lab { path := path } ⟨w', s.site.ledger.enter⟩).2
          executed := s.executed + 1 })
  | built {path : String} {made : Built} {w w' : σ} (hwaiting : k.progress = .waiting)
      (hmake : (x.lab.makeDirectory (Workspace.cleanLabel (workspaceLabel k.signature) ++
        "-")).runOn s.site.world = (.ok path, w))
      (hbuild : (x.build k.partition x.trusted x.variant path).run w = (.ok made, w')) :
      BuildTurn x k s ({ k with progress := .built { path := path } made },
        { s with site := ⟨w', s.site.ledger.enter⟩, executed := s.executed + 1 })

theorem buildTask_turn (x : Experiment σ) (k : Task) (s : Session σ) :
    BuildTurn x k s (x.buildTask k s) := by
  by_cases hk : k.progress = .waiting
  · rcases hmake : (x.lab.makeDirectory (Workspace.cleanLabel (workspaceLabel k.signature) ++
      "-")).runOn s.site.world with ⟨e | path, w⟩
    · rw [buildTask_barred hk hmake]
      exact .barred hk hmake
    · rcases hbuild : (x.build k.partition x.trusted x.variant path).run w with ⟨f | made, w'⟩
      · rw [buildTask_unbuilt hk hmake hbuild]
        exact .unbuilt hk hmake hbuild
      · rw [buildTask_built hk hmake hbuild]
        exact .built hk hmake hbuild
  · rw [buildTask_other hk]
    exact .other hk

theorem runTask_other (h : k.progress.isBuilt = false) : x.runTask k s = (k, s) := by
  obtain ⟨p, signature, progress⟩ := k
  cases progress with
  | built w made => simp [Progress.isBuilt] at h
  | _ => rfl

theorem settleTask_settled {r : Outcome} (hk : k.progress = .settled r) :
    x.settleTask k s = (r, s) := by
  rw [settleTask, hk]
  rfl

theorem settleTask_other (hk : ∀ r, k.progress ≠ .settled r) :
    x.settleTask k s =
      let r := (s.remembered? k.signature).getD (.error ⟨.run, "cancelled"⟩)
      (r, (x.record k.partition r none none true s).2) := by
  obtain ⟨p, signature, progress⟩ := k
  cases progress with
  | settled r => exact absurd rfl (hk r)
  | _ => rfl

theorem recallAll_known {seen : List String} {p : Partition} {rest : List Partition} {o : Outcome}
    {others : List Task} {s' : Session σ} (hknown : s.remembered? p.signature = some o)
    (hrest : x.recallAll seen rest (x.record p o none none true s).2 = (others, s')) :
    x.recallAll seen (p :: rest) s = (⟨p, p.signature, .settled o⟩ :: others, s') := by
  rw [recallAll]
  refine (bind_of rfl).trans ?_
  rw [hknown]
  refine (bind_of rfl).trans ?_
  exact bind_of hrest

theorem recallAll_repeated {seen : List String} {p : Partition} {rest : List Partition}
    {others : List Task} {s' : Session σ} (hnew : s.remembered? p.signature = none)
    (hseen : p.signature ∈ seen) (hrest : x.recallAll seen rest s = (others, s')) :
    x.recallAll seen (p :: rest) s = (⟨p, p.signature, .repeated⟩ :: others, s') := by
  rw [recallAll]
  refine (bind_of rfl).trans ?_
  rw [hnew]
  simp only [if_pos hseen]
  exact bind_of hrest

theorem recallAll_new {seen : List String} {p : Partition} {rest : List Partition}
    {others : List Task} {s' : Session σ} (hnew : s.remembered? p.signature = none)
    (hfirst : p.signature ∉ seen)
    (hrest : x.recallAll (p.signature :: seen) rest s = (others, s')) :
    x.recallAll seen (p :: rest) s = (⟨p, p.signature, .waiting⟩ :: others, s') := by
  rw [recallAll]
  refine (bind_of rfl).trans ?_
  rw [hnew]
  simp only [if_neg hfirst]
  exact bind_of hrest

variable {domain : Partition → Prop} {truth : Partition → Outcome} {inv : Track → σ → Prop}
  {asked : List String} {others : List Task} {t : Track}

/-- The outcome is remembered; outside, the trial is only shown and logged. -/
theorem finish_steady (hx : x.Steady domain truth inv) (o : Outcome) (buildMs? runMs? : Option Nat)
    (hs : inv t s.site.world) :
    ∃ site trials, inv t site.world ∧ x.finish k o buildMs? runMs? s =
      ({ k with progress := .settled o },
        ⟨site, (k.signature, o) :: s.memory, s.executed, trials⟩) := by
  rw [finish_eq x (hx.going hs), record_eq]
  exact ⟨_, _, hx.shown _ (hx.logged _ (hx.looked hs)), rfl⟩

/-- A directory that is given back is there no longer, and nothing else changes. -/
theorem drop_tracked {lab : Lab σ}
    (hleft : ∀ {t : Track} {v : σ} {dir : String}, inv t v → dir ∈ t.directories →
      inv (t.leave dir) ((lab.removeDirectory dir).runOn v).2)
    (w : Workspace) (site : Site σ) (hheld : w.held = true) (hmem : w.path ∈ t.directories)
    (hs : inv t site.world) (hhoused : t.Housed) :
    ∃ t', inv t' (Site.drop lab w site).2.world ∧ t'.Housed ∧ t'.built = t.built ∧
      t'.ran = t.ran ∧ ∀ q ∈ t.products, q.workdir ≠ w.path → q ∈ t'.products := by
  rw [Site.world_drop lab site hheld]
  split
  · refine ⟨t.leave w.path, hleft hs hmem, fun q hq => ?_, rfl, rfl, fun q hq hne => ?_⟩
    · obtain ⟨hq, hne⟩ := List.mem_filter.mp hq
      exact List.mem_filter.mpr ⟨hhoused q hq, hne⟩
    · exact List.mem_filter.mpr ⟨hq, decide_eq_true hne⟩
  · exact ⟨t, hs, hhoused, rfl, rfl, fun q hq _ => hq⟩

theorem drop_steady (hx : x.Steady domain truth inv) (w : Workspace) (site : Site σ)
    (hheld : w.held = true) (hmem : w.path ∈ t.directories) (hs : inv t site.world)
    (hhoused : t.Housed) :
    ∃ t', inv t' (Site.drop x.lab w site).2.world ∧ t'.Housed ∧ t'.built = t.built ∧
      t'.ran = t.ran ∧ ∀ q ∈ t.products, q.workdir ≠ w.path → q ∈ t'.products :=
  drop_tracked (fun hs hmem => hx.left hs hmem) w site hheld hmem hs hhoused

theorem buildTask_underway (hx : x.Steady domain truth inv) (hsame : SameBySignature domain truth)
    (h : Underway domain truth inv asked (k :: others) t s) :
    ∃ t', Underway domain truth inv asked ((x.buildTask k s).1 :: others) t'
      (x.buildTask k s).2 := by
  obtain ⟨hdomain, hsignature, -⟩ := h.tasked k List.mem_cons_self
  have hturn := buildTask_turn x k s
  generalize x.buildTask k s = r at hturn ⊢
  cases hturn with
  | other => exact ⟨t, h⟩
  | @barred e w hk hmake =>
      rw [hsignature] at hmake
      obtain ⟨htruth, hw⟩ := hx.barred h.world hdomain hmake
      obtain ⟨site, trials, hsite, heq⟩ := finish_steady (k := k)
        (s := { s with site := ⟨w, s.site.ledger⟩, executed := s.executed + 1 }) hx
        (truth k.partition) none none hw
      rw [← htruth, heq]
      exact ⟨t, h.fail hsame hk hsite h.housed (List.Subset.refl _) (.inl rfl) rfl⟩
  | @unbuilt path f w w' hk hmake hbuild =>
      rw [hsignature] at hmake
      obtain ⟨hfresh, hw⟩ := hx.entered h.world hmake
      have hempty := h.housed.workdir_ne hfresh
      obtain ⟨htruth, hw'⟩ := hx.unbuilt hw hdomain List.mem_cons_self hempty hbuild
      obtain ⟨t', hdropped, hhoused, hbuilt, hran, hproducts⟩ :=
        drop_steady hx { path := path } ⟨w', s.site.ledger.enter⟩ rfl List.mem_cons_self hw'
          (h.housed.enter path)
      obtain ⟨site, trials, hsite, heq⟩ := finish_steady (k := k)
        (s := { s with
          site := (Site.drop x.lab { path := path } ⟨w', s.site.ledger.enter⟩).2
          executed := s.executed + 1 }) hx (truth k.partition) none none hdropped
      rw [← htruth, heq]
      exact ⟨t', h.fail hsame hk hsite hhoused (fun q hq => hproducts q hq (hempty q hq))
        (.inr hbuilt) hran⟩
  | @built path made w w' hk hmake hbuild =>
      rw [hsignature] at hmake
      obtain ⟨hfresh, hw⟩ := hx.entered h.world hmake
      have hstored := hx.stored hw hdomain List.mem_cons_self (h.housed.workdir_ne hfresh) hbuild
      exact ⟨_, h.store hk rfl hfresh hstored⟩

theorem runTask_underway (hx : x.Steady domain truth inv) (hsame : SameBySignature domain truth)
    (h : Underway domain truth inv asked (k :: others) t s) :
    ∃ t', Underway domain truth inv asked ((x.runTask k s).1 :: others) t'
      (x.runTask k s).2 := by
  obtain ⟨hdomain, hsignature, -⟩ := h.tasked k List.mem_cons_self
  cases hk : k.progress with
  | built w made =>
      obtain ⟨hheld, hproduct⟩ := h.held k List.mem_cons_self w made hk
      rcases hrun : (x.execute made.executable x.target w.path).run s.site.world with ⟨ran, v⟩
      obtain ⟨htruth, hv⟩ := hx.ran h.world hdomain hproduct hrun
      obtain ⟨t', hdropped, hhoused, hbuilt, hran, hproducts⟩ :=
        drop_steady (t := t.run k.partition) hx w ⟨v, s.site.ledger⟩ hheld
          (h.housed _ hproduct) hv h.housed
      rw [runTask_built hk hrun, htruth]
      obtain ⟨site, trials, hsite, heq⟩ := finish_steady (k := k)
        (s := { s with site := (Site.drop x.lab w ⟨v, s.site.ledger⟩).2 }) hx
        (truth k.partition) (some made.ms) (x.judge ran).2 hdropped
      rw [heq]
      exact ⟨t', h.complete hsame hk hsite hhoused hproducts hbuilt hran⟩
  | _ =>
      rw [runTask_other (by rw [hk]; rfl)]
      exact ⟨t, h⟩

theorem record_underway (hx : x.Steady domain truth inv) {tasks : List Task} (p : Partition)
    (o : Outcome) (buildMs? runMs? : Option Nat) (cached : Bool)
    (h : Underway domain truth inv asked tasks t s) :
    Underway domain truth inv asked tasks t (x.record p o buildMs? runMs? cached s).2 := by
  rw [record_eq]
  exact h.move (hx.shown _ (hx.logged _ h.world))

/-- `seen` holds the signatures of the tasks that are not over. -/
def Awaits (seen : List String) (tasks : List Task) : Prop :=
  ∀ g, g ∈ seen ↔ ∃ k ∈ tasks, k.progress.isPending = true ∧ k.signature = g

namespace Awaits

variable {seen : List String} {tasks : List Task} {k : Task}

theorem nil : Awaits [] [] := by
  simp [Awaits]

theorem skip (h : Awaits seen tasks) (hk : k.progress.isPending = false) :
    Awaits seen (k :: tasks) := by
  intro g
  simp [h g, hk]

theorem push (h : Awaits seen tasks) (hk : k.progress.isPending = true) :
    Awaits (k.signature :: seen) (k :: tasks) := by
  intro g
  simp only [List.mem_cons, h g, or_and_right, exists_or, exists_eq_left]
  exact or_congr_left ⟨fun heq => ⟨hk, heq.symm⟩, fun heq => heq.2.symm⟩

end Awaits

/-- The first pass takes in one task for each partition. `done` are those taken in before. -/
theorem recallAll_underway (hx : x.Steady domain truth inv) {ps : List Partition}
    (seen : List String) {done : List Task} (hps : ∀ p ∈ ps, domain p)
    (hseen : Awaits seen done)
    (h : Underway domain truth inv asked done t s) :
    ∃ tasks s', x.recallAll seen ps s = (tasks, s') ∧ tasks.map (·.partition) = ps ∧
      Underway domain truth inv (ps.map (·.signature) ++ asked) (tasks ++ done) t s' := by
  -- Every partition taken in becomes a task of `done` before the next one is looked at.
  induction ps generalizing seen done asked s with
  | nil => exact ⟨[], s, rfl, rfl, h⟩
  | cons p rest ih =>
      obtain ⟨hp, hrest⟩ := List.forall_mem_cons.mp hps
      cases hknown : s.remembered? p.signature with
      | some o =>
          have hadd := (record_underway hx p o none none true h).add
            (k := ⟨p, p.signature, .settled o⟩) hp rfl rfl
            (fun o' ho => by injection ho with ho; exact ho ▸ h.recalls p o hp hknown)
            (fun hpending => by simp [Progress.isPending] at hpending)
            (fun _ => .inl (Session.mem_signatures hknown))
          obtain ⟨tasks, s', heq, hmap, hin⟩ := ih seen hrest (hseen.skip rfl) hadd
          refine ⟨_, s', recallAll_known hknown heq, congrArg _ hmap, hin.perm ?_ ?_⟩
          · exact List.perm_middle
          · exact List.perm_middle
      | none =>
          have hnew := Session.remembered?_eq_none.mp hknown
          by_cases hfirst : p.signature ∈ seen
          · have hadd := h.add (k := ⟨p, p.signature, .repeated⟩) hp rfl rfl
              (fun o ho => by simp at ho)
              (fun hpending => by simp [Progress.isPending] at hpending)
              (fun _ => .inr ((hseen _).mp hfirst))
            obtain ⟨tasks, s', heq, hmap, hin⟩ := ih seen hrest (hseen.skip rfl) hadd
            exact ⟨_, s', recallAll_repeated hknown hfirst heq, congrArg _ hmap,
              hin.perm List.perm_middle List.perm_middle⟩
          · have hadd := h.add (k := ⟨p, p.signature, .waiting⟩) hp rfl rfl
              (fun o ho => by simp at ho)
              (fun _ => ⟨hnew, fun k' hk' hpending heq =>
                hfirst ((hseen _).mpr ⟨k', hk', hpending, heq⟩)⟩)
              (fun hpending => by simp [Progress.isPending] at hpending)
            obtain ⟨tasks, s', heq, hmap, hin⟩ := ih _ hrest (hseen.push rfl) hadd
            exact ⟨_, s', recallAll_new hknown hfirst heq, congrArg _ hmap,
              hin.perm List.perm_middle List.perm_middle⟩

/-! ### Whole passes -/

/-- What a pass keeps while it changes one task it keeps while it changes all of them, if the order
of the tasks does not matter. -/
theorem mapM_tasks {J : List Task → Session σ → Prop} {f : Task → StateM (Session σ) Task}
    (hperm : ∀ {ks ks' : List Task} {s : Session σ}, ks.Perm ks' → J ks s → J ks' s)
    (hstep : ∀ {k : Task} {others : List Task} {s : Session σ}, J (k :: others) s →
      J ((f k s).1 :: others) (f k s).2)
    {tasks done : List Task} (h : J (tasks ++ done) s) :
    J ((tasks.mapM f s).1 ++ done) (tasks.mapM f s).2 := by
  induction tasks generalizing done s with
  | nil => exact h
  | cons k tasks ih =>
      -- The task is done with and makes way for the next one.
      have h₁ := hperm List.perm_middle.symm (hstep h)
      rw [List.mapM_cons]
      exact hperm List.perm_middle (ih h₁)

theorem mapM_underway {f : Task → StateM (Session σ) Task}
    (hstep : ∀ {k : Task} {others : List Task} {t : Track} {s : Session σ},
      Underway domain truth inv asked (k :: others) t s →
      ∃ t', Underway domain truth inv asked ((f k s).1 :: others) t' (f k s).2)
    {tasks done : List Task} (h : Underway domain truth inv asked (tasks ++ done) t s) :
    ∃ t', Underway domain truth inv asked ((tasks.mapM f s).1 ++ done) t' (tasks.mapM f s).2 :=
  mapM_tasks (J := fun ks s => ∃ t, Underway domain truth inv asked ks t s)
    (fun hks ⟨t, h⟩ => ⟨t, h.perm hks (List.Perm.refl _)⟩) (fun ⟨_, h⟩ => hstep h) ⟨t, h⟩

theorem map_partition_mapM {f : Task → StateM (Session σ) Task}
    (hf : ∀ k s, (f k s).1.partition = k.partition) (tasks : List Task) (s : Session σ) :
    (tasks.mapM f s).1.map (·.partition) = tasks.map (·.partition) := by
  induction tasks generalizing s with
  | nil => rfl
  | cons k tasks ih =>
      rw [List.mapM_cons]
      exact congrArg₂ List.cons (hf k s) (ih _)

theorem forall_mem_mapM {f : Task → StateM (Session σ) Task} {P Q : Task → Prop}
    (hf : ∀ k s, P k → Q (f k s).1) {tasks : List Task} (hP : ∀ k ∈ tasks, P k) (s : Session σ) :
    ∀ k ∈ (tasks.mapM f s).1, Q k := by
  induction tasks generalizing s with
  | nil => exact fun k hk => absurd hk List.not_mem_nil
  | cons k tasks ih =>
      obtain ⟨hk, htasks⟩ := List.forall_mem_cons.mp hP
      rw [List.mapM_cons]
      exact List.forall_mem_cons.mpr ⟨hf k s hk, ih htasks _⟩

/-- A task that was built or left alone is not waiting. -/
theorem buildTask_fst (k : Task) (s : Session σ) :
    (x.buildTask k s).1.partition = k.partition ∧ (x.buildTask k s).1.signature = k.signature ∧
      (x.buildTask k s).1.progress ≠ .waiting := by
  have hturn := buildTask_turn x k s
  generalize x.buildTask k s = r at hturn ⊢
  cases hturn with
  | other hk => exact ⟨rfl, rfl, hk⟩
  | barred | unbuilt =>
      rw [finish_fst]
      exact ⟨rfl, rfl, by simp⟩
  | built => exact ⟨rfl, rfl, by simp⟩

theorem runTask_partition (k : Task) (s : Session σ) :
    (x.runTask k s).1.partition = k.partition := by
  cases hk : k.progress with
  | built w made => rw [runTask_built hk rfl, finish_fst]
  | _ => rw [runTask_other (by rw [hk]; rfl)]

theorem runTask_done (k : Task) (s : Session σ) (hbuilt : k.progress ≠ .waiting) :
    (x.runTask k s).1.progress.isPending = false := by
  cases hk : k.progress with
  | waiting => exact absurd hk hbuilt
  | built w made =>
      rw [runTask_built hk rfl, finish_fst]
      rfl
  | settled o =>
      rw [runTask_other (by rw [hk]; rfl), hk]
      rfl
  | repeated =>
      rw [runTask_other (by rw [hk]; rfl), hk]
      rfl

section Stages

variable {ps : List Partition} {tasks built ran : List Task} {s₁ s₂ s₃ : Session σ}

/-- A batch is its passes, one after the other. -/
theorem batch_of_passes (hrecall : x.recallAll [] ps s = (tasks, s₁))
    (hbuild : tasks.mapM x.buildTask s₁ = (built, s₂))
    (hrun : built.mapM x.runTask s₂ = (ran, s₃)) : x.batch ps s = ran.mapM x.settleTask s₃ := by
  rw [batch, bind_of hrecall, bind_of hbuild, bind_of hrun]

/-- After the builds and the runs nothing is left to build or to run. -/
theorem not_pending_of_passes (hbuild : tasks.mapM x.buildTask s₁ = (built, s₂))
    (hrun : built.mapM x.runTask s₂ = (ran, s₃)) : ∀ k ∈ ran, k.progress.isPending = false := by
  have hfree : ∀ k ∈ tasks, True := fun _ _ => trivial
  have hbuilt := forall_mem_mapM (Q := fun k => k.progress ≠ .waiting)
    (fun k s _ => (buildTask_fst (x := x) k s).2.2) hfree s₁
  rw [hbuild] at hbuilt
  have hran := forall_mem_mapM (Q := fun k => k.progress.isPending = false)
    (fun k s => runTask_done (x := x) k s) hbuilt s₂
  rwa [hrun] at hran

theorem map_partition_of_passes (hbuild : tasks.mapM x.buildTask s₁ = (built, s₂))
    (hrun : built.mapM x.runTask s₂ = (ran, s₃)) :
    ran.map (·.partition) = tasks.map (·.partition) := by
  have hbuilt := map_partition_mapM (fun k s => (buildTask_fst (x := x) k s).1) tasks s₁
  have hran := map_partition_mapM (runTask_partition (x := x)) built s₂
  rw [hbuild] at hbuilt
  rw [hrun] at hran
  exact hran.trans hbuilt

end Stages

/-- A task of the last pass has its outcome, or its signature is remembered by now. -/
theorem settleTask_underway (hx : x.Steady domain truth inv)
    (h : Underway domain truth inv asked (k :: others) t s)
    (hdone : ∀ k' ∈ k :: others, k'.progress.isPending = false) :
    ∃ s', x.settleTask k s = (truth k.partition, s') ∧
      Underway domain truth inv asked others t s' := by
  obtain ⟨hdomain, hsignature, hasked⟩ := h.tasked k List.mem_cons_self
  have hothers := h.drop (hdone k List.mem_cons_self)
  cases hk : k.progress with
  | settled o =>
      have htruth := h.settled k List.mem_cons_self o hk
      rw [settleTask, hk, ← htruth]
      exact ⟨s, rfl, hothers⟩
  | repeated =>
      have hmem : k.signature ∈ s.signatures := by
        rcases h.covered _ hasked with hmem | ⟨k', hk', hpending, -⟩
        · exact hmem
        · simp [hdone k' hk'] at hpending
      obtain ⟨o, ho⟩ := Option.ne_none_iff_exists'.mp
        fun hnone => Session.remembered?_eq_none.mp hnone hmem
      have htruth := h.recalls k.partition o hdomain (hsignature ▸ ho)
      refine ⟨_, ?_, record_underway hx k.partition o none none true hothers⟩
      rw [settleTask, hk]
      refine (bind_of rfl).trans ?_
      rw [ho, ← htruth]
      rfl
  | waiting => simp [hk, Progress.isPending] at hdone
  | built w made => simp [hk, Progress.isPending] at hdone

theorem settleAll_underway (hx : x.Steady domain truth inv) {tasks : List Task}
    (h : Underway domain truth inv asked tasks t s)
    (hdone : ∀ k ∈ tasks, k.progress.isPending = false) :
    ∃ s', tasks.mapM x.settleTask s = (tasks.map fun k => truth k.partition, s') ∧
      Underway domain truth inv asked [] t s' := by
  induction tasks generalizing s with
  | nil => exact ⟨s, rfl, h⟩
  | cons k tasks ih =>
      obtain ⟨s₁, heq₁, h₁⟩ := settleTask_underway hx h hdone
      obtain ⟨s₂, heq₂, h₂⟩ := ih h₁ (List.forall_mem_cons.mp hdone).2
      refine ⟨s₂, ?_, h₂⟩
      rw [List.mapM_cons]
      exact (bind_of heq₁).trans (bind_of heq₂)

/-- A batch gives every partition the outcome it has on its own. -/
theorem batch_underway (hx : x.Steady domain truth inv) (hsame : SameBySignature domain truth)
    {ps : List Partition} (hps : ∀ p ∈ ps, domain p) (h : Underway domain truth inv asked [] t s) :
    ∃ t' s', x.batch ps s = (ps.map truth, s') ∧
      Underway domain truth inv (ps.map (·.signature) ++ asked) [] t' s' := by
  obtain ⟨tasks, s₁, hrecall, hmap, h₁⟩ := recallAll_underway hx [] hps .nil h
  obtain ⟨t₂, h₂⟩ := mapM_underway (fun h => buildTask_underway hx hsame h) h₁
  rcases hbuild : tasks.mapM x.buildTask s₁ with ⟨built, s₂⟩
  rw [hbuild] at h₂
  obtain ⟨t₃, h₃⟩ := mapM_underway (fun h => runTask_underway hx hsame h) h₂
  rcases hrun : built.mapM x.runTask s₂ with ⟨ran, s₃⟩
  rw [hrun, List.append_nil] at h₃
  obtain ⟨s₄, hsettle, h₄⟩ := settleAll_underway hx h₃ (not_pending_of_passes hbuild hrun)
  refine ⟨t₃, s₄, ?_, h₄⟩
  have hpartitions : ps.map truth = ran.map fun k => truth k.partition := by
    rw [← hmap, ← map_partition_of_passes hbuild hrun, List.map_map]
    rfl
  rw [batch_of_passes hrecall hbuild hrun, hpartitions]
  exact hsettle

end Passes

end Experiment

end Culprit
