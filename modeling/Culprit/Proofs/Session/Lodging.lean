import Culprit.Proofs.Baseline.Founding
import Culprit.Proofs.Bisection.Listing
import Culprit.Proofs.Search.Frontier
import Culprit.Proofs.Session.Kept
import Mathlib.Data.Multiset.AddSub
import Mathlib.Data.Set.Insert

/-!
The directories that a bisection uses, on its ledger and outside. Each part of a bisection, a
batch, a listing of symbols or the build of a baseline, gives back what it took, whatever goes
wrong in it; a batch takes at most one directory for each of its partitions at a time.
-/

namespace Culprit

variable {σ : Type}

/-- Nothing that a lab does but making and removing directories changes what `view` shows. -/
structure Lab.Spares {β : Type} (lab : Lab σ) (view : σ → β) : Prop where
  cancelled (w : σ) : view (lab.cancelled w).2 = view w
  now (w : σ) : view (lab.now w).2 = view w
  units (w : σ) : view (lab.pipeline.units.runOn w).2 = view w
  symbols (unit : SourceUnit) (flags : Flags) (dir : String) (timeout : Nat) (w : σ) :
    view ((lab.pipeline.symbols unit flags dir timeout).runOn w).2 = view w
  builds (q : BuildRequest) (w : σ) : view ((lab.pipeline.build q).runOn w).2 = view w
  runner (call : Invocation) (limit : Nat) (w : σ) :
    view ((lab.runner call limit).runOn w).2 = view w
  readText (path : String) (w : σ) : view (lab.readText path w).2 = view w
  appendLog (t : Trial) (w : σ) : view ((lab.appendLog t).runOn w).2 = view w
  observe (t : Trial) (w : σ) : view (lab.observe t w).2 = view w

theorem Lab.Spares.comp {β γ : Type} {lab : Lab σ} {view : σ → β} (h : lab.Spares view)
    (g : β → γ) : lab.Spares fun w => g (view w) where
  cancelled w := congrArg g (h.cancelled w)
  now w := congrArg g (h.now w)
  units w := congrArg g (h.units w)
  symbols unit flags dir timeout w := congrArg g (h.symbols unit flags dir timeout w)
  builds q w := congrArg g (h.builds q w)
  runner call limit w := congrArg g (h.runner call limit w)
  readText path w := congrArg g (h.readText path w)
  appendLog t w := congrArg g (h.appendLog t w)
  observe t w := congrArg g (h.observe t w)

/-- What holds outside while the directories `held` are in use: one that is made joins them, one
that is given back leaves them, and nothing else that a lab does changes it. -/
structure Lab.Houses (lab : Lab σ) (inv : Multiset String → σ → Prop) : Prop where
  spares : lab.Spares fun w held => inv held w
  made {held : Multiset String} {w w' : σ} {label path : String} : inv held w →
    (lab.makeDirectory label).runOn w = (.ok path, w') → inv (path ::ₘ held) w'
  barred {held : Multiset String} {w w' : σ} {label : String} {fault : Error} : inv held w →
    (lab.makeDirectory label).runOn w = (.error fault, w') → inv held w'
  left {held : Multiset String} {w : σ} {path : String} : inv (path ::ₘ held) w →
    inv held (if lab.deletes then ((lab.removeDirectory path).runOn w).2 else w)

/-- Nothing need hold outside. -/
theorem Lab.houses_true (lab : Lab σ) : lab.Houses fun _ _ => True := by
  constructor
  case spares => constructor <;> intros <;> rfl
  case made => exact fun _ _ => trivial
  case barred => exact fun _ _ => trivial
  case left => exact fun _ => trivial

/-- `dirs` tells which directories there are: a new one was not there before, one that was removed
is gone, and nothing else makes or removes one. -/
structure Lab.Furnishes (lab : Lab σ) (dirs : σ → Set String) : Prop where
  spares : lab.Spares dirs
  made {w w' : σ} {label path : String} :
    (lab.makeDirectory label).runOn w = (.ok path, w') →
      path ∉ dirs w ∧ dirs w' = insert path (dirs w)
  barred {w w' : σ} {label : String} {fault : Error} :
    (lab.makeDirectory label).runOn w = (.error fault, w') → dirs w' = dirs w
  removed {w w' : σ} {path : String} :
    (lab.removeDirectory path).runOn w = (.ok (), w') → dirs w' = dirs w \ {path}

/-- The directories are those of `before` and, beside them, those in use. -/
structure Housed (before : Set String) (held : Multiset String) (there : Set String) : Prop where
  there : there = before ∪ {d | d ∈ held}
  apart : ∀ d ∈ held, d ∉ before
  distinct : held.Nodup

/-- Directories that can be removed are gone when they are given back. -/
theorem Lab.Furnishes.houses {lab : Lab σ} {dirs : σ → Set String} (h : lab.Furnishes dirs)
    (hdeletes : lab.deletes = true)
    (hremoves : ∀ path w, path ∈ dirs w → ((lab.removeDirectory path).runOn w).1 = .ok ())
    (before : Set String) : lab.Houses fun held w => Housed before held (dirs w) := by
  constructor
  case spares => exact h.spares.comp fun there held => Housed before held there
  case barred =>
      intro held w w' label fault hw hmake
      rwa [h.barred hmake]
  case made =>
      intro held w w' label path hw hmake
      obtain ⟨hfresh, hdirs⟩ := h.made hmake
      rw [hw.there, Set.mem_union, not_or] at hfresh
      refine ⟨?_, ?_, Multiset.nodup_cons.mpr ⟨hfresh.2, hw.distinct⟩⟩
      · rw [hdirs, hw.there]
        ext d
        simp [or_left_comm]
      · intro d hd
        rcases Multiset.mem_cons.mp hd with rfl | hd
        · exact hfresh.1
        · exact hw.apart d hd
  case left =>
      intro held w path hw
      obtain ⟨hnew, hdistinct⟩ := Multiset.nodup_cons.mp hw.distinct
      have hthere : path ∈ dirs w := by
        rw [hw.there]
        exact .inr (Multiset.mem_cons_self path held)
      have hremoved : (lab.removeDirectory path).runOn w =
          (.ok (), ((lab.removeDirectory path).runOn w).2) := Prod.ext (hremoves path w hthere) rfl
      rw [if_pos hdeletes]
      refine ⟨?_, fun d hd => hw.apart d (Multiset.mem_cons_of_mem hd), hdistinct⟩
      rw [h.removed hremoved, hw.there]
      ext d
      have hbefore := hw.apart path (Multiset.mem_cons_self path held)
      by_cases hd : d = path
      · subst hd
        simp [hbefore, hnew]
      · simp [hd]

/-! ### One directory -/

/-- A ledger after `base` with the directories `held` in use. No more than `room` were in use at one
time. -/
structure Site.Lodged (inv : Multiset String → σ → Prop) (base : Ledger) (room : Nat)
    (held : Multiset String) (s : Site σ) : Prop where
  world : inv held s.world
  active : s.ledger.active = base.active + held.card
  peak : s.ledger.peak ≤ max base.peak (base.active + room)

namespace Site

variable {lab : Lab σ} {inv : Multiset String → σ → Prop} {base : Ledger} {room : Nat}
  {held : Multiset String} {s : Site σ}

theorem Lodged.start (h : inv 0 s.world) : Lodged inv s.ledger room 0 s :=
  ⟨h, rfl, Nat.le_max_left _ _⟩

theorem Lodged.move (h : Lodged inv base room held s) {w : σ} (hw : inv held w) :
    Lodged inv base room held { s with world := w } :=
  ⟨hw, h.active, h.peak⟩

theorem lift_lodged {α : Type} {a : StateM σ α}
    (ha : ∀ w, (fun held => inv held (a w).2) = fun held => inv held w) :
    Preserves (Lodged inv base room held) (lift a) :=
  fun s h => h.move ((congrFun (ha s.world) held).mpr h.world)

theorem Lodged.enter {w : σ} {path : String} (h : Lodged inv base room held s)
    (hroom : held.card < room) (hw : inv (path ::ₘ held) w) :
    Lodged inv base room (path ::ₘ held) ⟨w, s.ledger.enter⟩ where
  world := hw
  active := by rw [Ledger.active_enter, h.active, Multiset.card_cons, Nat.add_assoc]
  peak := by
    have hpeak := h.peak
    rw [Ledger.peak_enter, h.active]
    omega

theorem ledger_drop {w : Workspace} (s : Site σ) (hheld : w.held = true) :
    (drop lab w s).2.ledger = s.ledger.leave := by
  obtain ⟨path, held⟩ := w
  obtain rfl : held = true := hheld
  cases hdeletes : lab.deletes <;> simp [drop, release, hdeletes] <;> rfl

theorem Lodged.drop (hlab : lab.Houses inv) {w : Workspace} (hheld : w.held = true)
    (h : Lodged inv base room (w.path ::ₘ held) s) :
    Lodged inv base room held (Site.drop lab w s).2 where
  world := by
    rw [world_drop lab s hheld]
    exact hlab.left h.world
  active := by
    rw [ledger_drop s hheld, Ledger.active_leave, h.active, Multiset.card_cons]
    rfl
  peak := by
    rw [ledger_drop s hheld]
    exact h.peak

/-- In a directory that was made the body runs, and the directory is given back. -/
theorem within_made {α : Type} (label : String) (body : String → Attempt σ α) {path : String}
    {w : σ} (hmake : (lab.makeDirectory (Workspace.cleanLabel label ++ "-")).runOn s.world =
      (.ok path, w)) :
    ∃ r, (within lab label body).runOn s =
      (r, (drop lab { path := path } (lift (body path).result ⟨w, s.ledger.enter⟩).2).2) := by
  rcases hran : lift (body path).result ⟨w, s.ledger.enter⟩ with ⟨fault | a, s₁⟩
  · refine ⟨.error fault, ?_⟩
    rw [within, Attempt.runOn_bind, acquire_ok lab hmake]
    simp only [Attempt.runOn_lift_bind, hran]
    rfl
  · rcases hrelease : release lab { path := path } s₁ with ⟨⟨released, w'⟩, s₂⟩
    refine ⟨released.map fun _ => a, ?_⟩
    rw [within, Attempt.runOn_bind, acquire_ok lab hmake]
    simp only [Attempt.runOn_lift_bind, hran, hrelease, drop_eq_release]
    rfl

/-- What is done in a directory of its own leaves none behind. -/
theorem within_lodged {α : Type} (hlab : lab.Houses inv) (label : String)
    {body : String → Attempt σ α}
    (hbody : ∀ dir w, (fun held => inv held ((body dir).runOn w).2) = fun held => inv held w)
    (hroom : held.card < room) :
    Preserves (Lodged inv base room held) (within lab label body).run := by
  intro s h
  rcases hmake : (lab.makeDirectory (Workspace.cleanLabel label ++ "-")).runOn s.world with
    ⟨fault | path, w⟩
  · have hbarred : (within lab label body).runOn s = (.error fault, { s with world := w }) := by
      rw [within, Attempt.runOn_bind, acquire_error lab hmake]
    rw [show (within lab label body).run s = _ from hbarred]
    exact h.move (hlab.barred h.world hmake)
  · have hentered := h.enter hroom (hlab.made h.world hmake)
    have hdone := lift_lodged (a := (body path).result) (hbody path) _ hentered
    have hdropped := hdone.drop hlab (w := { path := path }) rfl
    obtain ⟨r, hwithin⟩ := within_made label body hmake
    rw [show (within lab label body).run s = _ from hwithin]
    exact hdropped

end Site

/-! ### Builds and runs -/

section Setup

variable {β : Type} {x : Setup σ} {view : σ → β}

theorem Setup.build_spares (h : x.lab.Spares view) (p : Partition) (trusted variant : Flags)
    (dir : String) (w : σ) : view ((x.build p trusted variant dir).run w).2 = view w :=
  h.builds _ w

theorem Setup.execute_spares (h : x.lab.Spares view) (executable : String) (target : Target)
    (dir : String) (w : σ) : view ((x.execute executable target dir).run w).2 = view w := by
  have hkeeps : Preserves (fun w' => view w' = view w) (x.execute executable target dir).run := by
    refine Preserves.bindExcept (Preserves.adapt _ fun w' hw => (h.runner _ _ w').trans hw) ?_
    intro ended
    split
    · refine Preserves.bindExcept ?_ fun text => Preserves.ret _
      rw [Setup.outputText]
      split
      · exact Preserves.ret _
      · exact Preserves.adapt _ fun w' hw => (h.readText _ w').trans hw
    · exact Preserves.ret _
  exact hkeeps w rfl

end Setup

/-! ### A batch -/

namespace Session

/-- The directories of a session, as its site has them. -/
def Lodged (inv : Multiset String → σ → Prop) (base : Ledger) (room : Nat)
    (held : Multiset String) (s : Session σ) : Prop :=
  s.site.Lodged inv base room held

variable {inv : Multiset String → σ → Prop} {base : Ledger} {room : Nat} {held : Multiset String}

theorem onSite_lodged {α : Type} {a : StateM (Site σ) α}
    (ha : Preserves (Site.Lodged inv base room held) a) :
    Preserves (Lodged inv base room held) (onSite a) :=
  fun s h => ha s.site h

theorem onWorld_lodged {α : Type} {a : StateM σ α}
    (ha : ∀ w, (fun held => inv held (a w).2) = fun held => inv held w) :
    Preserves (Lodged inv base room held) (onWorld a) :=
  onSite_lodged (Site.lift_lodged ha)

/-- The directories that tasks were built in. -/
def rooms (tasks : List Task) : Multiset String :=
  tasks.filterMap fun k => k.progress.workdir?

theorem rooms_cons_none {k : Task} (h : k.progress.workdir? = none) (others : List Task) :
    rooms (k :: others) = rooms others := by
  rw [rooms, List.filterMap_cons_none (f := fun k : Task => k.progress.workdir?) h]
  rfl

theorem rooms_cons_some {k : Task} {dir : String} (h : k.progress.workdir? = some dir)
    (others : List Task) : rooms (k :: others) = dir ::ₘ rooms others := by
  rw [rooms, List.filterMap_cons_some (f := fun k : Task => k.progress.workdir?) h]
  rfl

theorem rooms_eq_zero {tasks : List Task} (h : ∀ k ∈ tasks, k.progress.workdir? = none) :
    rooms tasks = 0 := by
  rw [rooms, List.filterMap_eq_nil_iff.mpr h]
  rfl

/-- Every directory that a task was built in is in use, and no others are. -/
structure Boarded (inv : Multiset String → σ → Prop) (base : Ledger) (room : Nat)
    (tasks : List Task) (s : Session σ) : Prop where
  lodged : s.Lodged inv base room (rooms tasks)
  held : ∀ k ∈ tasks, ∀ w made, k.progress = .built w made → w.held = true
  roomy : tasks.length ≤ room

namespace Boarded

variable {tasks tasks' rest : List Task} {k k' : Task} {s s' : Session σ}

theorem perm (htasks : tasks.Perm tasks') (h : Boarded inv base room tasks s) :
    Boarded inv base room tasks' s where
  lodged := by
    rw [show rooms tasks' = rooms tasks from Multiset.coe_eq_coe.mpr (htasks.symm.filterMap _)]
    exact h.lodged
  held k hk := h.held k (htasks.mem_iff.mpr hk)
  roomy := htasks.length_eq ▸ h.roomy

/-- There is a directory left for the first task. -/
theorem card_lt (h : Boarded inv base room (k :: rest) s) : (rooms rest).card < room :=
  Nat.lt_of_le_of_lt (List.length_filterMap_le _ _) h.roomy

/-- The first task has no directory any more, or never had one. -/
theorem replace (h : Boarded inv base room (k :: rest) s) (hk' : k'.progress.workdir? = none)
    (hlodged : s'.Lodged inv base room (rooms rest)) : Boarded inv base room (k' :: rest) s' where
  lodged := by rwa [rooms_cons_none hk']
  held := by
    refine List.forall_mem_cons.mpr ⟨fun w made hbuilt => ?_, (List.forall_mem_cons.mp h.held).2⟩
    rw [hbuilt] at hk'
    cases hk'
  roomy := h.roomy

end Boarded

end Session

namespace Experiment

open Session (Lodged Boarded)

variable {x : Experiment σ} {inv : Multiset String → σ → Prop} {base : Ledger} {room : Nat}
  {held : Multiset String} {k : Task} {others : List Task} {s : Session σ}

theorem record_lodged (hx : x.lab.Houses inv) (p : Partition) (o : Outcome)
    (buildMs? runMs? : Option Nat) (cached : Bool) :
    Preserves (Lodged inv base room held) (x.record p o buildMs? runMs? cached) := by
  intro s h
  rw [record_eq]
  refine Site.Lodged.move h ?_
  exact (congrFun ((hx.spares.observe _ _).trans (hx.spares.appendLog _ _)) held).mpr h.world

theorem finish_lodged (hx : x.lab.Houses inv) (o : Outcome) (buildMs? runMs? : Option Nat) :
    Preserves (Lodged inv base room held) (x.finish k o buildMs? runMs?) := by
  refine Preserves.bind (Session.onWorld_lodged hx.spares.cancelled) fun stop => ?_
  have hrecord : Preserves (Lodged inv base room held)
      (x.record k.partition o buildMs? runMs? false) :=
    record_lodged hx k.partition o buildMs? runMs? false
  cases stop with
  | true => exact Preserves.bind hrecord fun _ => Preserves.ret _
  | false =>
      refine Preserves.bind (fun s hs => hs) fun _ => ?_
      exact Preserves.bind hrecord fun _ => Preserves.ret _

/-- A build in a new directory. -/
theorem build_lodged (hx : x.lab.Houses inv) {site : Site σ} {path label : String} {w w' : σ}
    {r : Except Failure Built} (h : site.Lodged inv base room held) (hroom : held.card < room)
    (hmake : (x.lab.makeDirectory label).runOn site.world = (.ok path, w))
    (hbuild : (x.build k.partition x.trusted x.variant path).run w = (r, w')) :
    Site.Lodged inv base room (path ::ₘ held) ⟨w', site.ledger.enter⟩ := by
  have hentered := h.enter hroom (hx.made h.world hmake)
  have hworld := x.toSetup.build_spares hx.spares k.partition x.trusted x.variant path w
  rw [hbuild] at hworld
  exact hentered.move ((congrFun hworld _).mpr hentered.world)

theorem buildTask_boarded (hx : x.lab.Houses inv) (h : Boarded inv base room (k :: others) s) :
    Boarded inv base room ((x.buildTask k s).1 :: others) (x.buildTask k s).2 := by
  have hothers (hk : k.progress = .waiting) : s.Lodged inv base room (Session.rooms others) := by
    have hlodged := h.lodged
    rwa [Session.rooms_cons_none (by rw [hk]; rfl)] at hlodged
  have hfinished (o : Outcome) {s' : Session σ}
      (hs' : s'.Lodged inv base room (Session.rooms others)) :
      Boarded inv base room ((x.finish k o none none s').1 :: others)
        (x.finish k o none none s').2 := by
    refine h.replace ?_ (finish_lodged hx o none none s' hs')
    rw [finish_fst]
    rfl
  have hturn := buildTask_turn x k s
  generalize x.buildTask k s = r at hturn ⊢
  cases hturn with
  | other => exact h
  | barred hk hmake =>
      exact hfinished _ (Site.Lodged.move (hothers hk) (hx.barred (hothers hk).world hmake))
  | @unbuilt path f w w' hk hmake hbuild =>
      have hran := build_lodged hx (hothers hk) h.card_lt hmake hbuild
      exact hfinished _ (hran.drop hx (w := { path := path }) rfl)
  | built hk hmake hbuild =>
      have hran := build_lodged hx (hothers hk) h.card_lt hmake hbuild
      refine ⟨hran, List.forall_mem_cons.mpr ⟨?_, (List.forall_mem_cons.mp h.held).2⟩, h.roomy⟩
      rintro w₀ made₀ hsame
      cases hsame
      rfl

theorem runTask_boarded (hx : x.lab.Houses inv) (h : Boarded inv base room (k :: others) s) :
    Boarded inv base room ((x.runTask k s).1 :: others) (x.runTask k s).2 := by
  cases hk : k.progress with
  | built w made =>
      have hlodged := h.lodged
      have hroom : k.progress.workdir? = some w.path := by rw [hk]; rfl
      rw [Session.rooms_cons_some hroom] at hlodged
      have hran := (Session.onWorld_lodged (x.toSetup.execute_spares hx.spares made.executable
        x.target w.path)) s hlodged
      have hdropped := Site.Lodged.drop hx (h.held k List.mem_cons_self w made hk) hran
      rw [runTask_built hk rfl]
      refine h.replace ?_ (finish_lodged hx _ _ _ _ hdropped)
      rw [finish_fst]
      rfl
  | _ =>
      rw [runTask_other (by rw [hk]; rfl)]
      exact h

theorem runTask_workdir (k : Task) (s : Session σ) :
    (x.runTask k s).1.progress.workdir? = none := by
  cases hk : k.progress with
  | built w made =>
      rw [runTask_built hk rfl, finish_fst]
      rfl
  | _ =>
      rw [runTask_other (by rw [hk]; rfl), hk]
      rfl

theorem recallAll_workdir (seen : List String) (ps : List Partition) (s : Session σ) :
    ∀ k ∈ (x.recallAll seen ps s).1, k.progress.workdir? = none := by
  induction ps generalizing seen s with
  | nil => exact fun k hk => absurd hk List.not_mem_nil
  | cons p rest ih =>
      cases hknown : s.remembered? p.signature with
      | some o =>
          rw [recallAll_known hknown rfl]
          exact List.forall_mem_cons.mpr ⟨rfl, ih _ _⟩
      | none =>
          by_cases hseen : p.signature ∈ seen
          · rw [recallAll_repeated hknown hseen rfl]
            exact List.forall_mem_cons.mpr ⟨rfl, ih _ _⟩
          · rw [recallAll_new hknown hseen rfl]
            exact List.forall_mem_cons.mpr ⟨rfl, ih _ _⟩

/-- A batch takes at most one directory for each of its partitions, and gives back all that it
takes. -/
theorem batch_lodged (hx : x.lab.Houses inv) {ps : List Partition} (hroom : ps.length ≤ room) :
    Preserves (Lodged inv base room 0) (x.batch ps) := by
  intro s h
  have hrecord (p : Partition) (o : Outcome) : Preserves (Lodged inv base room 0)
      (x.record p o none none true) := record_lodged hx p o none none true
  have hlength := congrArg List.length (recallAll_tasks (x := x) [] ps s)
  have hnone := recallAll_workdir (x := x) [] ps s
  have hrecalled := recallAll_preserves hrecord [] ps s h
  rw [List.length_map, List.length_map] at hlength
  rcases hrecall : x.recallAll [] ps s with ⟨tasks, s₁⟩
  rw [hrecall] at hlength hnone hrecalled
  -- Nothing is built yet, so no task has a directory; after the runs none has one any more.
  have h₁ : Boarded inv base room (tasks ++ []) s₁ := by
    rw [List.append_nil]
    refine ⟨by rwa [Session.rooms_eq_zero hnone], fun k hk w made hbuilt => ?_, hlength ▸ hroom⟩
    have hworkdir := hnone k hk
    rw [hbuilt] at hworkdir
    cases hworkdir
  have h₂ := mapM_tasks (J := Boarded inv base room) Boarded.perm (buildTask_boarded hx) h₁
  rcases hbuild : tasks.mapM x.buildTask s₁ with ⟨built, s₂⟩
  rw [hbuild] at h₂
  have h₃ := mapM_tasks (J := Boarded inv base room) Boarded.perm (runTask_boarded hx) h₂
  have hgone : ∀ k ∈ (built.mapM x.runTask s₂).1, k.progress.workdir? = none :=
    forall_mem_mapM (P := fun _ => True) (fun k s _ => runTask_workdir k s)
      (fun _ _ => trivial) s₂
  rcases hrun : built.mapM x.runTask s₂ with ⟨ran, s₃⟩
  rw [hrun] at h₃ hgone
  have hlodged := h₃.lodged
  rw [List.append_nil, Session.rooms_eq_zero hgone] at hlodged
  rw [batch_of_passes hrecall hbuild hrun]
  exact Preserves.mapM (fun k _ => settleTask_preserves hrecord k) s₃ hlodged

end Experiment

end Culprit
