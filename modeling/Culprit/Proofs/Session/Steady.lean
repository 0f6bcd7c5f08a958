import Culprit.Bisection
import Culprit.Proofs.Search.Bench

/-!
What trials can rely on outside. A track notes which directories are there, what was built in them
and which partitions were built and run so far; an invariant says how the world agrees with it. The
outside is steady when it follows the track whatever is asked of it, is never told to stop, and
comes for each partition to an outcome of its own.
-/

namespace Culprit

/-- What a build left in its directory. -/
structure Product where
  workdir : String
  partition : Partition
  made : Built
deriving DecidableEq, Repr

/-- What was done outside so far. -/
structure Track where
  /-- The directories that were made and not removed. -/
  directories : List String
  products : List Product
  /-- The signatures of the partitions that were built or tried to be. -/
  built : List String
  /-- The signatures of the partitions whose executables were run. -/
  ran : List String

namespace Track

def empty : Track := ⟨[], [], [], []⟩

def enter (t : Track) (dir : String) : Track :=
  { t with directories := dir :: t.directories }

def leave (t : Track) (dir : String) : Track :=
  { t with
    directories := t.directories.filter (· ≠ dir)
    products := t.products.filter (·.workdir ≠ dir) }

def attempt (t : Track) (p : Partition) : Track :=
  { t with built := p.signature :: t.built }

def store (t : Track) (q : Product) : Track :=
  { t.attempt q.partition with products := q :: t.products }

def run (t : Track) (p : Partition) : Track :=
  { t with ran := p.signature :: t.ran }

/-- Products lie in directories that are there. -/
def Housed (t : Track) : Prop :=
  ∀ q ∈ t.products, q.workdir ∈ t.directories

variable {t : Track} {dir : String}

theorem Housed.enter (h : t.Housed) (dir : String) : (t.enter dir).Housed :=
  fun q hq => List.mem_cons_of_mem _ (h q hq)

theorem Housed.store (h : t.Housed) {q : Product} (hq : q.workdir ∈ t.directories) :
    (t.store q).Housed :=
  List.forall_mem_cons.mpr ⟨hq, h⟩

/-- There is no product in a directory that is new. -/
theorem Housed.workdir_ne (h : t.Housed) (hfresh : dir ∉ t.directories) :
    ∀ q ∈ (t.enter dir).products, q.workdir ≠ dir :=
  fun q hq heq => hfresh (heq ▸ h q hq)

end Track

namespace Experiment

variable {σ : Type}

/-- The start of the name of the directory in which a partition is built. -/
def directoryLabel (p : Partition) : String :=
  Workspace.cleanLabel (workspaceLabel p.signature) ++ "-"

/-- Nobody asks to stop, and for the partitions of `domain` what happens outside comes to `truth`.
What is not said here, such as the paths of the directories, is up to the outside. -/
structure Steady (x : Experiment σ) (domain : Partition → Prop) (truth : Partition → Outcome)
    (inv : Track → σ → Prop) : Prop where
  going {t : Track} {w : σ} : inv t w → (x.lab.cancelled w).1 = false
  looked {t : Track} {w : σ} : inv t w → inv t (x.lab.cancelled w).2
  logged {t : Track} {w : σ} (r : Trial) : inv t w → inv t ((x.lab.appendLog r).runOn w).2
  shown {t : Track} {w : σ} (r : Trial) : inv t w → inv t (x.lab.observe r w).2
  entered {t : Track} {w w' : σ} {label path : String} : inv t w →
    (x.lab.makeDirectory label).runOn w = (.ok path, w') →
    path ∉ t.directories ∧ inv (t.enter path) w'
  barred {t : Track} {w w' : σ} {p : Partition} {e : Error} : inv t w → domain p →
    (x.lab.makeDirectory (directoryLabel p)).runOn w = (.error e, w') →
    truth p = .error ⟨.build, e.message⟩ ∧ inv t w'
  stored {t : Track} {w w' : σ} {p : Partition} {dir : String} {made : Built} : inv t w →
    domain p → dir ∈ t.directories → (∀ q ∈ t.products, q.workdir ≠ dir) →
    (x.build p x.trusted x.variant dir).run w = (.ok made, w') → inv (t.store ⟨dir, p, made⟩) w'
  unbuilt {t : Track} {w w' : σ} {p : Partition} {dir : String} {f : Failure} : inv t w →
    domain p → dir ∈ t.directories → (∀ q ∈ t.products, q.workdir ≠ dir) →
    (x.build p x.trusted x.variant dir).run w = (.error f, w') →
    truth p = .error f ∧ inv (t.attempt p) w'
  ran {t : Track} {w w' : σ} {q : Product} {r : Except Failure (String × Nat)} : inv t w →
    domain q.partition → q ∈ t.products →
    (x.execute q.made.executable x.target q.workdir).run w = (r, w') →
    (x.judge r).1 = truth q.partition ∧ inv (t.run q.partition) w'
  left {t : Track} {w : σ} {dir : String} : inv t w → dir ∈ t.directories →
    inv (t.leave dir) ((x.lab.removeDirectory dir).runOn w).2

theorem Steady.congr {x : Experiment σ} {domain : Partition → Prop}
    {truth truth' : Partition → Outcome} {inv : Track → σ → Prop} (hx : x.Steady domain truth inv)
    (h : ∀ p, domain p → truth p = truth' p) : x.Steady domain truth' inv :=
  { hx with
    barred := fun hw hp hmake => h _ hp ▸ hx.barred hw hp hmake
    unbuilt := fun hw hp hdir hempty hbuild => h _ hp ▸ hx.unbuilt hw hp hdir hempty hbuild
    ran := fun hw hp hq hrun => h _ hp ▸ hx.ran hw hp hq hrun }

theorem Steady.mono {x : Experiment σ} {domain domain' : Partition → Prop}
    {truth : Partition → Outcome} {inv : Track → σ → Prop} (hx : x.Steady domain truth inv)
    (h : ∀ p, domain' p → domain p) : x.Steady domain' truth inv :=
  { hx with
    barred := fun hw hp => hx.barred hw (h _ hp)
    stored := fun hw hp => hx.stored hw (h _ hp)
    unbuilt := fun hw hp => hx.unbuilt hw (h _ hp)
    ran := fun hw hp => hx.ran hw (h _ hp) }

/-- Builds a partition in the given directory and runs what was built. -/
def tryIn (x : Experiment σ) (p : Partition) (dir : String) : StateM σ Outcome := do
  match ← (x.build p x.trusted x.variant dir).run with
  | .error f => pure (.error f)
  | .ok made => do
    let ran ← (x.execute made.executable x.target dir).run
    pure (x.judge ran).1

/-- A trial on its own, in a fresh directory. -/
def alone (x : Experiment σ) (p : Partition) : StateM (Site σ) Outcome := do
  match ← (Site.acquire x.lab (workspaceLabel p.signature)).run with
  | .error e => pure (.error ⟨.build, e.message⟩)
  | .ok w => do
    let o ← Site.lift (x.tryIn p w.path)
    Site.drop x.lab w
    pure o

end Experiment

/-! ### What the actions of a trial do -/

theorem Site.lift_eq {σ α : Type} {a : StateM σ α} {s : Site σ} {r : α} {w : σ}
    (h : a s.world = (r, w)) : lift a s = (r, { s with world := w }) := by
  rw [lift, h]

theorem Session.onSite_eq {σ α : Type} {a : StateM (Site σ) α} {s : Session σ} {r : α}
    {site : Site σ} (h : a s.site = (r, site)) : onSite a s = (r, { s with site := site }) := by
  rw [onSite, h]

theorem Session.onWorld_eq {σ α : Type} {a : StateM σ α} {s : Session σ} {r : α} {w : σ}
    (h : a s.site.world = (r, w)) : onWorld a s = (r, { s with site.world := w }) := by
  rw [onWorld, onSite, Site.lift_eq h]

namespace Site

variable {σ : Type} (lab : Lab σ)

theorem runOn_attempt {α : Type} (a : Attempt σ α) (s : Site σ) :
    (attempt a).runOn s = ((a.runOn s.world).1, { s with world := (a.runOn s.world).2 }) := rfl

theorem acquire_ok {label path : String} {s : Site σ} {w : σ}
    (h : (lab.makeDirectory (Workspace.cleanLabel label ++ "-")).runOn s.world = (.ok path, w)) :
    (acquire lab label).runOn s = (.ok { path := path }, ⟨w, s.ledger.enter⟩) := by
  rw [acquire, Attempt.runOn_bind, runOn_attempt, h]
  rfl

theorem acquire_error {label : String} {e : Error} {s : Site σ} {w : σ}
    (h : (lab.makeDirectory (Workspace.cleanLabel label ++ "-")).runOn s.world = (.error e, w)) :
    (acquire lab label).runOn s = (.error e, { s with world := w }) := by
  rw [acquire, Attempt.runOn_bind, runOn_attempt, h]

theorem world_drop {w : Workspace} (s : Site σ) (hheld : w.held = true) :
    (drop lab w s).2.world =
      if lab.deletes then ((lab.removeDirectory w.path).runOn s.world).2 else s.world := by
  obtain ⟨path, held⟩ := w
  obtain rfl : held = true := hheld
  cases hdel : lab.deletes <;> simp [drop, release, hdel] <;> rfl

end Site

namespace Experiment

variable {σ : Type} (x : Experiment σ)

theorem record_eq (p : Partition) (o : Outcome) (buildMs? runMs? : Option Nat) (cached : Bool)
    (s : Session σ) :
    x.record p o buildMs? runMs? cached s =
      let t := Trial.ofOutcome (s.trials.length + 1) p o buildMs? runMs? cached
      ((), { s with
        site.world := (x.lab.observe t ((x.lab.appendLog t).runOn s.site.world).2).2
        trials := s.trials ++ [t] }) := rfl

theorem finish_eq {t : Task} {o : Outcome} {buildMs? runMs? : Option Nat} {s : Session σ}
    (hgo : (x.lab.cancelled s.site.world).1 = false) :
    x.finish t o buildMs? runMs? s =
      ({ t with progress := .settled o },
        (x.record t.partition o buildMs? runMs? false
          (({ s with site.world := (x.lab.cancelled s.site.world).2 } : Session σ).remember
            t.signature o)).2) := by
  have hlook : x.lab.cancelled s.site.world = (false, (x.lab.cancelled s.site.world).2) :=
    Prod.ext hgo rfl
  rw [finish]
  exact bind_of (Session.onWorld_eq hlook)

end Experiment

end Culprit
