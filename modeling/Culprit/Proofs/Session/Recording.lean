import Culprit.Proofs.Session.Kept

/-!
A lab that writes down what it is asked. Its answers are those of the lab behind it, so a batch
comes to the same outcomes and leaves the same session; the list of deeds tells in which order the
directories were made, what was built and run in them, and when they were removed.
-/

namespace Culprit

variable {σ : Type}

/-- A call to the outside, with its answer. -/
inductive Deed where
  | entered (label : String) (answer : Except Error String)
  | built (request : BuildRequest) (answer : Except Error Built)
  | ran (call : Invocation) (limit : Nat) (answer : Except Error Ended)
  | read (path : String) (answer : Except SystemError String)
  | left (path : String) (answer : Except Error Unit)

namespace Deed

def isBuild : Deed → Bool
  | .built _ _ => true
  | _ => false

def isRun : Deed → Bool
  | .ran _ _ _ => true
  | _ => false

end Deed

/-- The outside, and what it was asked so far. -/
structure Recorded (σ : Type) where
  world : σ
  deeds : List Deed

namespace Recorded

variable {α : Type}

def quiet (a : StateM σ α) : StateM (Recorded σ) α := fun s =>
  ((a s.world).1, { s with world := (a s.world).2 })

def note (deed : α → Deed) (a : StateM σ α) : StateM (Recorded σ) α := fun s =>
  ((a s.world).1, ⟨(a s.world).2, s.deeds ++ [deed (a s.world).1]⟩)

theorem note_eq {deed : α → Deed} {a : StateM σ α} {s : Recorded σ} {r : α} {v : σ}
    (h : a s.world = (r, v)) : note deed a s = (r, ⟨v, s.deeds ++ [deed r]⟩) := by
  rw [note, h]

end Recorded

open Recorded (quiet note)

def Lab.recorded (lab : Lab σ) : Lab (Recorded σ) where
  cancelled := quiet lab.cancelled
  pipeline :=
    { name := lab.pipeline.name
      units := ExceptT.mk (quiet lab.pipeline.units.result)
      symbols := fun unit flags dir timeout =>
        ExceptT.mk (quiet (lab.pipeline.symbols unit flags dir timeout).result)
      build := fun q => ExceptT.mk (note (.built q) (lab.pipeline.build q).result)
      compilerOf := lab.pipeline.compilerOf }
  runner call limit := ExceptT.mk (note (.ran call limit) (lab.runner call limit).result)
  comparator := lab.comparator
  readText path := note (.read path) (lab.readText path)
  makeDirectory label := ExceptT.mk (note (.entered label) (lab.makeDirectory label).result)
  removeDirectory path := ExceptT.mk (note (.left path) (lab.removeDirectory path).result)
  deletes := lab.deletes
  appendLog t := ExceptT.mk (quiet (lab.appendLog t).result)
  observe t := quiet (lab.observe t)
  now := quiet lab.now
  cwd := lab.cwd

def Experiment.recorded (x : Experiment σ) : Experiment (Recorded σ) where
  lab := x.lab.recorded
  run := x.run
  jobs := x.jobs
  buildTimeout := x.buildTimeout
  baseline := x.baseline
  trusted := x.trusted
  variant := x.variant
  target := x.target

namespace Session

def deeds (s : Session (Recorded σ)) : List Deed :=
  s.site.world.deeds

/-- The session without what was written down. -/
def plain (s : Session (Recorded σ)) : Session σ where
  site := ⟨s.site.world.world, s.site.ledger⟩
  memory := s.memory
  executed := s.executed
  trials := s.trials

end Session

/-! ### The answers are the same -/

section Erases

variable {τ τ' α β ε ε' : Type} {f : τ → τ'}

/-- Seen through `f`, the first action does what the second one does. -/
def Erases (f : τ → τ') (a : StateM τ α) (b : StateM τ' α) : Prop :=
  ∀ s, b (f s) = ((a s).1, f (a s).2)

namespace Erases

theorem ret (r : α) : Erases f (pure r : StateM τ α) (pure r) :=
  fun _ => rfl

theorem bind {a : StateM τ α} {b : StateM τ' α} {g : α → StateM τ β} {h : α → StateM τ' β}
    (hab : Erases f a b) (hgh : ∀ r, Erases f (g r) (h r)) : Erases f (a >>= g) (b >>= h) :=
  fun s => (bind_of (hab s)).trans (hgh _ _)

theorem mapM {a : β → StateM τ α} {b : β → StateM τ' α} (h : ∀ r, Erases f (a r) (b r))
    (rs : List β) : Erases f (rs.mapM a) (rs.mapM b) := by
  induction rs with
  | nil => exact ret []
  | cons r rs ih =>
      rw [List.mapM_cons, List.mapM_cons]
      exact bind (h r) fun _ => bind ih fun _ => ret _

theorem bindExcept {a : ExceptT ε (StateM τ) α} {b : ExceptT ε (StateM τ') α}
    {g : α → ExceptT ε (StateM τ) β} {h : α → ExceptT ε (StateM τ') β}
    (hab : Erases f a.run b.run) (hgh : ∀ r, Erases f (g r).run (h r).run) :
    Erases f (a >>= g).run (b >>= h).run := by
  rw [ExceptT.run_bind, ExceptT.run_bind]
  refine bind hab fun r => ?_
  cases r with
  | error e => exact ret _
  | ok r => exact hgh r

theorem adapt {a : ExceptT ε (StateM τ) α} {b : ExceptT ε (StateM τ') α} (g : ε → ε')
    (h : Erases f a.run b.run) : Erases f (ExceptT.adapt g a).run (ExceptT.adapt g b).run := by
  intro s
  show (Except.mapError g (b.run (f s)).1, (b.run (f s)).2) = _
  rw [h s]
  rfl

end Erases

end Erases

namespace Site

/-- The directories without what was written down. -/
def plain (s : Site (Recorded σ)) : Site σ :=
  ⟨s.world.world, s.ledger⟩

variable (lab : Lab σ)

theorem acquire_erases (label : String) :
    Erases plain (acquire lab.recorded label).run (acquire lab label).run :=
  Erases.bindExcept (fun _ => rfl) fun _ => fun _ => rfl

theorem drop_erases (w : Workspace) : Erases plain (drop lab.recorded w) (drop lab w) := by
  obtain ⟨path, held⟩ := w
  refine Erases.bind ?_ fun _ => Erases.ret ()
  cases held with
  | false => exact Erases.ret _
  | true =>
      refine Erases.bind (fun _ => rfl) fun _ => ?_
      have hdeletes : lab.recorded.deletes = lab.deletes := rfl
      rw [hdeletes]
      cases lab.deletes with
      | false => exact Erases.bind (Erases.ret _) fun _ => Erases.ret _
      | true => exact Erases.bind (fun _ => rfl) fun _ => Erases.ret _

end Site

namespace Session

variable {α : Type}

theorem onSite_erases {a : StateM (Site (Recorded σ)) α} {b : StateM (Site σ) α}
    (h : Erases Site.plain a b) : Erases plain (onSite a) (onSite b) :=
  fun s => onSite_eq (s := plain s) (h s.site)

theorem onWorld_erases {a : StateM (Recorded σ) α} {b : StateM σ α}
    (h : Erases Recorded.world a b) : Erases plain (onWorld a) (onWorld b) :=
  fun s => onWorld_eq (s := plain s) (h s.site.world)

end Session

namespace Experiment

open Session (plain onSite_erases onWorld_erases)

variable {x : Experiment σ} {k : Task} {s : Session (Recorded σ)}

theorem build_erases (p : Partition) (dir : String) :
    Erases Recorded.world (x.recorded.build p x.trusted x.variant dir).run
      (x.build p x.trusted x.variant dir).run :=
  Erases.adapt _ fun _ => rfl

theorem execute_erases (executable dir : String) :
    Erases Recorded.world (x.recorded.execute executable x.target dir).run
      (x.execute executable x.target dir).run := by
  refine Erases.bindExcept (Erases.adapt _ fun _ => rfl) fun ended => ?_
  cases ended.success with
  | false => exact Erases.ret _
  | true =>
      refine Erases.bindExcept ?_ fun text => Erases.ret _
      rw [Setup.outputText, Setup.outputText]
      have hfile : x.recorded.run.outputFile? = x.run.outputFile? := rfl
      rw [hfile]
      cases x.run.outputFile? with
      | none => exact Erases.ret _
      | some file => exact Erases.adapt _ fun _ => rfl

theorem record_erases (p : Partition) (o : Outcome) (buildMs? runMs? : Option Nat)
    (cached : Bool) :
    Erases plain (x.recorded.record p o buildMs? runMs? cached)
      (x.record p o buildMs? runMs? cached) :=
  fun _ => rfl

theorem finish_erases (o : Outcome) (buildMs? runMs? : Option Nat) :
    Erases plain (x.recorded.finish k o buildMs? runMs?) (x.finish k o buildMs? runMs?) := by
  refine Erases.bind (onWorld_erases fun _ => rfl) fun stop => ?_
  cases stop with
  | true => exact Erases.bind (record_erases _ _ _ _ _) fun _ => Erases.ret _
  | false =>
      refine Erases.bind (fun _ => rfl) fun _ => ?_
      exact Erases.bind (record_erases _ _ _ _ _) fun _ => Erases.ret _

theorem recallAll_erases (seen : List String) (ps : List Partition) :
    Erases plain (x.recorded.recallAll seen ps) (x.recallAll seen ps) := by
  intro s
  induction ps generalizing seen s with
  | nil => rfl
  | cons p rest ih =>
      cases hknown : s.remembered? p.signature with
      | some o =>
          have hrest := ih seen (x.recorded.record p o none none true s).2
          rw [recallAll_known (s := plain s) hknown hrest, recallAll_known hknown rfl]
      | none =>
          by_cases hseen : p.signature ∈ seen
          · rw [recallAll_repeated (s := plain s) hknown hseen (ih seen s),
              recallAll_repeated hknown hseen rfl]
          · rw [recallAll_new (s := plain s) hknown hseen (ih _ s),
              recallAll_new hknown hseen rfl]

theorem buildTask_erases (k : Task) : Erases plain (x.recorded.buildTask k) (x.buildTask k) := by
  obtain ⟨p, signature, progress⟩ := k
  cases progress with
  | waiting =>
      refine Erases.bind (fun _ => rfl) fun _ => ?_
      refine Erases.bind (onSite_erases (Site.acquire_erases x.lab _)) fun acquired => ?_
      cases acquired with
      | error e => exact finish_erases _ none none
      | ok w =>
          refine Erases.bind (onWorld_erases (build_erases p w.path)) fun made => ?_
          cases made with
          | error f =>
              refine Erases.bind (onSite_erases (Site.drop_erases x.lab w)) fun _ => ?_
              exact finish_erases _ none none
          | ok made => exact Erases.ret _
  | _ => exact Erases.ret _

theorem runTask_erases (k : Task) : Erases plain (x.recorded.runTask k) (x.runTask k) := by
  obtain ⟨p, signature, progress⟩ := k
  cases progress with
  | built w made =>
      refine Erases.bind (onWorld_erases (execute_erases _ _)) fun ran => ?_
      refine Erases.bind (onSite_erases (Site.drop_erases x.lab w)) fun _ => ?_
      exact finish_erases _ _ _
  | _ => exact Erases.ret _

theorem settleTask_erases (k : Task) : Erases plain (x.recorded.settleTask k) (x.settleTask k) := by
  obtain ⟨p, signature, progress⟩ := k
  cases progress with
  | settled o => exact Erases.ret o
  | _ => exact fun _ => rfl

/-- A batch does the same whether or not it is written down. -/
theorem batch_erases (ps : List Partition) :
    Erases plain (x.recorded.batch ps) (x.batch ps) := by
  refine Erases.bind (recallAll_erases [] ps) fun tasks => ?_
  refine Erases.bind (Erases.mapM buildTask_erases tasks) fun tasks => ?_
  refine Erases.bind (Erases.mapM runTask_erases tasks) fun tasks => ?_
  exact Erases.mapM settleTask_erases tasks

end Experiment

end Culprit
