import Culprit.Proofs.Search.Signs
import Culprit.Proofs.Session.Batch

/-!
A series of trials as it looks, and without its times, of which only that they were taken is kept.
The passes of a batch are carried out on what is left by an experiment to which nothing outside
happens, and which is told what builds and runs come to.
-/

namespace Culprit

variable {σ : Type}

/-! ### What is left of a session -/

/-- Of the times only that they were taken is kept. -/
def Trial.sign (t : Trial) : Trial :=
  { t with
    score? := t.score?.map Score.sign
    buildMs? := t.buildMs?.map fun _ => 0
    runMs? := t.runMs?.map fun _ => 0 }

def Trial.through (g : Look) (t : Trial) : Trial :=
  { t with
    score? := t.score?.map g.score
    failure? := t.failure?.map (Failure.through g)
    buildMs? := t.buildMs?.map fun _ => 0
    runMs? := t.runMs?.map fun _ => 0 }

def Progress.through (g : Look) : Progress → Progress
  | .settled o => .settled (o.through g)
  | .waiting => .waiting
  | .repeated => .repeated
  | .built _ _ => .built ⟨"", true⟩ ⟨"", 0, 0⟩

def Task.through (g : Look) (k : Task) : Task :=
  { k with progress := k.progress.through g }

def Session.through (g : Look) (s : Session σ) : Session Unit where
  site := ⟨(), .empty⟩
  memory := s.memory.map fun e => (e.1, e.2.through g)
  executed := s.executed
  trials := s.trials.map (Trial.through g)

theorem Trial.through_ofOutcome (g : Look) (seq : Nat) (p : Partition) (o : Outcome)
    (buildMs? runMs? : Option Nat) (cached : Bool) :
    (ofOutcome seq p o buildMs? runMs? cached).through g =
      ofOutcome seq p (o.through g) (buildMs?.map fun _ => 0) (runMs?.map fun _ => 0) cached := by
  cases o <;> rfl

/-- The failure of a build. -/
def Outcome.isUnbuilt : Outcome → Bool
  | .error f => f.stage = .build
  | .ok _ => false

@[simp] theorem Outcome.isUnbuilt_through (g : Look) (o : Outcome) :
    (o.through g).isUnbuilt = o.isUnbuilt := by
  cases o <;> rfl

theorem Session.remembered?_through (g : Look) (s : Session σ) (signature : String) :
    (s.through g).remembered? signature = (s.remembered? signature).map (Outcome.through g) := by
  rw [remembered?, remembered?, through]
  induction s.memory with
  | nil => rfl
  | cons e memory ih =>
      rw [List.map_cons, List.lookup_cons, List.lookup_cons, ih]
      split <;> rfl

/-! ### A session without an outside -/

/-- Nothing that is asked for has an effect. -/
def Lab.silent : Lab Unit where
  cancelled := pure false
  pipeline := ⟨"", pure [], fun _ _ _ _ => pure [], fun _ => pure ⟨"", 0, 0⟩, fun _ => ""⟩
  runner := fun _ _ => throw .emptyInvocation
  comparator := ⟨"", fun _ _ => .ok 0⟩
  readText := fun _ => pure (.ok "")
  makeDirectory := fun _ => pure ""
  removeDirectory := fun _ => pure ()
  deletes := false
  appendLog := fun _ => pure ()
  observe := fun _ => pure ()
  now := pure ""
  cwd := ""

namespace Experiment

def silent : Experiment Unit where
  lab := .silent
  run := .standard
  jobs := 1
  buildTimeout := 0
  baseline := ⟨⟨"", ""⟩, ⟨"", "", []⟩, "", 0, 0⟩
  trusted := ⟨"", "", []⟩
  variant := ⟨"", "", []⟩
  target := ⟨"", ""⟩

variable {x : Experiment σ} {s : Session σ} (g : Look)

theorem record_through (p : Partition) (o : Outcome) (buildMs? runMs? : Option Nat)
    (cached : Bool) : (x.record p o buildMs? runMs? cached s).2.through g =
      (silent.record p (o.through g) (buildMs?.map fun _ => 0) (runMs?.map fun _ => 0) cached
        (s.through g)).2 := by
  rw [record_eq, record_eq]
  simp only [Session.through, List.map_append, List.map_cons, List.map_nil,
    Trial.through_ofOutcome, List.length_map]

/-- While nobody asks to stop, the end of a trial has the same effect everywhere. -/
theorem finish_through (k : Task) (o : Outcome) (buildMs? runMs? : Option Nat)
    (hgo : (x.lab.cancelled s.site.world).1 = false) :
    ((x.finish k o buildMs? runMs? s).1.through g,
        (x.finish k o buildMs? runMs? s).2.through g) =
      silent.finish (k.through g) (o.through g) (buildMs?.map fun _ => 0) (runMs?.map fun _ => 0)
        (s.through g) := by
  rw [finish_eq x hgo, finish_eq silent rfl, record_through]
  rfl

/-! ### The passes without an outside -/

theorem judge_snd (r : Except Failure (String × Nat)) :
    ((x.judge r).2.map fun _ => 0) = (x.judge r).1.toOption.map fun _ => 0 := by
  match r with
  | .error f => rfl
  | .ok (output, ms) =>
      rw [judge]
      cases x.compare output <;> rfl

/-- A build pass in which each build comes to the failure that `o` tells, or to an executable. -/
def buildSeen (o : Partition → Outcome) (k : Task) : StateM (Session Unit) Task := do
  match k.progress with
  | .waiting => do
    modify fun s => { s with executed := s.executed + 1 }
    if (o k.partition).isUnbuilt then silent.finish k (o k.partition) none none
    else pure { k with progress := .built ⟨"", true⟩ ⟨"", 0, 0⟩ }
  | _ => pure k

/-- A run pass in which each run comes to the outcome that `o` tells. -/
def runSeen (o : Partition → Outcome) (k : Task) : StateM (Session Unit) Task := do
  match k.progress with
  | .built _ _ =>
    silent.finish k (o k.partition) (some 0) ((o k.partition).toOption.map fun _ => 0)
  | _ => pure k

/-- A last pass in which a task without an outcome comes to what is seen of a cancelled one. -/
def settleSeen (k : Task) : StateM (Session Unit) Outcome := do
  match k.progress with
  | .settled r => pure r
  | _ => do
    let r := ((← get).remembered? k.signature).getD
      (.error ((⟨.run, "cancelled"⟩ : Failure).through g))
    silent.record k.partition r none none true
    pure r

def batchSeen (o : Partition → Outcome) (ps : List Partition) :
    StateM (Session Unit) (List Outcome) := do
  let tasks ← silent.recallAll [] ps
  let tasks ← tasks.mapM (buildSeen o)
  let tasks ← tasks.mapM (runSeen o)
  tasks.mapM (settleSeen g)

section Machine

variable {g} {o : Partition → Outcome} {k : Task} {s : Session Unit}

theorem buildSeen_unbuilt (hwaiting : k.progress = .waiting)
    (hunbuilt : (o k.partition).isUnbuilt = true) :
    buildSeen o k s = silent.finish k (o k.partition) none none
      { s with executed := s.executed + 1 } := by
  rw [buildSeen, hwaiting]
  refine (bind_of rfl).trans ?_
  rw [if_pos hunbuilt]

theorem buildSeen_built (hwaiting : k.progress = .waiting)
    (hbuilt : (o k.partition).isUnbuilt = false) :
    buildSeen o k s = ({ k with progress := .built ⟨"", true⟩ ⟨"", 0, 0⟩ },
      { s with executed := s.executed + 1 }) := by
  rw [buildSeen, hwaiting]
  refine (bind_of rfl).trans ?_
  rw [hbuilt]
  rfl

theorem buildSeen_other (h : k.progress ≠ .waiting) : buildSeen o k s = (k, s) := by
  obtain ⟨p, signature, progress⟩ := k
  cases progress with
  | waiting => exact absurd rfl h
  | _ => rfl

theorem runSeen_built {w : Workspace} {made : Built} (hbuilt : k.progress = .built w made) :
    runSeen o k s = silent.finish k (o k.partition) (some 0)
      ((o k.partition).toOption.map fun _ => 0) s := by
  rw [runSeen, hbuilt]

theorem runSeen_other (h : k.progress.isBuilt = false) : runSeen o k s = (k, s) := by
  obtain ⟨p, signature, progress⟩ := k
  cases progress with
  | built w made => simp [Progress.isBuilt] at h
  | _ => rfl

theorem settleSeen_settled {r : Outcome} (hk : k.progress = .settled r) :
    settleSeen g k s = (r, s) := by
  rw [settleSeen, hk]
  rfl

theorem settleSeen_other (hk : ∀ r, k.progress ≠ .settled r) :
    settleSeen g k s =
      let r := (s.remembered? k.signature).getD (.error ((⟨.run, "cancelled"⟩ : Failure).through g))
      (r, (silent.record k.partition r none none true s).2) := by
  obtain ⟨p, signature, progress⟩ := k
  cases progress with
  | settled r => exact absurd rfl (hk r)
  | _ => rfl

end Machine

end Experiment

end Culprit
