/-!
Workers that share a list of jobs. Each worker goes round: it looks whether the pool should stop,
takes the next job, works on it, and hands in the result. A failing result makes the pool stop.

`step` is one atomic step of one worker, so a list of worker numbers is an interleaving and `run`
carries it out. `drain` runs one interleaving in which every worker comes to its end.
-/

namespace Culprit

inductive Worker (ι ρ : Type) where
  | ready
  /-- Saw no reason to stop. -/
  | cleared
  | working (job : ι)
  | carrying (result : ρ)
  | gone

/-- The work itself, what tells the pool to stop, and which results are failures. -/
structure Shift (ι τ ρ : Type) where
  work : ι → StateM τ ρ
  stop : StateM τ Bool
  fails : ρ → Bool

structure Pool (ι τ ρ : Type) where
  /-- The position of the next job. -/
  next : Nat
  workers : List (Worker ι ρ)
  failed : Bool
  /-- The results in the order in which they were handed in. -/
  results : List ρ
  state : τ

namespace Pool

variable {ι τ ρ : Type}

def start (workers : Nat) (state : τ) : Pool ι τ ρ :=
  ⟨0, List.replicate workers .ready, false, [], state⟩

def setWorker (p : Pool ι τ ρ) (w : Nat) (x : Worker ι ρ) : Pool ι τ ρ :=
  { p with workers := p.workers.set w x }

def look (s : Shift ι τ ρ) (p : Pool ι τ ρ) (w : Nat) : Pool ι τ ρ :=
  if p.failed then p.setWorker w .gone
  else
    let (stop, state) := s.stop p.state
    { p with state := state }.setWorker w (if stop then .gone else .cleared)

def take (jobs : List ι) (p : Pool ι τ ρ) (w : Nat) : Pool ι τ ρ :=
  { p with next := p.next + 1 }.setWorker w
    (match jobs[p.next]? with
      | some job => .working job
      | none => .gone)

def work (s : Shift ι τ ρ) (p : Pool ι τ ρ) (w : Nat) (job : ι) : Pool ι τ ρ :=
  let (r, state) := s.work job p.state
  { p with state := state }.setWorker w (.carrying r)

def handIn (s : Shift ι τ ρ) (p : Pool ι τ ρ) (w : Nat) (r : ρ) : Pool ι τ ρ :=
  { p with results := p.results ++ [r], failed := p.failed || s.fails r }.setWorker w
    (if s.fails r then .gone else .ready)

/-- The next step of worker `w`; a worker that is gone does nothing. -/
def step (s : Shift ι τ ρ) (jobs : List ι) (p : Pool ι τ ρ) (w : Nat) : Pool ι τ ρ :=
  match p.workers[w]? with
  | none => p
  | some .ready => p.look s w
  | some .cleared => p.take jobs w
  | some (.working job) => p.work s w job
  | some (.carrying r) => p.handIn s w r
  | some .gone => p

def run (s : Shift ι τ ρ) (jobs : List ι) (schedule : List Nat) (p : Pool ι τ ρ) : Pool ι τ ρ :=
  schedule.foldl (step s jobs) p

/-- One worker after the other, each for as many steps as all the jobs take. -/
def inTurn (workers jobs : Nat) : List Nat :=
  (List.range workers).flatMap fun w => List.replicate (4 * (jobs + 1)) w

def drain (s : Shift ι τ ρ) (jobs : List ι) (workers : Nat) (state : τ) : Pool ι τ ρ :=
  run s jobs (inTurn workers jobs.length) (start workers state)

@[simp] theorem run_nil (s : Shift ι τ ρ) (jobs : List ι) (p : Pool ι τ ρ) :
    run s jobs [] p = p := rfl

@[simp] theorem run_cons (s : Shift ι τ ρ) (jobs : List ι) (w : Nat) (ws : List Nat)
    (p : Pool ι τ ρ) : run s jobs (w :: ws) p = run s jobs ws (step s jobs p w) := rfl

theorem run_append (s : Shift ι τ ρ) (jobs : List ι) (us ws : List Nat) (p : Pool ι τ ρ) :
    run s jobs (us ++ ws) p = run s jobs ws (run s jobs us p) := by
  simp [run]

end Pool

end Culprit
