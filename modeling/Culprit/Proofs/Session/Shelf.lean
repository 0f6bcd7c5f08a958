import Culprit.Proofs.Session.Steady

/-!
A small outside. Its directories are numbered, it keeps what was built in each of them, and it
notes every build and every run. What the executable of a partition does is set down beforehand,
and so is when the run is asked to stop.
-/

namespace Culprit

structure Shelf where
  /-- Directories made so far. -/
  directories : Nat
  made : List (String × Partition)
  /-- The partitions that were built or tried to be. -/
  built : List Partition
  ran : List Partition
deriving DecidableEq, Repr

def Shelf.empty : Shelf := ⟨0, [], [], []⟩

/-- What happens on a shelf. -/
structure Scenario where
  units : List SourceUnit
  symbols : SourceUnit → List LinkSymbol
  /-- How the executable of a partition ends, or why there is none. -/
  ends : Partition → Except Error Ended
  /-- Whether the run is asked to stop once these builds have begun. -/
  stops : List Partition → Bool

namespace Scenario

def directory (n : Nat) : String :=
  String.ofList (List.replicate n 'd')

theorem directory_injective : Function.Injective directory := by
  intro m n h
  have hlength := congrArg (fun s => s.toList.length) h
  simpa [directory] using hlength

variable (c : Scenario)

def build (q : BuildRequest) : Attempt Shelf Built := ExceptT.mk fun s =>
  let s := { s with built := q.partition :: s.built }
  if c.stops s.built then (.error (.build .cancelled), s)
  else match c.ends q.partition with
    | .error e => (.error e, s)
    | .ok _ => (.ok ⟨q.workdir, 0, 0⟩, { s with made := (q.workdir, q.partition) :: s.made })

def runner : Runner Shelf := fun call _ => ExceptT.mk fun s =>
  match call.cwd?.bind fun dir => s.made.lookup dir with
  | none => (.error (.reported "nothing was built here"), s)
  | some p => (c.ends p, { s with ran := p :: s.ran })

/-- The score of another output than that of the baseline is its length. -/
def comparator : Comparator :=
  ⟨"length", fun baseline output =>
    .ok (if output = baseline then 0 else Float.ofNat output.length)⟩

def lab : Lab Shelf where
  cancelled := fun s => (c.stops s.built, s)
  pipeline :=
    { name := "shelf"
      units := pure c.units
      symbols := fun u _ _ _ => pure (c.symbols u)
      build := c.build
      compilerOf := Flags.compiler }
  runner := c.runner
  comparator := comparator
  readText := fun _ => pure (.error ⟨.missing, none⟩)
  makeDirectory := fun _ => ExceptT.mk fun s =>
    (.ok (directory s.directories), { s with directories := s.directories + 1 })
  removeDirectory := fun _ => pure ()
  deletes := true
  appendLog := fun _ => pure ()
  observe := fun _ => pure ()
  now := pure ""
  cwd := "/"

def engine : Engine Shelf where
  lab := c.lab
  run := .standard
  trusted := ⟨"g++", "-O0", []⟩
  buildTimeout := 0
  verify := true
  symbols := true

/-- A request about a shelf. -/
def request : Request := ⟨"t", "double", ⟨"g++", "-O3", []⟩, 1⟩

def experiment : Experiment Shelf where
  lab := c.lab
  run := .standard
  jobs := 1
  buildTimeout := 0
  baseline := ⟨⟨"t", "double"⟩, ⟨"g++", "-O0", []⟩, "", 0, 0⟩
  trusted := ⟨"g++", "-O0", []⟩
  variant := ⟨"g++", "-O3", []⟩
  target := ⟨"t", "double"⟩

/-- The world agrees with a track that began in the world `start`. -/
structure Agrees (start : Shelf) (t : Track) (s : Shelf) : Prop where
  built : s.built.map (·.signature) = t.built ++ start.built.map (·.signature)
  ran : s.ran.map (·.signature) = t.ran ++ start.ran.map (·.signature)
  products : ∀ q ∈ t.products, s.made.lookup q.workdir = some q.partition ∧
    ∃ ended, c.ends q.partition = .ok ended
  directories : ∀ dir ∈ t.directories, ∃ n < s.directories, dir = directory n

/-- The outcome of a partition. -/
def truth (x : Experiment Shelf) (p : Partition) : Outcome :=
  match c.ends p with
  | .error e => .error ⟨.build, e.message⟩
  | .ok ended =>
    (x.judge (if ended.success then .ok (ended.stdout, ended.ms)
      else .error ⟨.run, ended.summary⟩)).1

theorem agrees_start (start : Shelf) : c.Agrees start .empty start :=
  ⟨rfl, rfl, fun _ hq => absurd hq List.not_mem_nil, fun _ hdir => absurd hdir List.not_mem_nil⟩

variable {c} {x : Experiment Shelf}

theorem build_eq (hlab : x.lab = c.lab) (hstops : ∀ ps, c.stops ps = false) (p : Partition)
    (dir : String) (s : Shelf) :
    (x.build p x.trusted x.variant dir).run s =
      match c.ends p with
      | .error e => (.error ⟨.build, e.message⟩, { s with built := p :: s.built })
      | .ok _ => (.ok ⟨dir, 0, 0⟩,
        { s with built := p :: s.built, made := (dir, p) :: s.made }) := by
  rw [Setup.build, hlab]
  show (match c.build _ s with | (r, s') => (Except.mapError _ r, s')) = _
  rw [Scenario.build]
  simp only [ExceptT.mk, hstops]
  cases c.ends p <;> rfl

theorem makeDirectory_eq (label : String) (s : Shelf) :
    (c.lab.makeDirectory label).runOn s =
      (.ok (directory s.directories), { s with directories := s.directories + 1 }) := rfl

theorem execute_eq (hlab : x.lab = c.lab) (hrun : x.run.outputFile? = none) {s : Shelf}
    {dir executable : String} {p : Partition} {ended : Ended}
    (hmade : s.made.lookup dir = some p) (hends : c.ends p = .ok ended) :
    (x.execute executable x.target dir).run s =
      (if ended.success then .ok (ended.stdout, ended.ms) else .error ⟨.run, ended.summary⟩,
        { s with ran := p :: s.ran }) := by
  have hcall : (ExceptT.adapt (fun e => (⟨.run, e.message⟩ : Failure))
      (x.lab.runner (x.run.invocation x.lab.cwd executable x.target dir)
        (1000 * x.run.timeout))).run s =
      (.ok ended, { s with ran := p :: s.ran }) := by
    rw [hlab]
    show (match c.runner (x.run.invocation x.lab.cwd executable x.target dir)
      (1000 * x.run.timeout) s with | (r, s') => (Except.mapError _ r, s')) = _
    rw [Scenario.runner]
    simp only [RunSettings.invocation, Option.bind_some, ExceptT.mk, hmade, hends]
    rfl
  rw [Setup.execute]
  simp only [ExceptT.run_bind]
  refine (bind_of hcall).trans ?_
  cases hsuccess : ended.success
  · simp [hsuccess]
    rfl
  · simp [hsuccess, Setup.outputText, hrun]
    rfl

/-- A shelf where nobody asks to stop is steady. -/
theorem steady (domain : Partition → Prop) (start : Shelf) (hlab : x.lab = c.lab)
    (hrun : x.run.outputFile? = none) (hstops : ∀ ps, c.stops ps = false) :
    x.Steady domain (c.truth x) (c.Agrees start) where
  going _ := by rw [hlab]; exact hstops _
  looked h := by rw [hlab]; exact h
  logged _ h := by rw [hlab]; exact h
  shown _ h := by rw [hlab]; exact h
  entered h hmake := by
    rw [hlab, makeDirectory_eq] at hmake
    cases hmake
    refine ⟨fun hmem => ?_, h.built, h.ran, h.products, ?_⟩
    · obtain ⟨n, hn, heq⟩ := h.directories _ hmem
      exact absurd (directory_injective heq) (Nat.ne_of_gt hn)
    · refine List.forall_mem_cons.mpr ⟨⟨_, Nat.lt_succ_self _, rfl⟩, fun dir hdir => ?_⟩
      obtain ⟨n, hn, heq⟩ := h.directories dir hdir
      exact ⟨n, Nat.lt_succ_of_lt hn, heq⟩
  barred _ _ hmake := by
    rw [hlab, makeDirectory_eq] at hmake
    cases hmake
  stored {t w w' p dir made} h _ _ hempty hbuild := by
    rw [build_eq hlab hstops] at hbuild
    cases hends : c.ends p with
    | error e =>
        simp only [hends] at hbuild
        cases hbuild
    | ok ended =>
        simp only [hends] at hbuild
        cases hbuild
        refine ⟨congrArg _ h.built, h.ran, ?_, h.directories⟩
        refine List.forall_mem_cons.mpr ⟨⟨List.lookup_cons_self, ended, hends⟩, fun q hq => ?_⟩
        refine ⟨?_, (h.products q hq).2⟩
        rw [List.lookup_cons, beq_false_of_ne (hempty q hq)]
        exact (h.products q hq).1
  unbuilt {t w w' p dir f} h _ _ _ hbuild := by
    rw [build_eq hlab hstops] at hbuild
    cases hends : c.ends p with
    | ok ended =>
        simp only [hends] at hbuild
        cases hbuild
    | error e =>
        simp only [hends] at hbuild
        cases hbuild
        exact ⟨by rw [truth, hends], congrArg _ h.built, h.ran, h.products, h.directories⟩
  ran {t w w' q r} h _ hq hexecute := by
    obtain ⟨hmade, ended, hends⟩ := h.products q hq
    rw [execute_eq hlab hrun hmade hends] at hexecute
    cases hexecute
    exact ⟨by rw [truth, hends], h.built, congrArg _ h.ran, h.products, h.directories⟩
  left h _ := by
    rw [hlab]
    refine ⟨h.built, h.ran, fun q hq => h.products q (List.mem_filter.mp hq).1, ?_⟩
    exact fun dir hdir => h.directories dir (List.mem_filter.mp hdir).1

end Scenario

end Culprit
