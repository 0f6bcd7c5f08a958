import Culprit.Proofs.Baseline.Founding
import Culprit.Proofs.Session.Recording

/-!
In which order a batch calls the outside. Every partition that is new, being neither remembered nor
a repetition, opens with a directory of its own and a build in it; the openings of the whole batch
come first. Then each build that came to an end is run once, where it was built, and the directory
is left. The outcome goes to the position of the partition.
-/

namespace Culprit

variable {σ : Type}

namespace Setup

/-! ### What running an executable comes to -/

section Execute

variable {s : Setup σ} {executable dir : String} {target : Target} {w v : σ}

theorem execute_unstarted {e : Error}
    (h : (s.lab.runner (s.run.invocation s.lab.cwd executable target dir)
      (1000 * s.run.timeout)).run w = (.error e, v)) :
    (s.execute executable target dir).run w = (.error ⟨.run, e.message⟩, v) :=
  run_bind_error (run_adapt_of _ h) _

variable {ended : Ended}
  (h : (s.lab.runner (s.run.invocation s.lab.cwd executable target dir)
    (1000 * s.run.timeout)).run w = (.ok ended, v))

include h

theorem execute_failed (hsuccess : ended.success = false) :
    (s.execute executable target dir).run w = (.error ⟨.run, ended.summary⟩, v) := by
  refine (run_bind_ok (run_adapt_of _ h) _).trans ?_
  rw [hsuccess]
  rfl

theorem execute_succeeded {text : Except Failure String} {v' : σ} (hsuccess : ended.success = true)
    (htext : (s.outputText dir ended).run v = (text, v')) :
    (s.execute executable target dir).run w = (text.map fun t => (t, ended.ms), v') := by
  refine (run_bind_ok (run_adapt_of _ h) _).trans ?_
  rw [if_pos hsuccess]
  cases text with
  | error f => exact run_bind_error htext _
  | ok t => exact run_bind_ok htext _

end Execute

end Setup

namespace Session

/-- How a batch takes up the partition at a position of `ps`. -/
def progressAt (s : Session σ) (ps : List Partition) (j : Partition × Nat) : Progress :=
  match s.remembered? j.1.signature with
  | some o => .settled o
  | none =>
    if j.1.signature ∈ (ps.take j.2).map (·.signature) then .repeated else .waiting

def taskAt (s : Session σ) (ps : List Partition) (j : Partition × Nat) : Task :=
  ⟨j.1, j.1.signature, s.progressAt ps j⟩

/-- The partition is neither remembered nor a repetition. -/
def isNew (s : Session σ) (ps : List Partition) (j : Partition × Nat) : Bool :=
  j.1.signature ∉ s.signatures ∧ j.1.signature ∉ (ps.take j.2).map (·.signature)

/-- The partitions that are new, with their positions. -/
def newcomers (s : Session σ) (ps : List Partition) : List (Partition × Nat) :=
  ps.zipIdx.filter (s.isNew ps)

theorem isNew_iff {s : Session σ} {ps : List Partition} {j : Partition × Nat} :
    s.isNew ps j = true ↔ s.progressAt ps j = .waiting := by
  rw [isNew, decide_eq_true_iff, ← remembered?_eq_none, progressAt]
  cases s.remembered? j.1.signature with
  | some o => simp
  | none =>
      by_cases hseen : j.1.signature ∈ (ps.take j.2).map (·.signature) <;> simp

theorem not_built_progressAt (s : Session σ) (ps : List Partition) (j : Partition × Nat) :
    (s.progressAt ps j).isBuilt = false := by
  rw [progressAt]
  split
  · rfl
  · split <;> rfl

end Session

namespace Experiment

variable (x : Experiment σ)

/-! ### What becomes of one partition -/

def request (p : Partition) (dir : String) : BuildRequest where
  partition := p
  trusted := x.trusted
  variant := x.variant
  workdir := dir
  jobs := max x.jobs 1
  timeout := x.buildTimeout

/-- The command that starts an executable: by its absolute path, in the directory of the build, and
with the arguments of the test for that directory. -/
def call (executable dir : String) : Invocation where
  program := Path.absolute x.lab.cwd executable
  args := x.run.args.map (RunSettings.fill x.target dir)
  cwd? := some dir
  launcher := x.run.launcher

/-- An executable is run once, and a file that it was to write is read after a clean exit. -/
inductive Executes (executable dir : String) :
    List Deed → Except Failure (String × Nat) → Prop
  | unstarted (e : Error) :
      Executes executable dir [.ran (x.call executable dir) (1000 * x.run.timeout) (.error e)]
        (.error ⟨.run, e.message⟩)
  | failed (ended : Ended) : ended.success = false →
      Executes executable dir [.ran (x.call executable dir) (1000 * x.run.timeout) (.ok ended)]
        (.error ⟨.run, ended.summary⟩)
  | printed (ended : Ended) : ended.success = true → x.run.outputFile? = none →
      Executes executable dir [.ran (x.call executable dir) (1000 * x.run.timeout) (.ok ended)]
        (.ok (ended.stdout, ended.ms))
  | unread (ended : Ended) (file : String) (cause : SystemError) : ended.success = true →
      x.run.outputFile? = some file →
      Executes executable dir
        [.ran (x.call executable dir) (1000 * x.run.timeout) (.ok ended),
          .read (Path.join dir file) (.error cause)]
        (.error ⟨.run, (Error.file (.read (Path.join dir file)) cause).message⟩)
  | written (ended : Ended) (file text : String) : ended.success = true →
      x.run.outputFile? = some file →
      Executes executable dir
        [.ran (x.call executable dir) (1000 * x.run.timeout) (.ok ended),
          .read (Path.join dir file) (.ok text)]
        (.ok (text, ended.ms))

/-- A directory is removed if that is wanted, whether or not it can be. -/
inductive Leaves (dir : String) : List Deed → Prop
  | kept : x.lab.deletes = false → Leaves dir []
  | removed (answer : Except Error Unit) : x.lab.deletes = true → Leaves dir [.left dir answer]

/-- The deeds for one partition while the batch builds and while it runs, and the outcome. -/
inductive Course (p : Partition) : List Deed → List Deed → Outcome → Prop
  | barred (e : Error) :
      Course p [.entered (directoryLabel p) (.error e)] [] (.error ⟨.build, e.message⟩)
  | unbuilt (dir : String) (e : Error) {leaving : List Deed} : x.Leaves dir leaving →
      Course p
        (.entered (directoryLabel p) (.ok dir) :: .built (x.request p dir) (.error e) :: leaving) []
        (.error ⟨.build, e.message⟩)
  | completed (dir : String) (made : Built) {execution leaving : List Deed}
      {ran : Except Failure (String × Nat)} :
      x.Executes made.executable dir execution ran → x.Leaves dir leaving →
      Course p
        [.entered (directoryLabel p) (.ok dir), .built (x.request p dir) (.ok made)]
        (execution ++ leaving) (x.judge ran).1

variable {x} {p : Partition} {dir executable : String} {opening closing ds : List Deed}
  {o : Outcome} {ran : Except Failure (String × Nat)}

theorem Executes.not_build (h : x.Executes executable dir ds ran) :
    ∀ d ∈ ds, d.isBuild = false := by
  cases h <;> simp [Deed.isBuild]

theorem Leaves.neither (h : x.Leaves dir ds) :
    ∀ d ∈ ds, d.isBuild = false ∧ d.isRun = false := by
  cases h <;> simp [Deed.isBuild, Deed.isRun]

/-- Nothing is run while the batch builds. -/
theorem Course.opening_not_run (h : x.Course p opening closing o) :
    ∀ d ∈ opening, d.isRun = false := by
  cases h with
  | barred e => simp [Deed.isRun]
  | unbuilt dir e hleaves =>
      refine List.forall_mem_cons.mpr ⟨rfl, List.forall_mem_cons.mpr ⟨rfl, ?_⟩⟩
      exact fun d hd => (hleaves.neither d hd).2
  | completed dir made hexecutes hleaves => simp [Deed.isRun]

/-- Nothing is built once the batch runs. -/
theorem Course.closing_not_build (h : x.Course p opening closing o) :
    ∀ d ∈ closing, d.isBuild = false := by
  cases h with
  | barred e => simp
  | unbuilt dir e hleaves => simp
  | completed dir made hexecutes hleaves =>
      refine List.forall_mem_append.mpr ⟨hexecutes.not_build, ?_⟩
      exact fun d hd => (hleaves.neither d hd).1

/-! ### The deeds of each pass -/

section Passes

variable {s : Session (Recorded σ)}

theorem deeds_finish (k : Task) (o : Outcome) (buildMs? runMs? : Option Nat) :
    (x.recorded.finish k o buildMs? runMs? s).2.deeds = s.deeds := by
  rcases hlook : x.recorded.lab.cancelled s.site.world with ⟨stop, w⟩
  have hquiet : w.deeds = s.deeds := congrArg (fun r => r.2.deeds) hlook.symm
  rw [finish, bind_of (Session.onWorld_eq hlook)]
  cases stop <;> exact hquiet

theorem deeds_drop (dir : String) (site : Site (Recorded σ)) :
    ∃ ds, x.Leaves dir ds ∧
      (Site.drop x.recorded.lab { path := dir } site).2.world.deeds = site.world.deeds ++ ds := by
  have hdeletes : x.recorded.lab.deletes = x.lab.deletes := rfl
  rw [Site.world_drop x.recorded.lab site rfl, hdeletes]
  cases hwanted : x.lab.deletes with
  | false => exact ⟨[], .kept hwanted, (List.append_nil _).symm⟩
  | true => exact ⟨[.left dir _], .removed _ hwanted, rfl⟩

theorem deeds_execute (executable dir : String) (w : Recorded σ) :
    ∃ ran w' ds, (x.recorded.execute executable x.target dir).run w = (ran, w') ∧
      x.Executes executable dir ds ran ∧ w'.deeds = w.deeds ++ ds := by
  rcases hrun : (x.lab.runner (x.call executable dir) (1000 * x.run.timeout)).result w.world with
    ⟨answer, v⟩
  have hcall : (x.recorded.lab.runner (x.call executable dir) (1000 * x.run.timeout)).run w =
      (answer, ⟨v, w.deeds ++ [.ran (x.call executable dir) (1000 * x.run.timeout) answer]⟩) :=
    Recorded.note_eq hrun
  cases answer with
  | error e => exact ⟨_, _, _, Setup.execute_unstarted hcall, .unstarted e, rfl⟩
  | ok ended =>
      cases hsuccess : ended.success with
      | false => exact ⟨_, _, _, Setup.execute_failed hcall hsuccess, .failed ended hsuccess, rfl⟩
      | true =>
          cases hfile : x.run.outputFile? with
          | none =>
              have htext (w : Recorded σ) :
                  (x.recorded.outputText dir ended).run w = (.ok ended.stdout, w) := by
                rw [Setup.outputText, show x.recorded.run.outputFile? = none from hfile]
                rfl
              exact ⟨_, _, _, Setup.execute_succeeded hcall hsuccess (htext _),
                .printed ended hsuccess hfile, rfl⟩
          | some file =>
              rcases hread : x.lab.readText (Path.join dir file) v with ⟨answer, v'⟩
              have htext := run_adapt_of
                (fun cause => (⟨.run, (Error.file (.read (Path.join dir file)) cause).message⟩ :
                  Failure)) (a := ExceptT.mk (x.recorded.lab.readText (Path.join dir file)))
                (Recorded.note_eq (s := ⟨v, w.deeds ++ [.ran (x.call executable dir)
                  (1000 * x.run.timeout) (.ok ended)]⟩) hread)
              have hexecute := Setup.execute_succeeded hcall hsuccess (by
                rw [Setup.outputText, show x.recorded.run.outputFile? = some file from hfile]
                exact htext)
              refine ⟨_, _, _, hexecute, ?_, List.append_assoc _ _ _⟩
              cases answer with
              | error cause => exact .unread ended file cause hsuccess hfile
              | ok text => exact .written ended file text hsuccess hfile

theorem build_noted {w : Recorded σ} {v : σ} {answer : Except Error Built}
    (h : (x.lab.pipeline.build (x.request p dir)).result w.world = (answer, v)) :
    (x.recorded.build p x.trusted x.variant dir).run w =
      (answer.mapError fun e => ⟨.build, e.message⟩,
        ⟨v, w.deeds ++ [.built (x.request p dir) answer]⟩) :=
  run_adapt_of (a := x.recorded.lab.pipeline.build (x.request p dir)) _ (Recorded.note_eq h)

/-- The deeds of one task in the second pass. -/
inductive Opens (x : Experiment σ) : Task → Task → List Deed → Prop
  | idle {k : Task} : k.progress ≠ .waiting → Opens x k k []
  | barred (p : Partition) (e : Error) :
      Opens x ⟨p, p.signature, .waiting⟩
        ⟨p, p.signature, .settled (.error ⟨.build, e.message⟩)⟩
        [.entered (directoryLabel p) (.error e)]
  | unbuilt (p : Partition) (dir : String) (e : Error) {leaving : List Deed} :
      x.Leaves dir leaving →
      Opens x ⟨p, p.signature, .waiting⟩
        ⟨p, p.signature, .settled (.error ⟨.build, e.message⟩)⟩
        (.entered (directoryLabel p) (.ok dir) :: .built (x.request p dir) (.error e) :: leaving)
  | built (p : Partition) (dir : String) (made : Built) :
      Opens x ⟨p, p.signature, .waiting⟩ ⟨p, p.signature, .built { path := dir } made⟩
        [.entered (directoryLabel p) (.ok dir), .built (x.request p dir) (.ok made)]

/-- The deeds of one task in the third pass. -/
inductive Closes (x : Experiment σ) : Task → Task → List Deed → Prop
  | idle {k : Task} : k.progress.isBuilt = false → Closes x k k []
  | ran {p : Partition} {signature dir : String} {made : Built} {execution leaving : List Deed}
      {ran : Except Failure (String × Nat)} :
      x.Executes made.executable dir execution ran → x.Leaves dir leaving →
      Closes x ⟨p, signature, .built { path := dir } made⟩
        ⟨p, signature, .settled (x.judge ran).1⟩ (execution ++ leaving)

theorem buildTask_opens (k : Task) (hk : k.signature = k.partition.signature)
    (s : Session (Recorded σ)) :
    ∃ ds, Opens x k (x.recorded.buildTask k s).1 ds ∧
      (x.recorded.buildTask k s).2.deeds = s.deeds ++ ds := by
  obtain ⟨p, signature, progress⟩ := k
  obtain rfl : signature = p.signature := hk
  by_cases hwaiting : progress = .waiting
  · subst hwaiting
    rcases hmake : (x.lab.makeDirectory (directoryLabel p)).result s.site.world.world with
      ⟨e | dir, w⟩
    · have hbarred := buildTask_barred (x := x.recorded) (k := ⟨p, p.signature, .waiting⟩) (s := s)
        rfl (Recorded.note_eq hmake)
      rw [hbarred, finish_fst, deeds_finish]
      exact ⟨_, .barred p e, rfl⟩
    · have hentered : (x.recorded.lab.makeDirectory (directoryLabel p)).runOn s.site.world =
          (.ok dir, ⟨w, s.deeds ++ [.entered (directoryLabel p) (.ok dir)]⟩) :=
        Recorded.note_eq hmake
      have hnoted {answer w'} (hbuild : (x.lab.pipeline.build (x.request p dir)).result w =
            (answer, w')) :
          (x.recorded.build p x.trusted x.variant dir).run
              ⟨w, s.deeds ++ [.entered (directoryLabel p) (.ok dir)]⟩ =
            (answer.mapError fun e => ⟨.build, e.message⟩,
              ⟨w', (s.deeds ++ [.entered (directoryLabel p) (.ok dir)]) ++
                [.built (x.request p dir) answer]⟩) := build_noted hbuild
      rcases hbuild : (x.lab.pipeline.build (x.request p dir)).result w with ⟨e | made, w'⟩
      · have hunbuilt := buildTask_unbuilt (x := x.recorded) (k := ⟨p, p.signature, .waiting⟩)
          (s := s) rfl hentered (hnoted hbuild)
        obtain ⟨leaving, hleaves, hdeeds⟩ := deeds_drop (x := x) dir
          ⟨⟨w', (s.deeds ++ [.entered (directoryLabel p) (.ok dir)]) ++
            [.built (x.request p dir) (.error e)]⟩, s.site.ledger.enter⟩
        rw [hunbuilt, finish_fst, deeds_finish]
        refine ⟨_, .unbuilt p dir e hleaves, hdeeds.trans ?_⟩
        rw [List.append_assoc, List.append_assoc]
        rfl
      · have hbuilt := buildTask_built (x := x.recorded) (k := ⟨p, p.signature, .waiting⟩)
          (s := s) rfl hentered (hnoted hbuild)
        rw [hbuilt]
        exact ⟨_, .built p dir made, List.append_assoc _ _ _⟩
  · rw [buildTask_other hwaiting]
    exact ⟨[], .idle hwaiting, (List.append_nil _).symm⟩

theorem runTask_closes (k : Task) (hk : ∀ w made, k.progress = .built w made → w.held = true)
    (s : Session (Recorded σ)) :
    ∃ ds, Closes x k (x.recorded.runTask k s).1 ds ∧
      (x.recorded.runTask k s).2.deeds = s.deeds ++ ds := by
  obtain ⟨p, signature, progress⟩ := k
  cases progress with
  | built w made =>
      obtain ⟨dir, held⟩ := w
      obtain rfl : held = true := hk _ made rfl
      obtain ⟨ran, w', execution, hrun, hexecutes, hdeeds⟩ :=
        deeds_execute (x := x) made.executable dir s.site.world
      have hran := runTask_built (x := x.recorded) (s := s)
        (k := ⟨p, signature, .built { path := dir } made⟩) rfl hrun
      obtain ⟨leaving, hleaves, hleft⟩ := deeds_drop (x := x) dir { s.site with world := w' }
      rw [hran, finish_fst, deeds_finish]
      refine ⟨_, .ran hexecutes hleaves, hleft.trans ?_⟩
      rw [hdeeds, List.append_assoc]
      rfl
  | _ =>
      rw [runTask_other rfl]
      exact ⟨[], .idle rfl, (List.append_nil _).symm⟩

theorem deeds_settleTask (k : Task) (s : Session (Recorded σ)) :
    (x.recorded.settleTask k s).2.deeds = s.deeds := by
  obtain ⟨p, signature, progress⟩ := k
  cases progress <;> rfl

/-- The first pass takes up every partition; those in `before` were taken up already. -/
theorem recallAll_eq (seen : List String) (before rest : List Partition) (s : Session σ)
    (hseen : ∀ g, s.remembered? g = none → (g ∈ seen ↔ g ∈ before.map (·.signature))) :
    (x.recallAll seen rest s).1 =
      (rest.zipIdx before.length).map (s.taskAt (before ++ rest)) := by
  induction rest generalizing seen before s with
  | nil => rfl
  | cons p rest ih =>
      have htail {seen' : List String} (s' : Session σ) (hmemory : s'.memory = s.memory)
          (hseen' : ∀ g, s.remembered? g = none →
            (g ∈ seen' ↔ g ∈ before.map (·.signature) ∨ g = p.signature)) :
          (x.recallAll seen' rest s').1 =
            (rest.zipIdx (before.length + 1)).map (s.taskAt (before ++ p :: rest)) := by
        have hrest := ih seen' (before ++ [p]) s' fun g hg => by
          rw [List.map_append, List.mem_append, List.map_singleton, List.mem_singleton]
          exact hseen' g (by rwa [Session.remembered?, hmemory] at hg)
        rw [List.length_append, List.append_assoc] at hrest
        rw [hrest]
        refine List.map_congr_left fun j _ => ?_
        simp only [Session.taskAt, Session.progressAt, Session.remembered?, hmemory]
        rfl
      have hhead : (before ++ p :: rest).take before.length = before := List.take_left
      rw [List.zipIdx_cons, List.map_cons, Session.taskAt, Session.progressAt, hhead]
      cases hknown : s.remembered? p.signature with
      | some o =>
          rw [recallAll_known hknown rfl]
          refine congrArg (List.cons _) (htail (x.record p o none none true s).2 rfl
            fun g hg => ?_)
          rw [hseen g hg, or_iff_left]
          rintro rfl
          simp [hknown] at hg
      | none =>
          by_cases hfirst : p.signature ∈ seen
          · rw [recallAll_repeated hknown hfirst rfl, if_pos ((hseen _ hknown).mp hfirst)]
            refine congrArg (List.cons _) (htail s rfl fun g hg => ?_)
            rw [hseen g hg, or_iff_left_of_imp]
            rintro rfl
            exact (hseen _ hknown).mp hfirst
          · rw [recallAll_new hknown hfirst rfl, if_neg fun h => hfirst ((hseen _ hknown).mpr h)]
            refine congrArg (List.cons _) (htail s rfl fun g hg => ?_)
            rw [List.mem_cons, hseen g hg, or_comm]

theorem deeds_recallAll (seen : List String) (ps : List Partition) (s : Session (Recorded σ)) :
    (x.recorded.recallAll seen ps s).2.deeds = s.deeds := by
  induction ps generalizing seen s with
  | nil => rfl
  | cons p rest ih =>
      cases hknown : s.remembered? p.signature with
      | some o =>
          rw [recallAll_known hknown rfl]
          exact ih seen _
      | none =>
          by_cases hseen : p.signature ∈ seen
          · rw [recallAll_repeated hknown hseen rfl]
            exact ih seen s
          · rw [recallAll_new hknown hseen rfl]
            exact ih _ s

/-! ### Whole passes -/

/-- One step of a pass and what it did outside. -/
structure Step (β γ : Type) where
  before : β
  after : γ
  deeds : List Deed

theorem mapM_steps {β γ : Type} {f : β → StateM (Session (Recorded σ)) γ} {P : β → Prop}
    {R : β → γ → List Deed → Prop}
    (hf : ∀ b s, P b → ∃ ds, R b (f b s).1 ds ∧ (f b s).2.deeds = s.deeds ++ ds)
    (bs : List β) (hP : ∀ b ∈ bs, P b) (s : Session (Recorded σ)) :
    ∃ steps : List (Step β γ), steps.map (·.before) = bs ∧
      steps.map (·.after) = (bs.mapM f s).1 ∧ (∀ t ∈ steps, R t.before t.after t.deeds) ∧
      (bs.mapM f s).2.deeds = s.deeds ++ steps.flatMap (·.deeds) := by
  induction bs generalizing s with
  | nil => exact ⟨[], rfl, rfl, fun t ht => absurd ht List.not_mem_nil, (List.append_nil _).symm⟩
  | cons b bs ih =>
      obtain ⟨hb, hbs⟩ := List.forall_mem_cons.mp hP
      obtain ⟨ds, hR, hdeeds⟩ := hf b s hb
      obtain ⟨steps, hbefore, hafter, hall, hrest⟩ := ih hbs (f b s).2
      rw [List.mapM_cons]
      refine ⟨⟨b, (f b s).1, ds⟩ :: steps, congrArg _ hbefore, congrArg _ hafter,
        List.forall_mem_cons.mpr ⟨hR, hall⟩, hrest.trans ?_⟩
      rw [hdeeds, List.append_assoc]
      rfl

/-- A partition of a batch with its position, its deeds while the batch builds and while it runs,
and its outcome. -/
structure Job where
  partition : Partition
  position : Nat
  opening : List Deed
  closing : List Deed
  outcome : Outcome

/-- The steps of one position in the last three passes. -/
def Job.ofSteps (t : Step (Step (Step (Partition × Nat) Task) Task) Outcome) : Job where
  partition := t.before.before.before.1
  position := t.before.before.before.2
  opening := t.before.before.deeds
  closing := t.before.deeds
  outcome := t.after

/-- What the passes made of a position. -/
def Passed (x : Experiment σ) (s : Session (Recorded σ)) (ps : List Partition) (j : Job) : Prop :=
  ∃ built ran, Opens x (s.taskAt ps (j.partition, j.position)) built j.opening ∧
    Closes x built ran j.closing ∧ ∀ o, ran.progress = .settled o → j.outcome = o

/-- A directory in which something was built is held. -/
theorem Opens.held {k k' : Task} (h : Opens x k k' ds) (hk : k.progress.isBuilt = false)
    (w : Workspace) (made : Built) (hbuilt : k'.progress = .built w made) : w.held = true := by
  cases h with
  | idle => simp [hbuilt, Progress.isBuilt] at hk
  | barred p e => simp at hbuilt
  | unbuilt p dir e hleaves => simp at hbuilt
  | built p dir made' =>
      obtain ⟨rfl, -⟩ := Progress.built.inj hbuilt
      rfl

/-- A step of the last pass has inside it the steps of the earlier passes at its position. -/
theorem batch_steps (x : Experiment σ) (ps : List Partition) (s : Session (Recorded σ)) :
    ∃ steps : List (Step (Step (Step (Partition × Nat) Task) Task) Outcome),
      steps.map (·.before.before.before) = ps.zipIdx ∧
      steps.map (·.after) = (x.recorded.batch ps s).1 ∧
      (∀ t ∈ steps, Passed x s ps (.ofSteps t)) ∧
      (x.recorded.batch ps s).2.deeds = s.deeds ++ steps.flatMap (·.before.before.deeds) ++
        steps.flatMap (·.before.deeds) := by
  have hrecalled := recallAll_eq (x := x.recorded) [] [] ps s fun _ _ => Iff.rfl
  have hquiet := deeds_recallAll (x := x) [] ps s
  rcases hrecall : x.recorded.recallAll [] ps s with ⟨tasks, s₁⟩
  rw [hrecall] at hrecalled hquiet
  obtain rfl : tasks = ps.zipIdx.map (s.taskAt ps) := hrecalled
  obtain ⟨built, hplaces, hbuilt, hopens, hdeeds₂⟩ := mapM_steps (P := fun _ => True)
    (R := fun j => Opens x (s.taskAt ps j)) (fun j s' _ => buildTask_opens (s.taskAt ps j) rfl s')
    ps.zipIdx (fun _ _ => trivial) s₁
  have hheld : ∀ t ∈ built, ∀ w made, t.after.progress = .built w made → w.held = true :=
    fun t ht => (hopens t ht).held (s.not_built_progressAt ps t.before)
  rcases hbuild : ps.zipIdx.mapM (fun j => x.recorded.buildTask (s.taskAt ps j)) s₁ with
    ⟨builtTasks, s₂⟩
  rw [hbuild] at hbuilt hdeeds₂
  obtain ⟨ran, hbefore₃, hran, hcloses, hdeeds₃⟩ := mapM_steps
    (R := fun t => Closes x t.after) (fun t s' ht => runTask_closes t.after ht s') built hheld s₂
  rcases hrun : built.mapM (fun t => x.recorded.runTask t.after) s₂ with ⟨ranTasks, s₃⟩
  rw [hrun] at hran hdeeds₃
  obtain ⟨settled, hbefore₄, houts, hsettles, hdeeds₄⟩ := mapM_steps (P := fun _ => True)
    (f := fun t : Step (Step (Partition × Nat) Task) Task => x.recorded.settleTask t.after)
    (R := fun t o ds => ds = [] ∧ ∀ o', t.after.progress = .settled o' → o = o')
    (fun t s' _ => ⟨[], ⟨rfl, fun o' ho' => by rw [settleTask_settled ho']⟩,
      (deeds_settleTask t.after s').trans (List.append_nil _).symm⟩) ran
    (fun _ _ => trivial) s₃
  have hbatch : x.recorded.batch ps s =
      ran.mapM (fun t => x.recorded.settleTask t.after) s₃ := by
    have hbuild' : (ps.zipIdx.map (s.taskAt ps)).mapM x.recorded.buildTask s₁ =
        (builtTasks, s₂) := by
      rw [List.mapM_map]
      exact hbuild
    have hrun' : builtTasks.mapM x.recorded.runTask s₂ = (ranTasks, s₃) := by
      rw [← show built.map (·.after) = builtTasks from hbuilt, List.mapM_map]
      exact hrun
    rw [batch_of_passes hrecall hbuild' hrun', ← show ran.map (·.after) = ranTasks from hran,
      List.mapM_map]
    rfl
  have hsteps₂ : settled.map (·.before.before) = built := by
    rw [← hbefore₃, ← hbefore₄, List.map_map]
    rfl
  refine ⟨settled, ?_, hbatch ▸ houts, fun t ht => ?_, ?_⟩
  · rw [← hplaces, ← hsteps₂, List.map_map]
    rfl
  · have ht₃ : t.before ∈ ran := hbefore₄ ▸ List.mem_map_of_mem ht
    have ht₂ : t.before.before ∈ built := hsteps₂ ▸ List.mem_map_of_mem (f := (·.before.before)) ht
    exact ⟨_, _, hopens _ ht₂, hcloses _ ht₃, (hsettles t ht).2⟩
  · have hnone : settled.flatMap (·.deeds) = [] :=
      List.flatMap_eq_nil_iff.mpr fun t ht => (hsettles t ht).1
    rw [hbatch, hdeeds₄, hdeeds₃, hdeeds₂, hquiet, hnone, ← hsteps₂, ← hbefore₄,
      List.append_nil, List.flatMap_map, List.flatMap_map]

theorem batch_passed (x : Experiment σ) (ps : List Partition) (s : Session (Recorded σ)) :
    ∃ jobs : List Job, jobs.map (fun j => (j.partition, j.position)) = ps.zipIdx ∧
      jobs.map (·.outcome) = (x.recorded.batch ps s).1 ∧ (∀ j ∈ jobs, Passed x s ps j) ∧
      (x.recorded.batch ps s).2.deeds =
        s.deeds ++ jobs.flatMap (·.opening) ++ jobs.flatMap (·.closing) := by
  obtain ⟨steps, hplaces, houts, hpassed, hdeeds⟩ := batch_steps x ps s
  refine ⟨steps.map Job.ofSteps, ?_, ?_, List.forall_mem_map.mpr hpassed, ?_⟩
  · rw [← hplaces, List.map_map]
    rfl
  · rw [← houts, List.map_map]
    rfl
  · rw [hdeeds, List.flatMap_map, List.flatMap_map]
    rfl

theorem Opens.of_idle {k k' : Task} (h : Opens x k k' ds) (hk : k.progress ≠ .waiting) :
    k' = k ∧ ds = [] := by
  cases h with
  | idle => exact ⟨rfl, rfl⟩
  | _ => exact absurd rfl hk

theorem Closes.of_idle {k k' : Task} (h : Closes x k k' ds) (hk : k.progress.isBuilt = false) :
    k' = k ∧ ds = [] := by
  cases h with
  | idle => exact ⟨rfl, rfl⟩
  | ran => simp [Progress.isBuilt] at hk

/-- Only the partitions that are new do anything outside. -/
theorem Passed.idle {ps : List Partition} {j : Job} (h : Passed x s ps j)
    (hold : s.progressAt ps (j.partition, j.position) ≠ .waiting) :
    j.opening = [] ∧ j.closing = [] ∧
      ∀ o, s.progressAt ps (j.partition, j.position) = .settled o → j.outcome = o := by
  obtain ⟨built, ran, hopens, hcloses, hsettled⟩ := h
  obtain ⟨rfl, hopening⟩ := hopens.of_idle hold
  obtain ⟨rfl, hclosing⟩ := hcloses.of_idle (s.not_built_progressAt ps _)
  exact ⟨hopening, hclosing, hsettled⟩

theorem Passed.course {ps : List Partition} {j : Job} (h : Passed x s ps j)
    (hnew : s.progressAt ps (j.partition, j.position) = .waiting) :
    x.Course j.partition j.opening j.closing j.outcome := by
  obtain ⟨built, ran, hopens, hcloses, hsettled⟩ := h
  obtain ⟨p, position, opening, closing, outcome⟩ := j
  rw [Session.taskAt, hnew] at hopens
  dsimp only at hopens hcloses hsettled ⊢
  cases hopens with
  | idle hk => exact absurd rfl hk
  | barred p e =>
      obtain ⟨rfl, rfl⟩ := hcloses.of_idle rfl
      obtain rfl := hsettled _ rfl
      exact .barred e
  | unbuilt p dir e hleaves =>
      obtain ⟨rfl, rfl⟩ := hcloses.of_idle rfl
      obtain rfl := hsettled _ rfl
      exact .unbuilt dir e hleaves
  | built p dir made =>
      cases hcloses with
      | idle hk => simp [Progress.isBuilt] at hk
      | ran hexecutes hleaves =>
          obtain rfl := hsettled _ rfl
          exact .completed dir made hexecutes hleaves

/-- The outcomes stand at the positions of their jobs. -/
theorem outcome_at {jobs : List Job} {ps : List Partition} {os : List Outcome} {j : Job}
    (hplaces : jobs.map (fun j => (j.partition, j.position)) = ps.zipIdx)
    (houts : jobs.map (·.outcome) = os) (hj : j ∈ jobs) : os[j.position]? = some j.outcome := by
  obtain ⟨i, hi, rfl⟩ := List.getElem_of_mem hj
  have hplace : (jobs[i].partition, jobs[i].position) ∈ (ps.zipIdx)[i]? := by
    rw [← hplaces, List.getElem?_map, List.getElem?_eq_getElem hi]
    rfl
  have hposition : jobs[i].position = i := by
    rw [List.getElem?_zipIdx, Option.mem_def, Option.map_eq_some_iff] at hplace
    obtain ⟨p, -, hplace⟩ := hplace
    simpa using (congrArg Prod.snd hplace).symm
  rw [hposition, ← houts, List.getElem?_map, List.getElem?_eq_getElem hi]
  rfl

theorem flatMap_filter {α β : Type} {f : α → List β} {keep : α → Bool} {l : List α}
    (h : ∀ a ∈ l, keep a = false → f a = []) : (l.filter keep).flatMap f = l.flatMap f := by
  induction l with
  | nil => rfl
  | cons a l ih =>
      obtain ⟨ha, hl⟩ := List.forall_mem_cons.mp h
      cases hkeep : keep a with
      | false => rw [List.filter_cons_of_neg (by simp [hkeep]), ih hl, List.flatMap_cons, ha hkeep,
          List.nil_append]
      | true => rw [List.filter_cons_of_pos hkeep, List.flatMap_cons, List.flatMap_cons, ih hl]

/-- The partitions that are new, each with its course and its outcome, account for all deeds. -/
theorem batch_courses (x : Experiment σ) (ps : List Partition) (s : Session (Recorded σ)) :
    ∃ jobs : List Job,
      jobs.map (fun j => (j.partition, j.position)) = s.newcomers ps ∧
      (∀ j ∈ jobs, x.Course j.partition j.opening j.closing j.outcome ∧
        (x.recorded.batch ps s).1[j.position]? = some j.outcome) ∧
      (x.recorded.batch ps s).2.deeds =
        s.deeds ++ jobs.flatMap (·.opening) ++ jobs.flatMap (·.closing) := by
  obtain ⟨all, hplaces, houts, hpassed, hdeeds⟩ := batch_passed x ps s
  have hidle : ∀ j ∈ all, s.isNew ps (j.partition, j.position) = false →
      j.opening = [] ∧ j.closing = [] := by
    intro j hj hold
    have hpassed := (hpassed j hj).idle fun hwaiting => by
      rw [Session.isNew_iff.mpr hwaiting] at hold
      cases hold
    exact ⟨hpassed.1, hpassed.2.1⟩
  refine ⟨all.filter fun j => s.isNew ps (j.partition, j.position), ?_, fun j hj => ?_, ?_⟩
  · rw [Session.newcomers, ← hplaces, List.filter_map]
    rfl
  · obtain ⟨hj, hwaiting⟩ := List.mem_filter.mp hj
    exact ⟨(hpassed j hj).course (Session.isNew_iff.mp hwaiting), outcome_at hplaces houts hj⟩
  · rw [hdeeds, flatMap_filter fun j hj hold => (hidle j hj hold).1,
      flatMap_filter fun j hj hold => (hidle j hj hold).2]

/-- What is remembered is answered as it is. -/
theorem batch_remembered (x : Experiment σ) {ps : List Partition} {s : Session (Recorded σ)}
    {i : Nat} {p : Partition} {o : Outcome} (hp : ps[i]? = some p)
    (hknown : s.remembered? p.signature = some o) :
    (x.recorded.batch ps s).1[i]? = some o := by
  obtain ⟨all, hplaces, houts, hpassed, -⟩ := batch_passed x ps s
  have hmem : (p, i) ∈ ps.zipIdx := List.mk_mem_zipIdx_iff_getElem?.mpr hp
  obtain ⟨j, hj, hplace⟩ := List.mem_map.mp (hplaces ▸ hmem)
  obtain ⟨rfl, rfl⟩ := Prod.mk.inj hplace
  have hsettled : s.progressAt ps (j.partition, j.position) = .settled o := by
    rw [Session.progressAt, hknown]
  rw [outcome_at hplaces houts hj, ((hpassed j hj).idle (by simp [hsettled])).2.2 o hsettled]

end Passes

/-- A batch builds first and runs then. Each partition that is new, in the order of the batch, gets
a directory of its own and is built in it once; with no directory it is not built at all. Every
build that came to an end is run once, its own executable in its own directory, and no other one.
Nothing else is built or run, and the outcome stands at the position of the partition, as does what
was remembered for one that was not new. -/
theorem batch_disciplined (x : Experiment σ) (ps : List Partition) (s : Session (Recorded σ)) :
    x.batch ps s.plain = ((x.recorded.batch ps s).1, (x.recorded.batch ps s).2.plain) ∧
    ∃ jobs : List Job,
      jobs.map (fun j => (j.partition, j.position)) = s.newcomers ps ∧
      (∀ j ∈ jobs, x.Course j.partition j.opening j.closing j.outcome ∧
        (x.recorded.batch ps s).1[j.position]? = some j.outcome) ∧
      (x.recorded.batch ps s).2.deeds =
        s.deeds ++ jobs.flatMap (·.opening) ++ jobs.flatMap (·.closing) ∧
      (∀ d ∈ jobs.flatMap (·.opening), d.isRun = false) ∧
      (∀ d ∈ jobs.flatMap (·.closing), d.isBuild = false) ∧
      ∀ (i : Nat) (p : Partition) (o : Outcome), ps[i]? = some p →
        s.remembered? p.signature = some o → (x.recorded.batch ps s).1[i]? = some o := by
  obtain ⟨jobs, hplaces, hcourse, hdeeds⟩ := batch_courses x ps s
  refine ⟨batch_erases ps s, jobs, hplaces, hcourse, hdeeds, ?_, ?_,
    fun i p o hp hknown => batch_remembered x hp hknown⟩
  · intro d hd
    obtain ⟨j, hj, hd⟩ := List.mem_flatMap.mp hd
    exact (hcourse j hj).1.opening_not_run d hd
  · intro d hd
    obtain ⟨j, hj, hd⟩ := List.mem_flatMap.mp hd
    exact (hcourse j hj).1.closing_not_build d hd

end Experiment

end Culprit
