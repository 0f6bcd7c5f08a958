import Culprit.Proofs.Toolchain.Parallel
import Culprit.Proofs.Toolchain.Planning

/-!
A build that succeeds. The tools have compiled every job of the plan once, each with its own flags,
and the last call is that of the linker, with the objects of all jobs in the order of the plan.
-/

namespace Culprit.Toolchain

variable {σ : Type}

/-- The host keeps its calls with their answers, and nothing else is kept there. -/
structure Host.Keeps (h : Host σ) (log : σ → List Exchange) : Prop where
  runs (i : Invocation) (limit : Nat) (w : σ) :
    log ((h.runner i limit).runOn w).2 = log w ++ [(i, ((h.runner i limit).runOn w).1)]
  looks (w : σ) : log (h.cancelled w).2 = log w
  times (w : σ) : log (h.clock w).2 = log w
  creates (path : String) (w : σ) : log (h.createDirectories path w).2 = log w
  walks (dir : String) (w : σ) : log (h.walk dir w).2 = log w

variable {h : Host σ} {log : σ → List Exchange} {s : Settings} {w w' : σ}

theorem Host.Keeps.talk (hk : h.Keeps log) {xs : List Exchange} (htalk : h.Talk w xs w') :
    log w' = log w ++ xs := by
  induction htalk with
  | silent => exact (List.append_nil _).symm
  | call i limit _ ih => rw [hk.runs, ih, List.append_assoc]
  | look _ ih => rw [hk.looks, ih]

/-! ### What was compiled -/

theorem filterMap_getElem?_range {α : Type} (l : List α) {n : Nat} (hn : n ≤ l.length) :
    (List.range n).filterMap (fun k => l[k]?) = l.take n := by
  induction n with
  | zero => rfl
  | succ n ih =>
      rw [List.range_succ, List.filterMap_append, ih (Nat.le_of_succ_le hn), List.take_add_one,
        filterMap_cons_toList, List.filterMap_nil, List.append_nil]

/-- All jobs, in some order, each with its calls. -/
def Compiled (s : Settings) (jobs : List CompileJob) (calls : List Exchange) : Prop :=
  ∃ order xs, order.Perm jobs ∧
    List.Forall₂ (fun job ys => Compiles s job ys (.ok ())) order xs ∧ calls = xs.flatten

theorem compiled_of_complete {jobs : List CompileJob} {bound : Nat} {c : Crew}
    (hreports : c.Reports s jobs bound) (hcomplete : c.Complete jobs) :
    Compiled s jobs (c.history.flatMap Event.calls) := by
  have hall (es : List Event) (hsub : es ⊆ c.history) : ∃ order xs,
      order = (es.filterMap Event.end?).filterMap (fun k => jobs[k]?) ∧
      List.Forall₂ (fun job ys => Compiles s job ys (.ok ())) order xs ∧
      es.flatMap Event.calls = xs.flatten := by
    induction es with
    | nil => exact ⟨[], [], rfl, .nil, rfl⟩
    | cons e es ih =>
        obtain ⟨he, hes⟩ := List.cons_subset.mp hsub
        obtain ⟨order, xs, horder, hxs, hcalls⟩ := ih hes
        cases e with
        | ended u k calls r =>
            obtain ⟨job, hjob, hcompiles⟩ := hreports.ended he
            obtain rfl := hcomplete.2 _ _ _ _ he
            refine ⟨job :: order, calls :: xs, ?_, .cons hcompiles hxs, ?_⟩
            · simp [Event.end?, hjob, horder]
            · simp [Event.calls, hcalls]
        | _ => exact ⟨order, xs, horder, hxs, hcalls⟩
  obtain ⟨order, xs, rfl, hxs, hcalls⟩ := hall c.history (List.Subset.refl _)
  refine ⟨_, xs, ?_, hxs, hcalls⟩
  have hperm := hcomplete.1.filterMap fun k => jobs[k]?
  rwa [filterMap_getElem?_range jobs (Nat.le_refl _), List.take_length] at hperm

/-- A compilation that succeeds has compiled every job once. -/
theorem compiled_of_ok {fired : σ → Prop} (hh : h.Latched fired) {jobs : List CompileJob}
    {bound timeout : Nat} (hok : (compileAll h s jobs bound timeout).runOn w = (.ok (), w')) :
    ∃ calls, h.Talk w calls w' ∧ Compiled s jobs calls := by
  obtain ⟨c, hsteps, hover, hverdict, htalk⟩ := exists_crew hh s jobs bound timeout w
  have hreports := crew_reports hsteps
  rw [hok] at hverdict htalk
  exact ⟨_, htalk, compiled_of_complete hreports ((hreports.ok hover).mp hverdict).1⟩

/-! ### A whole build -/

def executablePath (h : Host σ) (s : Settings) (q : BuildRequest) : String :=
  Path.join (Path.absolute h.cwd q.workdir) s.executableName

def objectDirectory (h : Host σ) (q : BuildRequest) : String :=
  Path.join (Path.absolute h.cwd q.workdir) "obj"

/-- The jobs of a build of these units. -/
def jobsFor (h : Host σ) (q : BuildRequest) (us : List SourceUnit) : List CompileJob :=
  plan us q.partition q.trusted q.variant (objectDirectory h q)

/-- The last call of a build: the objects of all jobs become the executable. -/
def linkFor (h : Host σ) (s : Settings) (q : BuildRequest) (us : List SourceUnit) : ToolCall :=
  .link q.trusted ((jobsFor h q us).map (·.object)) (executablePath h s q)

theorem Host.Keeps.units (hk : h.Keeps log) (s : Settings) (w : σ) :
    log ((units h s).runOn w).2 = log w := by
  rw [Toolchain.units]
  split
  · rfl
  · rw [Attempt.runOn_lift_bind]
    have hwalk := hk.walks s.sourceDir w
    rcases hrun : h.walk s.sourceDir w with ⟨⟨dir, cause⟩ | files, w₁⟩ <;> rw [hrun] at hwalk
    · exact hwalk
    · dsimp only
      split <;> exact hwalk

/-- A build that succeeds goes through all its stages. -/
theorem stages_of_ok {q : BuildRequest} {built : Built}
    (hbuilt : (build h s q).runOn w = (.ok built, w')) :
    ∃ us w₁ w₂ w₃ w₄ linked,
      (units h s).runOn (h.clock w).2 = (.ok us, w₁) ∧
      h.createDirectories (objectDirectory h q) w₁ = (.ok (), w₂) ∧
      (compileAll h s (jobsFor h q us) q.jobs q.timeout).runOn w₂ = (.ok (), w₃) ∧
      (call h ((linkFor h s q us).invocation s) q.timeout .link).runOn w₃ = (.ok linked, w₄) ∧
      w' = (h.clock w₄).2 ∧ built.executable = executablePath h s q ∧
      built.objects = (jobsFor h q us).length := by
  rw [build, Attempt.runOn_lift_bind, Attempt.runOn_bind] at hbuilt
  rcases hunits : (units h s).runOn (h.clock w).2 with ⟨e | us, w₁⟩ <;> rw [hunits] at hbuilt
  · cases hbuilt
  · dsimp only at hbuilt
    rw [Attempt.runOn_lift_bind, ← objectDirectory] at hbuilt
    rcases hcreate : h.createDirectories (objectDirectory h q) w₁ with ⟨cause | ⟨⟩, w₂⟩ <;>
      rw [hcreate] at hbuilt
    · cases hbuilt
    · dsimp only at hbuilt
      rw [Attempt.runOn_bind, ← jobsFor] at hbuilt
      rcases hcompile : (compileAll h s (jobsFor h q us) q.jobs q.timeout).runOn w₂ with
        ⟨e | ⟨⟩, w₃⟩ <;> rw [hcompile] at hbuilt
      · cases hbuilt
      · dsimp only at hbuilt
        rw [Attempt.runOn_bind, Attempt.runOn_discard, ← executablePath, s.linkCall_eq,
          ← linkFor] at hbuilt
        rcases hlink : (call h ((linkFor h s q us).invocation s) q.timeout .link).runOn w₃ with
          ⟨e | linked, w₄⟩ <;> rw [hlink] at hbuilt
        · cases hbuilt
        · obtain ⟨hresult, rfl⟩ := Prod.mk.inj hbuilt
          obtain rfl := Except.ok.inj hresult
          exact ⟨us, w₁, w₂, w₃, w₄, linked, rfl, hcreate, hcompile, hlink, rfl, rfl, rfl⟩

/-- What the tools were asked for in a build that succeeded: every job once, then the executable of
all their objects. -/
structure Performed (h : Host σ) (s : Settings) (q : BuildRequest) (us : List SourceUnit)
    (built : Built) (calls : List Exchange) : Prop where
  executable : built.executable = executablePath h s q
  objects : built.objects = (jobsFor h q us).length
  calls : ∃ compiling linked, Compiled s (jobsFor h q us) compiling ∧ linked.success = true ∧
    calls = compiling ++ [((linkFor h s q us).invocation s, .ok linked)]

theorem performed_of_ok {fired : σ → Prop} (hh : h.Latched fired) (hk : h.Keeps log)
    {q : BuildRequest} {us : List SourceUnit} {built : Built}
    (hunits : ((units h s).runOn (h.clock w).2).1 = .ok us)
    (hbuilt : (build h s q).runOn w = (.ok built, w')) :
    ∃ calls, log w' = log w ++ calls ∧ Performed h s q us built calls := by
  obtain ⟨us', w₁, w₂, w₃, w₄, linked, hfound, hcreate, hcompile, hlink, rfl, hexecutable,
    hobjects⟩ := stages_of_ok hbuilt
  obtain rfl : us' = us := by
    rw [hfound] at hunits
    exact Except.ok.inj hunits
  obtain ⟨compiling, htalk, hcompiled⟩ := compiled_of_ok hh hcompile
  obtain ⟨x, hcall, hlast⟩ := call_calls h ((linkFor h s q us').invocation s) q.timeout .link w₃
  rw [hlink] at hcall hlast
  have hstart : log w₂ = log w := by
    have hfind := hk.units s (h.clock w).2
    have hmake := hk.creates (objectDirectory h q) w₁
    rw [hfound] at hfind
    rw [hcreate] at hmake
    exact hmake.trans (hfind.trans (hk.times w))
  cases hcall with
  | done hsuccess =>
      refine ⟨_, ?_, hexecutable, hobjects, compiling, linked, hcompiled, hsuccess, rfl⟩
      rw [hk.times, hk.talk hlast, hk.talk htalk, hstart, List.append_assoc]

/-- A build is its partition. The plan has the jobs that the partition asks for, each with an object
of its own right below the object directory, and a build that succeeds has compiled each of them
once, with its flags, and linked the objects of all. -/
theorem build_realises {fired : σ → Prop} (hh : h.Latched fired) (hk : h.Keeps log)
    (s : Settings) (q : BuildRequest) {us : List SourceUnit} {scope : Scope}
    {candidates : List String} (hkeys : (us.map SourceUnit.key).Nodup) (hapart : Apart us)
    (hdistinct : candidates.Nodup)
    (hmade : q.partition = .allTrusted scope candidates ∨
      ∃ variant, Partition.of scope candidates variant = .ok q.partition) :
    (∀ objectDir, Realises us q.partition candidates q.trusted q.variant objectDir
      (plan us q.partition q.trusted q.variant objectDir)) ∧
    ∀ w w' built, ((units h s).runOn (h.clock w).2).1 = .ok us →
      (build h s q).runOn w = (.ok built, w') →
        ∃ calls, log w' = log w ++ calls ∧ Performed h s q us built calls :=
  ⟨realises_plan hkeys hapart (divides_of_made hdistinct hmade) q.trusted q.variant,
    fun _ _ _ hunits hbuilt => performed_of_ok hh hk hunits hbuilt⟩

theorem keeps_recorder (broken : Invocation → Bool) : (recorder broken).Keeps id where
  runs _ _ _ := rfl
  looks _ := rfl
  times _ := rfl
  creates _ _ := rfl
  walks _ _ := rfl

def quiet : Host (List Exchange) :=
  recorder fun _ => false

def twoUnits : Settings :=
  { gnu with sources := [⟨"a.c"⟩, ⟨"b.c"⟩] }

/-- One of the two symbols of the second unit is on the variant side. -/
def secondHalved : BuildRequest :=
  ⟨⟨.symbols "b.c", ["g"], ["f"]⟩, ⟨"gcc", "-O0", []⟩, ⟨"gcc", "-O3", []⟩, "/w", 2, 60⟩

theorem build_realises_halves :
    quiet.Latched (fun _ => False) ∧ quiet.Keeps id ∧
      Partition.of (.symbols "b.c") ["f", "g"] ["g"] = .ok secondHalved.partition ∧
      ∃ w' built, (build quiet twoUnits secondHalved).runOn [] = (.ok built, w') ∧
        built.objects = 3 ∧ Performed quiet twoUnits secondHalved twoUnits.sources built w' := by
  have hkeys : (twoUnits.sources.map SourceUnit.key).Nodup := by decide
  have hapart : Apart twoUnits.sources := by
    intro u hu v hv hflat _
    simp only [twoUnits, List.mem_cons, List.not_mem_nil, or_false] at hu hv
    rcases hu with rfl | rfl <;> rcases hv with rfl | rfl
    · rfl
    · exact absurd hflat (by decide)
    · exact absurd hflat (by decide)
    · rfl
  have hmade : Partition.of (.symbols "b.c") ["f", "g"] ["g"] = .ok secondHalved.partition := by
    decide
  have hbuilt : (build quiet twoUnits secondHalved).runOn [] =
      (.ok ⟨executablePath quiet twoUnits secondHalved, 0, 3⟩,
        ((build quiet twoUnits secondHalved).runOn []).2) := Prod.ext rfl rfl
  obtain ⟨calls, hcalls, hperformed⟩ :=
    (build_realises (latched_recorder _) (keeps_recorder _) twoUnits secondHalved hkeys hapart
      (by decide) (.inr ⟨_, hmade⟩)).2 [] _ _ rfl hbuilt
  rw [show calls = _ from hcalls.symm] at hperformed
  exact ⟨latched_recorder _, keeps_recorder _, hmade, _, _, hbuilt, rfl, hperformed⟩

end Culprit.Toolchain
