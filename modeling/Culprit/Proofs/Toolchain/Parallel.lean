import Culprit.Proofs.Toolchain.Crew

/-!
Compiling all jobs of a build at once. What a pool of compilations does in any order is what a crew
can do, one moment of a worker at a time: a look of the pool is two moments of the crew, and handing
in a failure is two as well. So what every crew comes to, the compilation comes to.
-/

namespace Culprit.Toolchain

/-- The calls that an event stands for. -/
def Event.calls : Event → List Exchange
  | .ended _ _ calls _ => calls
  | _ => []

section Moments

variable {s : Settings} {jobs : List CompileJob} {c : Crew} {u : Nat}

theorem Crew.move_move (c : Crew) (u : Nat) (x y : Hand) (es es' : List Event) :
    (c.move u x es).move u y es' = c.move u y (es ++ es') := by
  simp only [Crew.move, List.set_set, List.append_assoc]

theorem steps_cancel (s : Settings) (jobs : List CompileJob) (c : Crew) :
    Steps s jobs c { c with cancelled := true } := by
  cases hcancelled : c.cancelled with
  | false => exact .single (.cancel hcancelled)
  | true =>
      have hsame : { c with cancelled := true } = c := by rw [← hcancelled]
      rw [hsame]

/-- A whole look. -/
theorem steps_look (hu : c.hands[u]? = some .idle) (hflagged : c.flagged = false) :
    Steps s jobs c (c.move u (if c.cancelled then .gone else .cleared) [.checked u]) := by
  have hcheck : Step s jobs c (c.move u .unwarned [.checked u]) := by
    have hturn : Step s jobs c _ := .turn hu .check
    rwa [hflagged] at hturn
  have hunwarned : (c.move u .unwarned [.checked u]).hands[u]? = some .unwarned := by
    rw [getElem?_move hu, if_pos rfl]
  have hask : Step s jobs (c.move u .unwarned [.checked u]) _ := .turn hunwarned .ask
  rw [Crew.move_move] at hask
  exact (Relation.ReflTransGen.single hcheck).tail hask

/-- A failure is flagged and its error left. -/
theorem steps_fail {e : Error} (hu : c.hands[u]? = some (.failing e)) :
    Steps s jobs c ({ c with flagged := true, first? := some (c.first?.getD e) }.move u .gone
      [.flagged u]) := by
  have hflag : Step s jobs c _ := .turn hu .flag
  have hreporting : ({ c with flagged := true }.move u (.reporting e) [.flagged u]).hands[u]? =
      some (.reporting e) := by
    rw [getElem?_move (c := { c with flagged := true }) hu, if_pos rfl]
  have hreport : Step s jobs _ _ := .turn hreporting .report
  have hboth := (Relation.ReflTransGen.single hflag).tail hreport
  have hends := Crew.move_move { c with flagged := true, first? := some (c.first?.getD e) } u
    (.reporting e) .gone [.flagged u] []
  rw [List.append_nil] at hends
  exact hends ▸ hboth

end Moments

/-! ### A pool and a crew -/

/-- Two workers that are equally far. Who has its result in hand has already ended the job. -/
inductive Beside (jobs : List CompileJob) : Worker CompileJob (Except Error Unit) → Hand → Prop
  | ready : Beside jobs .ready .idle
  | cleared : Beside jobs .cleared .cleared
  | working {k : Nat} {job : CompileJob} (hjob : jobs[k]? = some job) :
      Beside jobs (.working job) (.busy k)
  | carrying (r : Except Error Unit) : Beside jobs (.carrying r) (.after r)
  | gone : Beside jobs .gone .gone

variable {σ : Type}

/-- A crew that is as far as a pool that started in `w`. -/
structure Follows (h : Host σ) (fired : σ → Prop) (jobs : List CompileJob) (w : σ)
    (p : Pool CompileJob σ (Except Error Unit)) (c : Crew) : Prop where
  next : p.next = c.next
  flagged : p.failed = c.flagged
  first : p.results.find? failed = c.first?.map .error
  hands : ∀ u : Nat, Option.Rel (Beside jobs) p.workers[u]? c.hands[u]?
  talk : h.Talk w (c.history.flatMap Event.calls) p.state
  cancelled : c.cancelled = true → fired p.state

section Follows

variable {h : Host σ} {fired : σ → Prop} {s : Settings} {jobs : List CompileJob} {timeout u : Nat}
  {w : σ} {p : Pool CompileJob σ (Except Error Unit)} {c : Crew}
  {x x' : Worker CompileJob (Except Error Unit)} {y y' : Hand}

theorem follows_start (h : Host σ) (fired : σ → Prop) (jobs : List CompileJob) (w : σ) (n : Nat) :
    Follows h fired jobs w (Pool.start n w) (.start n) where
  next := rfl
  flagged := rfl
  first := rfl
  hands u := by
    show Option.Rel _ (List.replicate n Worker.ready)[u]? (List.replicate n Hand.idle)[u]?
    rw [List.getElem?_replicate, List.getElem?_replicate]
    split_ifs
    · exact .some .ready
    · exact .none
  talk := .silent
  cancelled hc := by cases hc

theorem Follows.hand (hf : Follows h fired jobs w p c) (hx : p.workers[u]? = some x) :
    ∃ y, c.hands[u]? = some y ∧ Beside jobs x y := by
  have hpair := hf.hands u
  rw [hx] at hpair
  cases hy : c.hands[u]? with
  | none =>
      rw [hy] at hpair
      cases hpair
  | some y =>
      rw [hy] at hpair
      cases hpair with
      | some hbeside => exact ⟨y, rfl, hbeside⟩

/-- Both have moved on, nobody else has. -/
theorem Follows.rel_move (hf : Follows h fired jobs w p c) (hx : p.workers[u]? = some x)
    (hy : c.hands[u]? = some y) (hbeside : Beside jobs x' y') (es : List Event) (v : Nat) :
    Option.Rel (Beside jobs) (p.setWorker u x').workers[v]? (c.move u y' es).hands[v]? := by
  rw [Pool.getElem?_setWorker hx, getElem?_move hy]
  split_ifs
  · exact .some hbeside
  · exact hf.hands v

/-- What is said during an event comes after all that was said before. -/
theorem Host.Talk.move {xs : List Exchange} {es : List Event} {w₁ w₂ : σ}
    (hbefore : h.Talk w (c.history.flatMap Event.calls) w₁) (hxs : h.Talk w₁ xs w₂)
    (hes : es.flatMap Event.calls = xs) (u : Nat) (y : Hand) :
    h.Talk w ((c.move u y es).history.flatMap Event.calls) w₂ := by
  have hcalls : (c.move u y es).history.flatMap Event.calls =
      c.history.flatMap Event.calls ++ xs := by
    rw [Crew.move, List.flatMap_append, hes]
  rw [hcalls]
  exact hbefore.trans hxs

theorem Follows.look (hh : h.Latched fired) (hf : Follows h fired jobs w p c)
    (hx : p.workers[u]? = some .ready) :
    ∃ c', Steps s jobs c c' ∧ Follows h fired jobs w (p.look (compileShift h s timeout) u) c' := by
  obtain ⟨_, hu, ⟨⟩⟩ := hf.hand hx
  rw [Pool.look]
  by_cases hfailed : p.failed = true
  · rw [if_pos hfailed]
    have hturn : Step s jobs c _ := .turn hu .check
    rw [← hf.flagged, hfailed] at hturn
    exact ⟨_, .single hturn, hf.next, hf.flagged, hf.first, hf.rel_move hx hu .gone _,
      hf.talk.move .silent rfl u .gone, hf.cancelled⟩
  · rw [if_neg hfailed]
    have hflagged : c.flagged = false := hf.flagged ▸ Bool.eq_false_iff.mpr hfailed
    cases hstop : (h.cancelled p.state).1 with
    | true =>
        have hstopped : (compileShift h s timeout).stop p.state =
            (true, (h.cancelled p.state).2) := Prod.ext hstop rfl
        rw [hstopped]
        exact ⟨_, (steps_cancel s jobs c).trans (steps_look hu hflagged), hf.next, hf.flagged,
          hf.first, hf.rel_move hx hu .gone [.checked u],
          hf.talk.move (.look .silent) rfl u .gone, fun _ => hh.seen hstop⟩
    | false =>
        have hstopped : (compileShift h s timeout).stop p.state =
            (false, (h.cancelled p.state).2) := Prod.ext hstop rfl
        have hcancelled : c.cancelled = false := by
          refine Bool.eq_false_iff.mpr fun hc => ?_
          cases hstop.symm.trans (hh.stays (hf.cancelled hc)).1
        have hlook : Steps s jobs c _ := steps_look hu hflagged
        rw [hcancelled] at hlook
        rw [hstopped]
        exact ⟨_, hlook, hf.next, hf.flagged, hf.first, hf.rel_move hx hu .cleared _,
          hf.talk.move (.look .silent) rfl u .cleared,
          fun hc => absurd (hcancelled.symm.trans hc) (by decide)⟩

theorem Follows.take (hf : Follows h fired jobs w p c) (hx : p.workers[u]? = some .cleared) :
    ∃ c', Steps s jobs c c' ∧ Follows h fired jobs w (p.take jobs u) c' := by
  obtain ⟨_, hu, ⟨⟩⟩ := hf.hand hx
  rw [Pool.take]
  cases hjob : jobs[p.next]? with
  | some job =>
      rw [hf.next] at hjob
      exact ⟨_, .single (.turn hu (.start (List.getElem?_eq_some_iff.mp hjob).1)),
        congrArg Nat.succ hf.next, hf.flagged, hf.first,
        hf.rel_move hx hu (.working hjob) [.started u c.next],
        hf.talk.move .silent rfl u (.busy c.next), hf.cancelled⟩
  | none =>
      rw [hf.next] at hjob
      exact ⟨_, .single (.turn hu (.leave (List.getElem?_eq_none_iff.mp hjob))),
        congrArg Nat.succ hf.next, hf.flagged, hf.first, hf.rel_move hx hu .gone [],
        hf.talk.move .silent rfl u .gone, hf.cancelled⟩

theorem Follows.work (hh : h.Latched fired) (hf : Follows h fired jobs w p c) {job : CompileJob}
    (hx : p.workers[u]? = some (.working job)) :
    ∃ c', Steps s jobs c c' ∧
      Follows h fired jobs w (p.work (compileShift h s timeout) u job) c' := by
  obtain ⟨_, hu, hbeside⟩ := hf.hand hx
  obtain ⟨xs, hcompiles, htalk⟩ := compile_compiles h s job timeout p.state
  cases hbeside with
  | @working k _ hjob =>
      have hcalls : [Event.ended u k xs ((compile h s job timeout).runOn p.state).1].flatMap
          Event.calls = xs := List.append_nil xs
      exact ⟨_, .single (.turn hu (.finish hjob hcompiles)), hf.next, hf.flagged, hf.first,
        hf.rel_move hx hu (.carrying _) _, hf.talk.move htalk hcalls u _,
        fun hc => hh.talk htalk (hf.cancelled hc)⟩

theorem Follows.handIn (hf : Follows h fired jobs w p c) {r : Except Error Unit}
    (hx : p.workers[u]? = some (.carrying r)) :
    ∃ c', Steps s jobs c c' ∧
      Follows h fired jobs w (p.handIn (compileShift h s timeout) u r) c' := by
  obtain ⟨_, hu, ⟨⟩⟩ := hf.hand hx
  rcases r with e | ⟨⟩
  · refine ⟨_, steps_fail hu, hf.next, Bool.or_true _, ?_, hf.rel_move hx hu .gone [.flagged u],
      hf.talk.move .silent rfl u .gone, hf.cancelled⟩
    show (p.results ++ [Except.error e]).find? failed = _
    rw [List.find?_append, hf.first]
    cases c.first? <;> rfl
  · refine ⟨c, .refl, hf.next, ?_, ?_, fun v => ?_, hf.talk, hf.cancelled⟩
    · exact (Bool.or_false _).trans hf.flagged
    · show (p.results ++ [Except.ok ()]).find? failed = _
      rw [List.find?_append, hf.first]
      cases c.first? <;> rfl
    · show Option.Rel _ (p.setWorker u .ready).workers[v]? _
      rw [Pool.getElem?_setWorker hx]
      split_ifs with hv
      · rw [hv, hu]
        exact .some .ready
      · exact hf.hands v

theorem Follows.step (hh : h.Latched fired) (hf : Follows h fired jobs w p c) (u : Nat) :
    ∃ c', Steps s jobs c c' ∧
      Follows h fired jobs w (p.step (compileShift h s timeout) jobs u) c' := by
  rw [Pool.step]
  split
  · exact ⟨c, .refl, hf⟩
  · next hx => exact hf.look hh hx
  · next hx => exact hf.take hx
  · next job hx => exact hf.work hh hx
  · next r hx => exact hf.handIn hx
  · exact ⟨c, .refl, hf⟩

/-- Whatever a pool of compilations does in any order, a crew can do. -/
theorem Follows.run (hh : h.Latched fired) (hf : Follows h fired jobs w p c)
    (schedule : List Nat) :
    ∃ c', Steps s jobs c c' ∧
      Follows h fired jobs w (p.run (compileShift h s timeout) jobs schedule) c' := by
  induction schedule generalizing p c with
  | nil => exact ⟨c, .refl, hf⟩
  | cons u schedule ih =>
      obtain ⟨c₁, hfirst, hf₁⟩ := hf.step hh u
      obtain ⟨c₂, hrest, hf₂⟩ := ih hf₁
      exact ⟨c₂, hfirst.trans hrest, hf₂⟩

theorem Follows.over (hf : Follows h fired jobs w p c) (hover : p.Over) : c.Over := by
  intro y hy
  obtain ⟨u, hu⟩ := List.getElem?_of_mem hy
  have hpair := hf.hands u
  cases hx : p.workers[u]? with
  | none =>
      rw [hx, hu] at hpair
      cases hpair
  | some x =>
      obtain rfl := hover x (List.mem_of_getElem? hx)
      obtain ⟨_, hu', ⟨⟩⟩ := hf.hand hx
      exact Option.some.inj (hu.symm.trans hu')

/-- The last look of the compilation comes when all workers are gone. -/
theorem Follows.final (hh : h.Latched fired) (hf : Follows h fired jobs w p c)
    (hover : p.Over) :
    ∃ c', Steps s jobs c c' ∧ c'.Over ∧ c'.verdict = verdict p.results (h.cancelled p.state).1 ∧
      h.Talk w (c'.history.flatMap Event.calls) (h.cancelled p.state).2 := by
  have hverdict (stop : Bool) :
      verdict (c.first?.toList.map .error) stop = verdict p.results stop := by
    rw [verdict, verdict, hf.first]
    cases c.first? <;> rfl
  cases hstop : (h.cancelled p.state).1 with
  | true =>
      exact ⟨{ c with cancelled := true }, steps_cancel s jobs c, hf.over hover, hverdict true,
        hf.talk.look⟩
  | false =>
      have hcancelled : c.cancelled = false := by
        refine Bool.eq_false_iff.mpr fun hc => ?_
        cases hstop.symm.trans (hh.stays (hf.cancelled hc)).1
      refine ⟨c, .refl, hf.over hover, ?_, hf.talk.look⟩
      rw [Crew.verdict, hcancelled]
      exact hverdict false

/-- Compiling a list of jobs is what some crew does. -/
theorem exists_crew (hh : h.Latched fired) (s : Settings) (jobs : List CompileJob)
    (bound timeout : Nat) (w : σ) :
    ∃ c, Steps s jobs (.start (compileWorkers bound jobs.length)) c ∧ c.Over ∧
      c.verdict = ((compileAll h s jobs bound timeout).runOn w).1 ∧
      h.Talk w (c.history.flatMap Event.calls)
        ((compileAll h s jobs bound timeout).runOn w).2 := by
  obtain ⟨c, hsteps, hf⟩ : ∃ c, Steps s jobs (.start (compileWorkers bound jobs.length)) c ∧
      Follows h fired jobs w (Pool.drain (compileShift h s timeout) jobs
        (compileWorkers bound jobs.length) w) c :=
    (follows_start h fired jobs w (compileWorkers bound jobs.length)).run hh _
  have hover : (Pool.drain (compileShift h s timeout) jobs
      (compileWorkers bound jobs.length) w).Over :=
    Pool.over_run _ w fun u hu => (Pool.count_inTurn _ _ u).symm ▸ (if_pos hu).ge
  obtain ⟨c', hlook, hover', hverdict, htalk⟩ := hf.final (s := s) hh hover
  exact ⟨c', hsteps.trans hlook, hover', hverdict, htalk⟩

end Follows

theorem compileWorkers_pos (bound count : Nat) : 0 < compileWorkers bound count := by
  rw [compileWorkers]
  omega

/-- What is true of the workers at every moment, and of what they come to. -/
structure Crew.Reports (s : Settings) (jobs : List CompileJob) (bound : Nat) (c : Crew) :
    Prop where
  once : (c.history.filterMap Event.start?).Nodup
  inFlight : ∃ busy : List Nat,
    (c.history.filterMap Event.end? ++ busy).Perm (c.history.filterMap Event.start?) ∧
      busy.length ≤ min (max bound 1) (max jobs.length 1)
  ended {u k : Nat} {calls : List Exchange} {r : Except Error Unit} :
    .ended u k calls r ∈ c.history → ∃ job, jobs[k]? = some job ∧ Compiles s job calls r
  /-- Who looks after a failure is flagged starts no job any more. -/
  late {u v k : Nat} : ¬ [.flagged v, .checked u, .started u k].Sublist c.history
  ok : c.Over → (c.verdict = .ok () ↔ c.Complete jobs ∧ c.cancelled = false)
  error {e : Error} : c.Over → c.verdict = .error e →
    (∃ u k calls, .ended u k calls (.error e) ∈ c.history) ∨
      e = .build .cancelled ∧ c.cancelled = true ∧
        ∀ u k calls r, .ended u k calls r ∈ c.history → r = .ok ()
  turn {u : Nat} {x : Hand} : c.hands[u]? = some x → x ≠ .gone →
    ∃ c' y es, Turn s jobs c u x c' y es

theorem crew_reports {s : Settings} {jobs : List CompileJob} {bound : Nat} {c : Crew}
    (hsteps : Steps s jobs (.start (compileWorkers bound jobs.length)) c) :
    c.Reports s jobs bound := by
  have hsound := sound_of_steps hsteps
  constructor
  case once =>
    rw [hsound.started]
    exact List.nodup_range
  case inFlight =>
    refine ⟨c.hands.filterMap Hand.job?, ?_, ?_⟩
    · rw [hsound.started]
      exact hsound.taken
    · exact (List.length_filterMap_le _ _).trans hsound.crew.le
  case ended => exact hsound.ended
  case late => exact (warned_of_steps hsteps).late
  case ok => exact hsound.verdict_eq_ok_iff (compileWorkers_pos _ _)
  case error => exact hsound.of_verdict_eq_error
  case turn => exact hsound.exists_turn

/-- However many workers there may be, whatever the tools answer and whenever the request to stop
comes: no job is started twice, no more jobs are in flight than may be, the workers come to an end,
and what they come to is right. Compiling a list of jobs is one way in which this can go. -/
theorem compileAll_reports {σ : Type} {h : Host σ} {fired : σ → Prop} (hh : h.Latched fired)
    (s : Settings) (jobs : List CompileJob) (bound timeout : Nat) (w : σ) :
    (∀ c, Steps s jobs (.start (compileWorkers bound jobs.length)) c → c.Reports s jobs bound) ∧
    (WellFounded fun c' c => Step s jobs c c') ∧
    ∃ c, Steps s jobs (.start (compileWorkers bound jobs.length)) c ∧ c.Over ∧
      c.verdict = ((compileAll h s jobs bound timeout).runOn w).1 ∧
      h.Talk w (c.history.flatMap Event.calls)
        ((compileAll h s jobs bound timeout).runOn w).2 :=
  ⟨fun _ => crew_reports, wellFounded_step s jobs, exists_crew hh s jobs bound timeout w⟩

/-- A host whose state is what was called. Every call ends well, but for those of `broken`. -/
def recorder (broken : Invocation → Bool) : Host (List Exchange) where
  runner i _ := ExceptT.mk fun xs =>
    let answer : Except Error Ended := .ok ⟨.code (if broken i then 1 else 0), "", "", 1⟩
    (answer, xs ++ [(i, answer)])
  cancelled := pure false
  clock := pure 0
  createDirectories _ := pure (.ok ())
  walk _ := pure (.ok [])
  cwd := "/"

theorem latched_recorder (broken : Invocation → Bool) :
    (recorder broken).Latched fun _ => False where
  seen h := by cases h
  stays h := h.elim
  runs _ _ h := h

def gnu : Settings :=
  ⟨"/p", [], [], [], [], "nm", "objcopy", "app", "/p"⟩

def gcc (unit : String) : CompileJob :=
  ⟨⟨unit⟩, ⟨"gcc", "-O0", []⟩, "/w/obj/" ++ unit ++ ".o", false, none⟩

theorem compileAll_reports_broken :
    (recorder fun i => i == gnu.compileCall (gcc "b.c")).Latched (fun _ => False) ∧
    ∃ c, Steps gnu [gcc "a.c", gcc "b.c"] (.start 1) c ∧ c.Over ∧
      ∃ u k calls, .ended u k calls (.error (.build (.compile "b.c" "gcc -O0" "exit code 1"))) ∈
        c.history := by
  obtain ⟨hall, -, c, hsteps, hover, hverdict, -⟩ :=
    compileAll_reports (latched_recorder fun i => i == gnu.compileCall (gcc "b.c")) gnu
      [gcc "a.c", gcc "b.c"] 0 60 []
  have herror : c.verdict = .error (.build (.compile "b.c" "gcc -O0" "exit code 1")) :=
    hverdict.trans rfl
  refine ⟨latched_recorder _, c, hsteps, hover, ?_⟩
  rcases (hall c hsteps).error hover herror with hended | ⟨hcancelled, -⟩
  · exact hended
  · cases hcancelled

end Culprit.Toolchain
