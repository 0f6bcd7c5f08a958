import Culprit.Proofs.Search.Bench
import Culprit.Toolchain.Pipeline

/-!
What the tools are asked for, word by word, and what the compilation of one object comes to,
whatever they answer. The compiler is called once with the flags of the job; only an object that is
spliced is listed then, and edited if there is something to edit. The first call that does not end
well is the last one, and its failure is that of the job. What a host is asked on the way from one
state to another is kept apart from it, so that it can be told of hosts that keep nothing.
-/

namespace Culprit.Toolchain

/-! ### What a tool is asked for -/

/-- What `nm` is asked about an object: its globals, its symbols, or the latter under their names in
the source language. -/
inductive Query where
  | globals
  | symbols
  | demangled

def Query.options : Query → List String
  | globals => ["--format=sysv", "--defined-only", "-g"]
  | symbols => ["-p", "--defined-only", "--line-numbers"]
  | demangled => ["-C", "-p", "--defined-only", "--line-numbers"]

/-- What a tool is called for, with the files that it is to work on. -/
inductive ToolCall where
  | compile (flags : Flags) (pic : Bool) (source object : String)
  | list (query : Query) (object : String)
  | edit (splice : Splice) (globals : List Global) (object : String)
  | link (flags : Flags) (objects : List String) (executable : String)

namespace ToolCall

/-- A compiler goes by its own name unless the settings have another for it, the last one. -/
def compiler (s : Settings) (flags : Flags) : String :=
  ((s.compilers.filter (·.1 = flags.compiler)).getLast?.map (·.2)).getD flags.compiler

def program (s : Settings) : ToolCall → String
  | compile flags _ _ _ | link flags _ _ => compiler s flags
  | list _ _ => s.nm
  | edit _ _ _ => s.objcopy

/-- The words after the program. Options come from the flags, from the settings and from what the
call is for; everything else is a file. -/
def args (s : Settings) : ToolCall → List String
  | compile flags pic source object =>
    (flags.optimization :: flags.switches).filter (!·.isEmpty) ++ s.cflags ++
      (if pic then ["-fPIC"] else []) ++ ["-c", source, "-o", object]
  | list query object => query.options ++ [object]
  | edit splice globals object => splice.args globals ++ [object]
  | link _ objects executable => objects ++ ["-o", executable] ++ s.ldflags

/-- Tools are called one by one and run in the project directory. -/
def invocation (s : Settings) (c : ToolCall) : Invocation where
  program := c.program s
  args := c.args s
  cwd? := some s.projectDir
  launcher := []

end ToolCall

/-- The call of the compiler that a job asks for. -/
def CompileJob.toolCall (s : Settings) (job : CompileJob) : ToolCall :=
  .compile job.flags job.pic (Path.join s.sourceDir job.unit.path) job.object

namespace Settings

variable (s : Settings)

theorem lookup_eq_find? {α β : Type} [DecidableEq α] (k : α) (l : List (α × β)) :
    l.lookup k = (l.find? (·.1 = k)).map (·.2) := by
  induction l with
  | nil => rfl
  | cons p l ih =>
      obtain ⟨k', v⟩ := p
      by_cases hk : k' = k
      · simp [hk]
      · have hk' : (k == k') = false := by simpa using Ne.symm hk
        simp [List.lookup_cons, hk, hk', ih]

theorem compilerOf_eq (flags : Flags) : s.compilerOf flags = ToolCall.compiler s flags := by
  rw [compilerOf, ToolCall.compiler, lookup_eq_find?, List.getLast?_eq_head?_reverse,
    ← List.filter_reverse, List.head?_filter]

theorem compileCall_eq (job : CompileJob) :
    s.compileCall job = (job.toolCall s).invocation s := by
  rw [compileCall, compilerOf_eq]
  rfl

theorem linkCall_eq (flags : Flags) (objects : List String) (executable : String) :
    s.linkCall flags objects executable =
      (ToolCall.link flags objects executable).invocation s := by
  rw [linkCall, compilerOf_eq]
  rfl

theorem nmCall_eq (query : Query) (object : String) :
    s.nmCall object query.options = (ToolCall.list query object).invocation s := rfl

theorem objcopyCall_eq (splice : Splice) (globals : List Global) (object : String) :
    s.objcopyCall object (splice.args globals) =
      (ToolCall.edit splice globals object).invocation s := rfl

end Settings

/-! ### What a call comes to -/

variable {σ : Type}

/-- A call and the answer to it. -/
abbrev Exchange := Invocation × Except Error Ended

/-- What one call of a tool comes to. -/
inductive Calls (i : Invocation) (fault : String → BuildFault) :
    Exchange → Except Error Ended → Prop
  | unstarted (e : Error) : Calls i fault (i, .error e) (.error e)
  | failed {ended : Ended} (h : ended.success = false) :
      Calls i fault (i, .ok ended) (.error (.build (fault ended.summary)))
  | done {ended : Ended} (h : ended.success = true) : Calls i fault (i, .ok ended) (.ok ended)

/-- The object is listed. -/
abbrev Lists (s : Settings) (object : String) : Exchange → Except Error Ended → Prop :=
  Calls ((ToolCall.list .globals object).invocation s) (.listing object)

/-- The calls that leave an object with what it owns, and what they come to. -/
inductive Restricts (s : Settings) (object : String) (splice : Splice) :
    List Exchange → Except Error Unit → Prop
  | unlisted {x : Exchange} {e : Error} (h : Lists s object x (.error e)) :
      Restricts s object splice [x] (.error e)
  | untouched {x : Exchange} {listed : Ended} (h : Lists s object x (.ok listed))
      (hnone : (splice.args (readGlobals listed.stdout)).isEmpty = true) :
      Restricts s object splice [x] (.ok ())
  | edited {x y : Exchange} {listed : Ended} {r : Except Error Ended}
      (h : Lists s object x (.ok listed))
      (hsome : (splice.args (readGlobals listed.stdout)).isEmpty = false)
      (hedit : Calls ((ToolCall.edit splice (readGlobals listed.stdout) object).invocation s)
        (.restricting object) y r) :
      Restricts s object splice [x, y] (r.map fun _ => ())

/-- The compiler is called for the job. -/
abbrev Starts (s : Settings) (job : CompileJob) : Exchange → Except Error Ended → Prop :=
  Calls ((job.toolCall s).invocation s) (.compile job.unit.path job.flags.display)

/-- The calls of a compilation, and what they come to. -/
inductive Compiles (s : Settings) (job : CompileJob) : List Exchange → Except Error Unit → Prop
  | refused {x : Exchange} {e : Error} (h : Starts s job x (.error e)) :
      Compiles s job [x] (.error e)
  | plain {x : Exchange} {ended : Ended} (h : Starts s job x (.ok ended))
      (hplain : job.splice? = none) : Compiles s job [x] (.ok ())
  | spliced {x : Exchange} {ended : Ended} {splice : Splice} {xs : List Exchange}
      {r : Except Error Unit} (h : Starts s job x (.ok ended))
      (hsplice : job.splice? = some splice) (hrest : Restricts s job.object splice xs r) :
      Compiles s job (x :: xs) r

/-- The calls that a host answers on its way from `w` to another state. In between it may be asked
whether to stop. -/
inductive Host.Talk (h : Host σ) (w : σ) : List Exchange → σ → Prop
  | silent : Talk h w [] w
  | call {xs : List Exchange} {w' : σ} (i : Invocation) (limit : Nat) (before : Talk h w xs w') :
      Talk h w (xs ++ [(i, ((h.runner i limit).runOn w').1)]) ((h.runner i limit).runOn w').2
  | look {xs : List Exchange} {w' : σ} (before : Talk h w xs w') :
      Talk h w xs (h.cancelled w').2

variable {h : Host σ}

theorem Host.Talk.trans {xs ys : List Exchange} {w w₁ w₂ : σ} (hxs : h.Talk w xs w₁)
    (hys : h.Talk w₁ ys w₂) : h.Talk w (xs ++ ys) w₂ := by
  induction hys with
  | silent =>
      rw [List.append_nil]
      exact hxs
  | call i limit _ ih =>
      rw [← List.append_assoc]
      exact ih.call i limit
  | look _ ih => exact ih.look

variable (h) (s : Settings)

theorem call_calls (i : Invocation) (timeout : Nat) (fault : String → BuildFault) (w : σ) :
    ∃ x, Calls i fault x ((call h i timeout fault).runOn w).1 ∧
      h.Talk w [x] ((call h i timeout fault).runOn w).2 := by
  have htalk := Host.Talk.call i (1000 * timeout) (.silent : h.Talk w [] w)
  rw [call, Attempt.runOn_bind]
  rcases hrun : (h.runner i (1000 * timeout)).runOn w with ⟨e | ended, w'⟩ <;> rw [hrun] at htalk
  · exact ⟨_, .unstarted e, htalk⟩
  · dsimp only
    split
    · next hsuccess => exact ⟨_, .done hsuccess, htalk⟩
    · next hfailed => exact ⟨_, .failed (Bool.eq_false_iff.mpr hfailed), htalk⟩

theorem restrict_restricts (object : String) (splice : Splice) (timeout : Nat) (w : σ) :
    ∃ xs, Restricts s object splice xs ((restrict h s object splice timeout).runOn w).1 ∧
      h.Talk w xs ((restrict h s object splice timeout).runOn w).2 := by
  have hquery : s.nmCall object globalListing = (ToolCall.list .globals object).invocation s :=
    s.nmCall_eq .globals object
  obtain ⟨x, hlisting, hasked⟩ :=
    call_calls h ((ToolCall.list .globals object).invocation s) timeout (.listing object) w
  rw [restrict, runNm, hquery, Attempt.runOn_bind, Attempt.runOn_bind]
  rcases hrun : (call h ((ToolCall.list .globals object).invocation s) timeout
    (.listing object)).runOn w with ⟨e | listed, w'⟩ <;> rw [hrun] at hlisting hasked
  · exact ⟨[x], .unlisted hlisting, hasked⟩
  · simp only [Attempt.runOn_pure, s.objcopyCall_eq]
    cases hargs : (splice.args (readGlobals listed.stdout)).isEmpty with
    | true => exact ⟨[x], .untouched hlisting hargs, hasked⟩
    | false =>
        obtain ⟨y, hedit, hanswered⟩ := call_calls h
          ((ToolCall.edit splice (readGlobals listed.stdout) object).invocation s) timeout
          (.restricting object) w'
        refine ⟨[x, y], ?_⟩
        rw [if_neg (by decide), Attempt.runOn_discard]
        exact ⟨.edited hlisting hargs hedit, hasked.trans hanswered⟩

theorem compile_compiles (job : CompileJob) (timeout : Nat) (w : σ) :
    ∃ xs, Compiles s job xs ((compile h s job timeout).runOn w).1 ∧
      h.Talk w xs ((compile h s job timeout).runOn w).2 := by
  obtain ⟨x, hcompiled, hasked⟩ := call_calls h ((job.toolCall s).invocation s) timeout
    (.compile job.unit.path job.flags.display) w
  rw [compile, s.compileCall_eq, Attempt.runOn_bind, Attempt.runOn_discard]
  rcases hrun : (call h ((job.toolCall s).invocation s) timeout
    (.compile job.unit.path job.flags.display)).runOn w with ⟨e | ended, w'⟩ <;>
      rw [hrun] at hcompiled hasked
  · exact ⟨[x], .refused hcompiled, hasked⟩
  · cases hsplice : job.splice? with
    | none => exact ⟨[x], .plain hcompiled hsplice, hasked⟩
    | some splice =>
        obtain ⟨xs, hrest, hanswered⟩ := restrict_restricts h s job.object splice timeout w'
        exact ⟨x :: xs, .spliced hcompiled hsplice hrest, hasked.trans hanswered⟩

/-! ### A request to stop -/

/-- After a request to stop, which every look then sees, no action takes it back. -/
structure Host.Latched (h : Host σ) (fired : σ → Prop) : Prop where
  seen {w : σ} : (h.cancelled w).1 = true → fired (h.cancelled w).2
  stays {w : σ} : fired w → (h.cancelled w).1 = true ∧ fired (h.cancelled w).2
  runs {w : σ} (i : Invocation) (limit : Nat) : fired w → fired ((h.runner i limit).runOn w).2

theorem Host.Latched.talk {h : Host σ} {fired : σ → Prop} {xs : List Exchange} {w w' : σ}
    (hh : h.Latched fired) (htalk : h.Talk w xs w') (hw : fired w) : fired w' := by
  induction htalk with
  | silent => exact hw
  | call i limit _ ih => exact hh.runs i limit ih
  | look _ ih => exact (hh.stays ih).2

end Culprit.Toolchain
