import Culprit.Proofs.Session.Kept
import Culprit.Proofs.Toolchain.Places
import Culprit.Proofs.Workspace.Entries

/-!
Where objects are. Whatever the path of a unit is, the name of its object has letters, digits and
underscores only. So every object that a tool is called for, while a build goes on or the symbols of
a unit are listed, is an entry of one directory, whatever the tools answer, in whatever order the
workers come to call them and whenever it ends.
-/

namespace Culprit

/-! ### Pools -/

namespace Pool

variable {ι τ ρ : Type} {s : Shift ι τ ρ} {jobs : List ι} {I : τ → Prop}

/-- The workers have taken nothing but jobs from the list. -/
structure Busy (jobs : List ι) (I : τ → Prop) (p : Pool ι τ ρ) : Prop where
  listed : ∀ job, .working job ∈ p.workers → job ∈ jobs
  state : I p.state

theorem busy_start {t : τ} (h : I t) (workers : Nat) :
    Busy jobs I (start workers t : Pool ι τ ρ) where
  listed job hjob := by
    rw [start] at hjob
    cases List.eq_of_mem_replicate hjob
  state := h

theorem Busy.setWorker {p q : Pool ι τ ρ} (h : Busy jobs I p) (hworkers : q.workers = p.workers)
    (hstate : I q.state) (w : Nat) {x : Worker ι ρ} (hx : ∀ job, x = .working job → job ∈ jobs) :
    Busy jobs I (q.setWorker w x) where
  listed job hjob := by
    rcases List.mem_or_eq_of_mem_set hjob with hold | hnew
    · exact h.listed job (hworkers ▸ hold)
    · exact hx job hnew.symm
  state := hstate

theorem Busy.step (hstop : Preserves I s.stop) (hwork : ∀ job ∈ jobs, Preserves I (s.work job))
    {p : Pool ι τ ρ} (h : Busy jobs I p) (w : Nat) : Busy jobs I (step s jobs p w) := by
  rw [Pool.step]
  split
  case h_1 => exact h
  case h_2 =>
      rw [look]
      split_ifs
      · exact h.setWorker rfl h.state w fun _ hjob => by cases hjob
      · refine h.setWorker ?_ (hstop _ h.state) w fun job hjob => ?_
        · rfl
        · split_ifs at hjob
  case h_3 =>
      rw [take]
      refine h.setWorker ?_ ?_ w fun job hjob => ?_
      · rfl
      · exact h.state
      · split at hjob
        · next hnext => exact Worker.working.inj hjob ▸ List.mem_of_getElem? hnext
        · cases hjob
  case h_4 job hw =>
      have hlisted := h.listed job (List.mem_of_getElem? hw)
      rw [work]
      refine h.setWorker ?_ (hwork job hlisted _ h.state) w fun _ hjob => ?_
      · rfl
      · cases hjob
  case h_5 =>
      rw [handIn]
      refine h.setWorker ?_ ?_ w fun job hjob => ?_
      · rfl
      · exact h.state
      · split_ifs at hjob
  case h_6 => exact h

/-- What looking and the work on each job keep holds after any interleaving. -/
theorem Busy.run (hstop : Preserves I s.stop) (hwork : ∀ job ∈ jobs, Preserves I (s.work job))
    {p : Pool ι τ ρ} (h : Busy jobs I p) (schedule : List Nat) :
    Busy jobs I (run s jobs schedule p) := by
  induction schedule generalizing p with
  | nil => exact h
  | cons w schedule ih => exact ih (h.step hstop hwork w)

end Pool

/-! ### Names of objects -/

namespace SourceUnit

/-- An ASCII letter or digit, or an underscore. -/
def IsStemChar (c : Char) : Prop :=
  c.isAlphanum = true ∨ c = '_'

instance : DecidablePred IsStemChar :=
  fun _ => inferInstanceAs (Decidable (_ ∨ _))

/-- Whatever the path is. -/
theorem isStemChar_of_mem_objectStem {u : SourceUnit} {c : Char} (h : c ∈ u.objectStem.toList) :
    IsStemChar c := by
  rw [u.toList_objectStem, List.mem_append, List.mem_cons] at h
  rcases h with h | rfl | h
  · obtain ⟨c, -, rfl⟩ := List.mem_map.mp h
    rw [stemChar]
    split_ifs with hc
    · exact .inl hc
    · exact .inr rfl
  · exact .inr rfl
  · have hdigit : ∀ k < 16, (Text.Hex.digit k).isAlphanum = true := by decide
    obtain ⟨k, hk, rfl⟩ := exists_digit h
    exact .inl (hdigit k hk)

end SourceUnit

namespace Toolchain

/-- The path is that of an object right in `dir`: its name has letters, digits and underscores, and
the ending of objects. -/
def IsObject (dir path : String) : Prop :=
  ∃ stem : String, (∀ c ∈ stem.toList, SourceUnit.IsStemChar c) ∧
    Path.Child dir (stem ++ ".o") path

theorem plain_object {stem : String} (h : ∀ c ∈ stem.toList, SourceUnit.IsStemChar c) :
    Path.Plain (stem ++ ".o") := by
  have hlast : (stem ++ ".o").toList.getLast? = some 'o' := by simp
  constructor
  case noSlash =>
      have hslash : '/' ∉ stem.toList := fun hmem => absurd (h '/' hmem) (by decide)
      simp [hslash]
  all_goals
    intro heq
    rw [heq] at hlast
    revert hlast
    decide

theorem isObject_join {dir ending : String} (hdir : dir ≠ "") (u : SourceUnit)
    (hending : ∀ c ∈ ending.toList, SourceUnit.IsStemChar c) :
    IsObject dir (Path.join dir (u.objectStem ++ ending ++ ".o")) := by
  have hstem : ∀ c ∈ (u.objectStem ++ ending).toList, SourceUnit.IsStemChar c := by
    intro c hc
    rw [String.toList_append, List.mem_append] at hc
    exact hc.elim SourceUnit.isStemChar_of_mem_objectStem (hending c)
  exact ⟨_, hstem, Path.child_join (plain_object hstem) hdir⟩

variable {σ : Type} {h : Host σ} {s : Settings} {q : BuildRequest}

theorem plain_obj : Path.Plain "obj" := by
  constructor <;> decide

theorem components_objectDirectory (h : Host σ) (hworkdir : Path.isAbsolute q.workdir = true) :
    Path.components (objectDirectory h q) = Path.components q.workdir ++ [.name "obj"] := by
  rw [objectDirectory, Path.components_join _ plain_obj, Path.components_absolute hworkdir]

/-- Every object that a build plans is right in its object directory. -/
theorem isObject_of_mem_jobsFor (h : Host σ) (q : BuildRequest) (us : List SourceUnit)
    {job : CompileJob} (hjob : job ∈ jobsFor h q us) :
    IsObject (objectDirectory h q) job.object := by
  have hdir : objectDirectory h q ≠ "" := Path.join_ne_empty _ plain_obj
  have hchars : ∀ ending ∈ Plan.suffixes, ∀ c ∈ ending.toList, SourceUnit.IsStemChar c := by
    simp [Plan.suffixes, Plan.halves, SourceUnit.IsStemChar]
  obtain ⟨unit, -, hunit⟩ := List.mem_flatMap.mp hjob
  obtain ⟨endings, hsub, hobjects⟩ :=
    Plan.exists_suffixes q.partition q.trusted q.variant (objectDirectory h q) unit
  have hobject := List.mem_map_of_mem (f := (·.object)) hunit
  rw [hobjects] at hobject
  obtain ⟨ending, hending, hpath⟩ := List.mem_map.mp hobject
  rw [← hpath]
  exact isObject_join hdir unit (hchars ending (hsub.subset hending))

/-! ### Calls of tools -/

/-- The objects that a call makes, reads or changes. -/
def ToolCall.objects : ToolCall → List String
  | compile _ _ _ object | list _ object | edit _ _ object => [object]
  | link _ objects _ => objects

theorem ToolCall.objects_sublist (s : Settings) (c : ToolCall) :
    c.objects.Sublist (c.invocation s).args := by
  refine List.Sublist.trans ?_ (c.operands_sublist s)
  cases c with
  | compile flags pic source object => exact .cons _ (List.Sublist.refl _)
  | list query object => exact List.Sublist.refl _
  | edit splice globals object => exact List.Sublist.refl _
  | link flags objects executable => exact List.sublist_append_left _ _

/-- All calls name their objects, and these are right in `dir`. -/
def Tidy (s : Settings) (dir : String) (ds : List Deed) : Prop :=
  ∀ d ∈ ds, d.call.objects.Sublist (d.call.invocation s).args ∧
    ∀ path ∈ d.call.objects, IsObject dir path

variable {dir object : String} {ds es : List Deed} {c : ToolCall}

theorem Tidy.append (hds : Tidy s dir ds) (hes : Tidy s dir es) : Tidy s dir (ds ++ es) :=
  fun d hd => (List.mem_append.mp hd).elim (hds d) (hes d)

/-- One call. -/
theorem Calls.exists_tidy {fault : String → BuildFault} {x : Exchange} {r : Except Error Ended}
    (h : Calls (c.invocation s) fault x r) (hc : ∀ path ∈ c.objects, IsObject dir path) :
    ∃ ds, [x] = ds.map (Deed.exchange s) ∧ Tidy s dir ds := by
  obtain ⟨answer, rfl, -⟩ := h.exists_deed
  refine ⟨[⟨c, answer⟩], rfl, fun d hd => ?_⟩
  rw [List.mem_singleton.mp hd]
  exact ⟨c.objects_sublist s, hc⟩

theorem exists_tidy_append {xs ys : List Exchange}
    (hxs : ∃ ds, xs = ds.map (Deed.exchange s) ∧ Tidy s dir ds)
    (hys : ∃ ds, ys = ds.map (Deed.exchange s) ∧ Tidy s dir ds) :
    ∃ ds, xs ++ ys = ds.map (Deed.exchange s) ∧ Tidy s dir ds := by
  obtain ⟨ds, rfl, hds⟩ := hxs
  obtain ⟨es, rfl, hes⟩ := hys
  exact ⟨ds ++ es, (List.map_append ..).symm, hds.append hes⟩

theorem Restricts.exists_tidy {splice : Splice} {xs : List Exchange} {r : Except Error Unit}
    (h : Restricts s object splice xs r) (hobject : IsObject dir object) :
    ∃ ds, xs = ds.map (Deed.exchange s) ∧ Tidy s dir ds := by
  have hobjects : ∀ path ∈ [object], IsObject dir path := List.forall_mem_singleton.mpr hobject
  cases h with
  | unlisted h => exact h.exists_tidy hobjects
  | untouched h => exact h.exists_tidy hobjects
  | edited h _ hedit =>
      exact exists_tidy_append (h.exists_tidy hobjects) (hedit.exists_tidy hobjects)

theorem Compiles.exists_tidy {job : CompileJob} {xs : List Exchange} {r : Except Error Unit}
    (h : Compiles s job xs r) (hobject : IsObject dir job.object) :
    ∃ ds, xs = ds.map (Deed.exchange s) ∧ Tidy s dir ds := by
  have hobjects : ∀ path ∈ (job.toolCall s).objects, IsObject dir path :=
    List.forall_mem_singleton.mpr hobject
  cases h with
  | refused h => exact h.exists_tidy hobjects
  | plain h => exact h.exists_tidy hobjects
  | spliced h _ hrest =>
      exact exists_tidy_append (h.exists_tidy hobjects) (hrest.exists_tidy hobject)

/-! ### Builds -/

/-- After `before` only such calls were logged as have their objects right in `dir`. -/
def StaysIn {σ : Type} (log : σ → List Exchange) (s : Settings) (dir : String)
    (before : List Exchange) (w : σ) : Prop :=
  ∃ ds, log w = before ++ ds.map (Deed.exchange s) ∧ Tidy s dir ds

variable {log : σ → List Exchange} {before : List Exchange}

theorem staysIn_refl (log : σ → List Exchange) (s : Settings) (dir : String) (w : σ) :
    StaysIn log s dir (log w) w :=
  ⟨[], (List.append_nil _).symm, fun _ hd => absurd hd List.not_mem_nil⟩

theorem StaysIn.of_eq {w w' : σ} (h : StaysIn log s dir before w) (heq : log w' = log w) :
    StaysIn log s dir before w' := by
  rwa [StaysIn, heq]

theorem StaysIn.talk (hk : h.Keeps log) {w w' : σ} (hstays : StaysIn log s dir before w)
    {xs : List Exchange} (htalk : h.Talk w xs w')
    (hxs : ∃ ds, xs = ds.map (Deed.exchange s) ∧ Tidy s dir ds) : StaysIn log s dir before w' := by
  obtain ⟨ds, hlog, hds⟩ := hstays
  obtain ⟨es, rfl, hes⟩ := hxs
  refine ⟨ds ++ es, ?_, hds.append hes⟩
  rw [hk.talk htalk, hlog, List.map_append, List.append_assoc]

theorem call_staysIn (hk : h.Keeps log) (hc : ∀ path ∈ c.objects, IsObject dir path) (timeout : Nat)
    (fault : String → BuildFault) :
    Preserves (StaysIn log s dir before) (call h (c.invocation s) timeout fault).run := by
  intro w hstays
  obtain ⟨x, hcalls, htalk⟩ := call_calls h (c.invocation s) timeout fault w
  exact hstays.talk hk htalk (hcalls.exists_tidy hc)

theorem compile_staysIn (hk : h.Keeps log) {job : CompileJob} (hobject : IsObject dir job.object)
    (timeout : Nat) : Preserves (StaysIn log s dir before) (compile h s job timeout).run := by
  intro w hstays
  obtain ⟨xs, hcompiles, htalk⟩ := compile_compiles h s job timeout w
  exact hstays.talk hk htalk (hcompiles.exists_tidy hobject)

theorem compileAll_staysIn (hk : h.Keeps log) {jobs : List CompileJob}
    (hobjects : ∀ job ∈ jobs, IsObject dir job.object) (bound timeout : Nat) :
    Preserves (StaysIn log s dir before) (compileAll h s jobs bound timeout).run := by
  have hlook : Preserves (StaysIn log s dir before) h.cancelled :=
    fun w hstays => hstays.of_eq (hk.looks w)
  intro w hstays
  have hwork : ∀ job ∈ jobs, Preserves (StaysIn log s dir before) (compile h s job timeout).run :=
    fun job hjob => compile_staysIn hk (hobjects job hjob) timeout
  exact hlook _ ((Pool.busy_start hstays _).run hlook hwork _).state

theorem build_staysIn (hk : h.Keeps log) (s : Settings) (q : BuildRequest) :
    Preserves (StaysIn log s (objectDirectory h q) before) (build h s q).run := by
  have hclock : Preserves (StaysIn log s (objectDirectory h q) before) h.clock :=
    fun w hstays => hstays.of_eq (hk.times w)
  rw [build_eq]
  refine Preserves.bindExcept (.lift hclock) fun start => ?_
  refine Preserves.bindExcept (fun w hstays => hstays.of_eq (hk.units s w)) fun us => ?_
  refine Preserves.bindExcept (.lift fun w hstays => hstays.of_eq (hk.creates _ w)) fun made => ?_
  cases made with
  | error cause => exact Preserves.ret _
  | ok =>
      have hobjects : ∀ job ∈ jobsFor h q us, IsObject (objectDirectory h q) job.object :=
        fun job => isObject_of_mem_jobsFor h q us
      have hlink : ∀ path ∈ (linkFor h s q us).objects, IsObject (objectDirectory h q) path :=
        List.forall_mem_map.mpr hobjects
      refine Preserves.bindExcept (compileAll_staysIn hk hobjects q.jobs q.timeout) fun _ => ?_
      refine Preserves.bindExcept (Preserves.bindExcept (call_staysIn hk hlink q.timeout .link)
        fun _ => Preserves.ret _) fun _ => ?_
      exact Preserves.bindExcept (.lift hclock) fun now => Preserves.ret _

theorem symbols_staysIn (hk : h.Keeps log) (hcwd : Path.isAbsolute h.cwd = true) (s : Settings)
    (unit : SourceUnit) (flags : Flags) (workdir : String) (timeout : Nat) :
    Preserves (StaysIn log s (Path.absolute h.cwd workdir) before)
      (symbols h s unit flags workdir timeout).run := by
  have hdir : Path.absolute h.cwd workdir ≠ "" := by
    intro heq
    have habsolute := Path.isAbsolute_absolute hcwd workdir
    rw [heq] at habsolute
    cases habsolute
  have hobject : IsObject (Path.absolute h.cwd workdir) (listedObject h unit workdir) := by
    have hending : ∀ c ∈ "_symbols".toList, SourceUnit.IsStemChar c := by
      simp [SourceUnit.IsStemChar]
    have hjoin := isObject_join hdir unit hending
    rwa [String.append_assoc] at hjoin
  rw [symbols_eq]
  -- from here on the path is that of any object, so that nothing looks into the digest in its name
  generalize listedObject h unit workdir = object at hobject
  have hobjects : ∀ path ∈ [object], IsObject (Path.absolute h.cwd workdir) path :=
    List.forall_mem_singleton.mpr hobject
  have hlist (query : Query) : Preserves (StaysIn log s (Path.absolute h.cwd workdir) before)
      (runNm h s object query.options timeout).run :=
    Preserves.bindExcept (call_staysIn (c := .list query object) hk hobjects timeout
      (.listing object)) fun _ => Preserves.ret _
  refine Preserves.bindExcept (compile_staysIn hk hobject timeout) fun _ => ?_
  refine Preserves.bindExcept (hlist .symbols) fun mangled => ?_
  exact Preserves.bindExcept (hlist .demangled) fun demangled => Preserves.ret _

end Toolchain

end Culprit
