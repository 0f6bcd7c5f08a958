import Culprit.Proofs.Toolchain.Building
import Culprit.RunSettings

/-!
Where the tools work. Whatever directories a pipeline is given, every tool runs in an absolute
directory and every source, object and executable is named to it by an absolute path. An object is
listed, edited and linked only after a compiler was asked for it and ended well, and the test is
started from the path that was given to the linker. What one call needs is said once; that it holds
of all calls is carried from each call to the next, through a compilation, through all compilations
of a crew and through a build.
-/

namespace Culprit

/-! ### Absolute paths -/

namespace Path

variable {cwd p name : String}

theorem isAbsolute_of_slash (cs : List Char) : isAbsolute (String.ofList ('/' :: cs)) = true := by
  rw [isAbsolute, String.toList_ofList]
  rfl

theorem isAbsolute_append (h : isAbsolute p = true) (q : String) : isAbsolute (p ++ q) = true := by
  rw [isAbsolute, decide_eq_true_iff] at h ⊢
  rw [String.toList_append, List.head?_append, h]
  rfl

theorem isAbsolute_join (h : isAbsolute p = true) (q : String) : isAbsolute (join p q) = true := by
  rw [join, isEmpty_of_isAbsolute h, Bool.or_false]
  split_ifs with hq hslash
  · exact hq
  · exact isAbsolute_append h q
  · exact isAbsolute_append (isAbsolute_append h "/") q

theorem isAbsolute_push (h : isAbsolute p = true) (c : Component) :
    isAbsolute (push p c) = true := by
  cases c with
  | root => exact isAbsolute_of_slash []
  | _ => exact isAbsolute_join h _

theorem isAbsolute_foldl_push (h : isAbsolute p = true) (cs : List Component) :
    isAbsolute (cs.foldl push p) = true := by
  induction cs generalizing p with
  | nil => exact h
  | cons c cs ih => exact ih (isAbsolute_push h c)

/-- The directory that the components of `p` are added to. -/
def origin (cwd p : String) : String :=
  if "//".toList.isPrefixOf p.toList && !"///".toList.isPrefixOf p.toList then "//"
  else if isAbsolute p then "/" else cwd

theorem absolute_of_ne_empty (hp : p.isEmpty = false) (cwd : String) :
    absolute cwd p =
      let whole := ((components p).filter fun c => c ≠ .root && c ≠ .here).foldl push (origin cwd p)
      if p.toList.getLast? = some '/' then join whole "" else whole := by
  rw [absolute, hp, if_neg Bool.false_ne_true]
  rfl

theorem isAbsolute_origin (h : isAbsolute cwd = true ∨ isAbsolute p = true) :
    isAbsolute (origin cwd p) = true := by
  rw [origin]
  split_ifs with _ hp
  · exact isAbsolute_of_slash ['/']
  · exact isAbsolute_of_slash []
  · exact h.resolve_right hp

/-- Seen from an absolute directory, every path is absolute. -/
theorem isAbsolute_absolute (h : isAbsolute cwd = true) (p : String) :
    isAbsolute (absolute cwd p) = true := by
  cases hp : p.isEmpty with
  | true =>
      rw [absolute, hp]
      exact h
  | false =>
      rw [absolute_of_ne_empty hp]
      have hwhole := isAbsolute_foldl_push (isAbsolute_origin (p := p) (.inl h))
        ((components p).filter fun c => c ≠ .root && c ≠ .here)
      dsimp only
      split_ifs
      · exact isAbsolute_join hwhole ""
      · exact hwhole

/-- A component that a piece of a path can stand for. -/
inductive Inner : Component → Prop
  | up : Inner .up
  | name {name : String} (h : Plain name) : Inner (.name name)

theorem components_push {c : Component} (h : Inner c) (p : String) :
    components (push p c) = components p ++ [c] := by
  cases h with
  | up => exact components_join_piece p (by decide) (by decide) (by decide)
  | name h => exact components_join p h

theorem components_foldl_push {cs : List Component} (h : ∀ c ∈ cs, Inner c) (p : String) :
    components (cs.foldl push p) = components p ++ cs := by
  induction cs generalizing p with
  | nil => exact (List.append_nil _).symm
  | cons c cs ih =>
      obtain ⟨hc, hcs⟩ := List.forall_mem_cons.mp h
      rw [List.foldl_cons, ih hcs, components_push hc, List.append_assoc, List.singleton_append]

theorem noSlash_of_mem_pieces (h : name ∈ pieces p) : '/' ∉ name.toList := by
  obtain ⟨parts, hne, hfree, hparts⟩ := Text.exists_splitAtChar '/' p.toList
  rw [pieces, ← hparts, Text.splitAtChar_intercalate hfree hne] at h
  obtain ⟨part, hpart, rfl⟩ := List.mem_map.mp h
  rw [String.toList_ofList]
  exact hfree part hpart

theorem inner_of_mem {ps : List String} (h : ∀ s ∈ ps, '/' ∉ s.toList) :
    ∀ c ∈ inner ps, Inner c := by
  intro c hc
  obtain ⟨s, hs, rfl⟩ := List.mem_map.mp hc
  obtain ⟨hmem, hsilent⟩ := List.mem_filter.mp hs
  rw [Bool.and_eq_true, decide_eq_true_iff, decide_eq_true_iff] at hsilent
  split_ifs with hup
  · exact .up
  · exact .name ⟨h s hmem, hsilent.1, hsilent.2, hup⟩

/-- An absolute path has the root and what its pieces stand for. -/
theorem exists_components (h : isAbsolute p = true) :
    ∃ rest, pieces p = "" :: rest ∧ rest ≠ [] ∧ components p = .root :: inner rest := by
  obtain ⟨cs, hcs⟩ : ∃ cs, p.toList = '/' :: cs := by
    obtain ⟨cs, hcs⟩ := List.head?_eq_some_iff.mp (of_decide_eq_true h)
    exact ⟨cs, hcs⟩
  have hpieces : pieces p = "" :: (Text.splitAtChar '/' cs).map String.ofList := by
    rw [pieces, hcs, Text.splitAtChar, if_pos rfl]
    rfl
  have hne : (Text.splitAtChar '/' cs).map String.ofList ≠ [] := by
    simp [Text.splitAtChar_ne_nil]
  refine ⟨_, hpieces, hne, ?_⟩
  rw [components_of_pieces hpieces, if_pos rfl, if_neg (by simpa using hne)]
  rfl

/-- A final slash does not count. -/
theorem components_join_empty (h : isAbsolute p = true) :
    components (join p "") = components p := by
  rw [join, isEmpty_of_isAbsolute h, if_neg (by decide)]
  split_ifs
  · rw [String.append_empty]
  · obtain ⟨rest, hpieces, hne, hcomponents⟩ := exists_components h
    have hslash : pieces (p ++ "/" ++ "") = "" :: (rest ++ [""]) := by
      rw [pieces_slash, hpieces]
      rfl
    rw [hcomponents, components_of_pieces hslash, if_pos rfl, inner_append]
    simp [inner]

theorem components_origin (h : isAbsolute p = true) (cwd : String) :
    components (origin cwd p) = [.root] := by
  rw [origin, h, if_pos rfl]
  split_ifs <;> decide

/-- A path that is absolute already stays the same path. -/
theorem components_absolute (h : isAbsolute p = true) (cwd : String) :
    components (absolute cwd p) = components p := by
  obtain ⟨rest, hpieces, -, hcomponents⟩ := exists_components h
  have hinner : ∀ c ∈ inner rest, Inner c := inner_of_mem fun s hs =>
    noSlash_of_mem_pieces (hpieces ▸ List.mem_cons_of_mem "" hs)
  -- behind the root there are only names and steps upwards, and none of them is dropped
  have hbody : ((components p).filter fun c => c ≠ .root && c ≠ .here) = inner rest := by
    rw [hcomponents, List.filter_cons_of_neg (by decide), List.filter_eq_self]
    intro c hc
    cases hinner c hc <;> rfl
  have hwhole : components ((inner rest).foldl push (origin cwd p)) = components p := by
    rw [components_foldl_push hinner, components_origin h, hcomponents]
    rfl
  rw [absolute_of_ne_empty (isEmpty_of_isAbsolute h), hbody]
  dsimp only
  split_ifs
  · rw [components_join_empty, hwhole]
    exact isAbsolute_foldl_push (isAbsolute_origin (.inr h)) _
  · exact hwhole

end Path

namespace Toolchain

/-! ### Calls of tools -/

namespace ToolCall

/-- The sources, objects and executables among its arguments. -/
def operands : ToolCall → List String
  | compile _ _ source object => [source, object]
  | list _ object | edit _ _ object => [object]
  | link _ objects executable => objects ++ [executable]

/-- The objects that must be there already. -/
def reads : ToolCall → List String
  | compile _ _ _ _ => []
  | list _ object | edit _ _ object => [object]
  | link _ objects _ => objects

/-- The operands stand among the arguments of the command. -/
theorem operands_sublist (s : Settings) (c : ToolCall) :
    (c.operands).Sublist (c.invocation s).args := by
  cases c with
  | compile flags pic source object =>
      have hfiles : [source, object].Sublist ["-c", source, "-o", object] :=
        .cons _ (.cons_cons _ (.cons _ (List.Sublist.refl _)))
      exact hfiles.trans (List.sublist_append_right _ _)
  | list query object => exact List.sublist_append_right _ _
  | edit splice globals object => exact List.sublist_append_right _ _
  | link flags objects executable =>
      have hfile : [executable].Sublist ["-o", executable] := .cons _ (List.Sublist.refl _)
      exact ((List.Sublist.refl objects).append hfile).trans (List.sublist_append_left _ _)

/-- It runs in an absolute directory, and every file is named to it by an absolute path. -/
structure Absolute (s : Settings) (c : ToolCall) : Prop where
  directory : ∃ dir, (c.invocation s).cwd? = some dir ∧ Path.isAbsolute dir = true
  named : (c.operands).Sublist (c.invocation s).args
  operands : ∀ p ∈ c.operands, Path.isAbsolute p = true

end ToolCall

/-- A call of a tool with the answer to it. -/
structure Deed where
  call : ToolCall
  answer : Except Error Ended

def Deed.exchange (s : Settings) (d : Deed) : Exchange :=
  (d.call.invocation s, d.answer)

/-- A compiler was asked for the object and ended well. -/
def Wrote (ds : List Deed) (object : String) : Prop :=
  ∃ flags pic source ended,
    ⟨.compile flags pic source object, .ok ended⟩ ∈ ds ∧ ended.success = true

/-- All calls are absolute, and every object that one of them reads was written before. -/
structure Anchored (s : Settings) (ds : List Deed) : Prop where
  absolute {d : Deed} : d ∈ ds → d.call.Absolute s
  reads {before after : List Deed} {d : Deed} {object : String} :
    ds = before ++ d :: after → object ∈ d.call.reads → Wrote before object

variable {s : Settings} {ds es : List Deed} {d : Deed} {c : ToolCall} {object : String}

theorem Wrote.mono (h : Wrote ds object) (hsub : ds ⊆ es) : Wrote es object := by
  obtain ⟨flags, pic, source, ended, hmem, hsuccess⟩ := h
  exact ⟨flags, pic, source, ended, hsub hmem, hsuccess⟩

namespace Anchored

theorem nil (s : Settings) : Anchored s [] where
  absolute h := absurd h List.not_mem_nil
  reads h := absurd h.symm (by simp)

theorem extend (h : Anchored s ds) (habsolute : ∀ e ∈ es, e.call.Absolute s)
    (hreads : ∀ before after e object, es = before ++ e :: after → object ∈ e.call.reads →
      Wrote (ds ++ before) object) : Anchored s (ds ++ es) where
  absolute hd := (List.mem_append.mp hd).elim h.absolute (habsolute _)
  reads {before after d object} hsplit hobject := by
    -- the call is one of the new ones, the first of them, or one of the old ones
    rcases List.append_eq_append_iff.mp hsplit with ⟨more, rfl, hes⟩ | ⟨more, hds, hrest⟩
    · exact hreads more after d object hes hobject
    · cases more with
      | nil =>
          rw [List.append_nil] at hds
          have hfirst := hreads [] after d object hrest.symm hobject
          rwa [List.append_nil, hds] at hfirst
      | cons d' more =>
          obtain ⟨rfl, -⟩ := List.cons.inj hrest
          exact h.reads hds hobject

/-- Calls that read only what they have written themselves can come at any time. -/
theorem append (hds : Anchored s ds) (hes : Anchored s es) : Anchored s (ds ++ es) :=
  hds.extend (fun _ => hes.absolute) fun _ _ _ _ hsplit hobject =>
    (hes.reads hsplit hobject).mono (List.subset_append_right _ _)

/-- One more call. -/
theorem snoc (h : Anchored s ds) (hd : d.call.Absolute s)
    (hreads : ∀ object ∈ d.call.reads, Wrote ds object) : Anchored s (ds ++ [d]) := by
  refine h.extend (fun e he => List.mem_singleton.mp he ▸ hd) fun before after e o hsplit ho => ?_
  obtain ⟨rfl, rfl, rfl⟩ : before = [] ∧ e = d ∧ after = [] := by
    cases before <;> simp_all
  exact (hreads o ho).mono (List.subset_append_left _ _)

end Anchored

/-! ### From one call to the next -/

/-- The directories of the settings are absolute. -/
structure Settings.Rooted (s : Settings) : Prop where
  sourceDir : Path.isAbsolute s.sourceDir = true
  projectDir : Path.isAbsolute s.projectDir = true

theorem rooted_absolute {cwd : String} (h : Path.isAbsolute cwd = true) (s : Settings) :
    (s.absolute cwd).Rooted where
  sourceDir := Path.isAbsolute_absolute h s.sourceDir
  projectDir := Path.isAbsolute_absolute h s.projectDir

theorem Settings.Rooted.absolute (hs : s.Rooted)
    (h : ∀ p ∈ c.operands, Path.isAbsolute p = true) : c.Absolute s where
  directory := ⟨s.projectDir, rfl, hs.projectDir⟩
  named := c.operands_sublist s
  operands := h

theorem Settings.Rooted.absolute_compile (hs : s.Rooted) {job : CompileJob}
    (h : Path.isAbsolute job.object = true) : (job.toolCall s).Absolute s :=
  hs.absolute (List.forall_mem_cons.mpr
    ⟨Path.isAbsolute_join hs.sourceDir _, List.forall_mem_singleton.mpr h⟩)

theorem Calls.exists_deed {fault : String → BuildFault} {x : Exchange} {r : Except Error Ended}
    (h : Calls (c.invocation s) fault x r) : ∃ answer, x = Deed.exchange s ⟨c, answer⟩ ∧
      ∀ ended, r = .ok ended → answer = .ok ended ∧ ended.success = true := by
  cases h with
  | unstarted e => exact ⟨_, rfl, fun _ hr => by cases hr⟩
  | failed _ => exact ⟨_, rfl, fun _ hr => by cases hr⟩
  | done hsuccess =>
      refine ⟨_, rfl, fun _ hr => ?_⟩
      obtain rfl := Except.ok.inj hr
      exact ⟨rfl, hsuccess⟩

/-- The calls that leave an object with what it owns come after the object is there. -/
theorem Restricts.exists_deeds {splice : Splice} {xs : List Exchange} {r : Except Error Unit}
    (h : Restricts s object splice xs r) (hs : s.Rooted) (hobject : Path.isAbsolute object = true)
    (hds : Anchored s ds) (hwrote : Wrote ds object) :
    ∃ es, xs = es.map (Deed.exchange s) ∧ Anchored s (ds ++ es) := by
  have hlisting (answer : Except Error Ended) :
      Anchored s (ds ++ [⟨.list .globals object, answer⟩]) :=
    hds.snoc (hs.absolute (List.forall_mem_singleton.mpr hobject))
      (List.forall_mem_singleton.mpr hwrote)
  have hlisted {x r} (h : Lists s object x r) :
      ∃ answer, x = Deed.exchange s ⟨.list .globals object, answer⟩ :=
    h.exists_deed.imp fun _ h => h.1
  cases h with
  | unlisted h =>
      obtain ⟨answer, rfl⟩ := hlisted h
      exact ⟨[_], rfl, hlisting answer⟩
  | untouched h =>
      obtain ⟨answer, rfl⟩ := hlisted h
      exact ⟨[_], rfl, hlisting answer⟩
  | edited h _ hedit =>
      obtain ⟨answer, rfl⟩ := hlisted h
      obtain ⟨answer', rfl, -⟩ := hedit.exists_deed
      refine ⟨[_, _], rfl, ?_⟩
      rw [List.append_cons]
      exact (hlisting answer).snoc (hs.absolute (List.forall_mem_singleton.mpr hobject))
        (List.forall_mem_singleton.mpr (hwrote.mono (List.subset_append_left _ _)))

/-- A compilation. If it succeeds, its object is there. -/
theorem Compiles.exists_deeds {job : CompileJob} {xs : List Exchange} {r : Except Error Unit}
    (h : Compiles s job xs r) (hs : s.Rooted) (hobject : Path.isAbsolute job.object = true) :
    ∃ es, xs = es.map (Deed.exchange s) ∧ Anchored s es ∧ (r = .ok () → Wrote es job.object) := by
  have hcompiling (answer : Except Error Ended) : Anchored s [⟨job.toolCall s, answer⟩] :=
    (Anchored.nil s).snoc (hs.absolute_compile hobject) nofun
  have hwrote {ended : Ended} (hsuccess : ended.success = true) :
      Wrote [⟨job.toolCall s, .ok ended⟩] job.object :=
    ⟨_, _, _, ended, List.mem_singleton_self _, hsuccess⟩
  cases h with
  | refused h =>
      obtain ⟨answer, rfl, -⟩ := h.exists_deed
      exact ⟨[_], rfl, hcompiling answer, nofun⟩
  | plain h =>
      obtain ⟨answer, rfl, hanswer⟩ := h.exists_deed
      obtain ⟨rfl, hsuccess⟩ := hanswer _ rfl
      exact ⟨[_], rfl, hcompiling _, fun _ => hwrote hsuccess⟩
  | spliced h _ hrest =>
      obtain ⟨answer, rfl, hanswer⟩ := h.exists_deed
      obtain ⟨rfl, hsuccess⟩ := hanswer _ rfl
      obtain ⟨es, rfl, hes⟩ := hrest.exists_deeds hs hobject (hcompiling _) (hwrote hsuccess)
      exact ⟨_ :: es, rfl, hes, fun _ => (hwrote hsuccess).mono (List.subset_append_left _ es)⟩

/-! ### All compilations -/

variable {σ : Type} {h : Host σ} {fired : σ → Prop} {log : σ → List Exchange}
  {jobs : List CompileJob}

theorem Crew.Reports.exists_deeds {bound : Nat} {c : Crew} (hreports : c.Reports s jobs bound)
    (hs : s.Rooted) (hobjects : ∀ job ∈ jobs, Path.isAbsolute job.object = true)
    {events : List Event} (hsub : events ⊆ c.history) :
    ∃ es, events.flatMap Event.calls = es.map (Deed.exchange s) ∧ Anchored s es ∧
      ∀ u k calls job, .ended u k calls (.ok ()) ∈ events → jobs[k]? = some job →
        Wrote es job.object := by
  induction events with
  | nil => exact ⟨[], rfl, .nil s, fun _ _ _ _ hended => absurd hended List.not_mem_nil⟩
  | cons event events ih =>
      obtain ⟨hevent, hevents⟩ := List.cons_subset.mp hsub
      obtain ⟨es, hes, hanchored, hwrote⟩ := ih hevents
      cases event with
      | ended u k calls r =>
          obtain ⟨job, hjob, hcompiles⟩ := hreports.ended hevent
          obtain ⟨first, rfl, hfirst, hobject⟩ :=
            hcompiles.exists_deeds hs (hobjects job (List.mem_of_getElem? hjob))
          refine ⟨first ++ es, ?_, hfirst.append hanchored,
            fun u' k' calls' job' hended hjob' => ?_⟩
          · rw [List.flatMap_cons, hes, List.map_append]
            rfl
          · rcases List.mem_cons.mp hended with heq | hended
            · obtain ⟨rfl, rfl, rfl, rfl⟩ := Event.ended.inj heq
              obtain rfl := Option.some.inj (hjob.symm.trans hjob')
              exact (hobject rfl).mono (List.subset_append_left _ _)
            · exact (hwrote _ _ _ _ hended hjob').mono (List.subset_append_right _ _)
      | _ =>
          refine ⟨es, hes, hanchored, fun u k calls job hended hjob => ?_⟩
          exact hwrote u k calls job (by simpa using hended) hjob

theorem exists_deeds_compileAll (hh : h.Latched fired) (hs : s.Rooted)
    (hobjects : ∀ job ∈ jobs, Path.isAbsolute job.object = true) (bound timeout : Nat) (w : σ) :
    ∃ es, h.Talk w (es.map (Deed.exchange s)) ((compileAll h s jobs bound timeout).runOn w).2 ∧
      Anchored s es ∧ (((compileAll h s jobs bound timeout).runOn w).1 = .ok () →
        ∀ job ∈ jobs, Wrote es job.object) := by
  obtain ⟨c, hsteps, hover, hverdict, htalk⟩ := exists_crew hh s jobs bound timeout w
  have hreports := crew_reports hsteps
  obtain ⟨es, hes, hanchored, hwrote⟩ :=
    hreports.exists_deeds hs hobjects (List.Subset.refl c.history)
  refine ⟨es, hes ▸ htalk, hanchored, fun hok job hjob => ?_⟩
  -- a success means that every job has ended, and none of them with an error
  obtain ⟨hperm, hall⟩ := ((hreports.ok hover).mp (hverdict.trans hok)).1
  obtain ⟨k, hk⟩ := List.getElem?_of_mem hjob
  have hended : k ∈ c.history.filterMap Event.end? :=
    hperm.mem_iff.mpr (List.mem_range.mpr (List.getElem?_eq_some_iff.mp hk).1)
  obtain ⟨event, hevent, hend⟩ := List.mem_filterMap.mp hended
  cases event with
  | ended u k' calls r =>
      obtain rfl := Option.some.inj hend
      obtain rfl := hall _ _ _ _ hevent
      exact hwrote _ _ _ _ hevent hk
  | _ => cases hend

/-- The objects of a build are right below its object directory. -/
theorem isAbsolute_object (hcwd : Path.isAbsolute h.cwd = true) (q : BuildRequest)
    (us : List SourceUnit) : ∀ job ∈ jobsFor h q us, Path.isAbsolute job.object = true := by
  have hdir : Path.isAbsolute (objectDirectory h q) = true :=
    Path.isAbsolute_join (Path.isAbsolute_absolute hcwd _) _
  intro job hjob
  obtain ⟨unit, -, hjob⟩ := List.mem_flatMap.mp hjob
  obtain ⟨suffixes, -, hobjects⟩ :=
    Plan.exists_suffixes q.partition q.trusted q.variant (objectDirectory h q) unit
  have hobject := List.mem_map_of_mem (f := (·.object)) hjob
  rw [hobjects] at hobject
  obtain ⟨suffix, -, hpath⟩ := List.mem_map.mp hobject
  rw [← hpath]
  exact Path.isAbsolute_join hdir _

/-! ### A build and a listing -/

/-- One more call after others. -/
theorem exists_deed_call (h : Host σ) (hds : Anchored s ds) (hc : c.Absolute s)
    (hreads : ∀ object ∈ c.reads, Wrote ds object) (timeout : Nat) (fault : String → BuildFault)
    (w : σ) : ∃ answer,
      h.Talk w [Deed.exchange s ⟨c, answer⟩]
        ((call h (c.invocation s) timeout fault).runOn w).2 ∧
      Anchored s (ds ++ [⟨c, answer⟩]) ∧
      ∀ ended, ((call h (c.invocation s) timeout fault).runOn w).1 = .ok ended →
        answer = .ok ended ∧ ended.success = true := by
  obtain ⟨x, hcall, htalk⟩ := call_calls h (c.invocation s) timeout fault w
  obtain ⟨answer, rfl, hanswer⟩ := hcall.exists_deed
  exact ⟨answer, htalk, hds.snoc hc hreads, hanswer⟩

/-- The linker was the last tool, and what it wrote is what the test is started from. -/
structure Handed (h : Host σ) (q : BuildRequest) (built : Built) (ds : List Deed) : Prop where
  linked : ∃ compiling objects ended, ended.success = true ∧
    ds = compiling ++ [⟨.link q.trusted objects built.executable, .ok ended⟩]
  started (run : RunSettings) (target : Target) (workdir : String) :
    let program := (run.invocation h.cwd built.executable target workdir).program
    Path.isAbsolute program = true ∧ Path.components program = Path.components built.executable

/-- A build that began at `start`, once the directory of its objects is there. -/
def assemble (h : Host σ) (s : Settings) (q : BuildRequest) (start : Nat) (us : List SourceUnit) :
    Attempt σ Built := do
  compileAll h s (jobsFor h q us) q.jobs q.timeout
  discard (call h ((linkFor h s q us).invocation s) q.timeout .link)
  let now ← ExceptT.lift h.clock
  pure ⟨executablePath h s q, now - start, (jobsFor h q us).length⟩

theorem build_eq (h : Host σ) (s : Settings) (q : BuildRequest) : build h s q = (do
    let start ← ExceptT.lift h.clock
    let us ← units h s
    match ← ExceptT.lift (h.createDirectories (objectDirectory h q)) with
    | .error cause => throw (.file (.create (objectDirectory h q)) cause)
    | .ok () => assemble h s q start us) := by
  simp only [assemble, linkFor, ← s.linkCall_eq]
  rfl

theorem exists_deeds_assemble (hh : h.Latched fired) (hk : h.Keeps log)
    (hcwd : Path.isAbsolute h.cwd = true) (hs : s.Rooted) (q : BuildRequest) (start : Nat)
    (us : List SourceUnit) (w : σ) :
    ∃ ds, log ((assemble h s q start us).runOn w).2 = log w ++ ds.map (Deed.exchange s) ∧
      Anchored s ds ∧
      ∀ built, ((assemble h s q start us).runOn w).1 = .ok built → Handed h q built ds := by
  have hobjects := isAbsolute_object hcwd q us
  obtain ⟨es, htalk, hes, hwrote⟩ := exists_deeds_compileAll hh hs hobjects q.jobs q.timeout w
  rw [assemble, Attempt.runOn_bind]
  rcases hcompile : (compileAll h s (jobsFor h q us) q.jobs q.timeout).runOn w with
    ⟨e | ⟨⟩, w₁⟩ <;> rw [hcompile] at htalk hwrote
  · exact ⟨es, hk.talk htalk, hes, fun _ hok => by cases hok⟩
  · dsimp only
    have hexecutable : Path.isAbsolute (executablePath h s q) = true :=
      Path.isAbsolute_join (Path.isAbsolute_absolute hcwd _) _
    have hlink : (linkFor h s q us).Absolute s := hs.absolute (List.forall_mem_append.mpr
      ⟨List.forall_mem_map.mpr hobjects, List.forall_mem_singleton.mpr hexecutable⟩)
    obtain ⟨answer, hlast, hlinked, hanswer⟩ := exists_deed_call h hes hlink
      (List.forall_mem_map.mpr (hwrote rfl)) q.timeout .link w₁
    have hlog := hk.talk (htalk.trans hlast)
    rw [Attempt.runOn_bind, Attempt.runOn_discard]
    refine ⟨es ++ [⟨linkFor h s q us, answer⟩], ?_, hlinked, fun built hbuilt => ?_⟩
    · rw [List.map_append, List.map_singleton, ← hlog]
      rcases (call h ((linkFor h s q us).invocation s) q.timeout .link).runOn w₁ with
        ⟨e | linked, w₂⟩
      · rfl
      · exact hk.times w₂
    · rcases hrun : (call h ((linkFor h s q us).invocation s) q.timeout .link).runOn w₁ with
        ⟨e | linked, w₂⟩ <;> rw [hrun] at hbuilt hanswer
      · cases hbuilt
      · obtain rfl := Except.ok.inj hbuilt
        obtain ⟨rfl, hsuccess⟩ := hanswer linked rfl
        exact ⟨⟨es, _, linked, hsuccess, rfl⟩, fun run target workdir =>
          ⟨Path.isAbsolute_absolute hcwd _, Path.components_absolute hexecutable _⟩⟩

theorem exists_deeds_build (hh : h.Latched fired) (hk : h.Keeps log)
    (hcwd : Path.isAbsolute h.cwd = true) (hs : s.Rooted) (q : BuildRequest) (w : σ) :
    ∃ ds, log ((build h s q).runOn w).2 = log w ++ ds.map (Deed.exchange s) ∧ Anchored s ds ∧
      ∀ built, ((build h s q).runOn w).1 = .ok built → Handed h q built ds := by
  -- no tool is called before the directory of the objects is there
  have hfound := (hk.units s (h.clock w).2).trans (hk.times w)
  rw [build_eq, Attempt.runOn_lift_bind, Attempt.runOn_bind]
  rcases hunits : (units h s).runOn (h.clock w).2 with ⟨e | us, w₁⟩ <;> rw [hunits] at hfound
  · exact ⟨[], hfound.trans (List.append_nil _).symm, .nil s, fun _ hok => by cases hok⟩
  · dsimp only
    rw [Attempt.runOn_lift_bind]
    have hcreated := (hk.creates (objectDirectory h q) w₁).trans hfound
    rcases hcreate : h.createDirectories (objectDirectory h q) w₁ with ⟨cause | ⟨⟩, w₂⟩ <;>
      rw [hcreate] at hcreated
    · exact ⟨[], hcreated.trans (List.append_nil _).symm, .nil s, fun _ hok => by cases hok⟩
    · rw [← hcreated]
      exact exists_deeds_assemble hh hk hcwd hs q (h.clock w).1 us w₂

theorem exists_deeds_runNm (h : Host σ) (hs : s.Rooted) (hds : Anchored s ds)
    (hobject : Path.isAbsolute object = true) (hwrote : Wrote ds object) (query : Query)
    (timeout : Nat) (w : σ) :
    ∃ d, h.Talk w [d.exchange s] ((runNm h s object query.options timeout).runOn w).2 ∧
      Anchored s (ds ++ [d]) := by
  obtain ⟨answer, htalk, hlisted, -⟩ := exists_deed_call h hds (c := .list query object)
    (hs.absolute (List.forall_mem_singleton.mpr hobject)) (List.forall_mem_singleton.mpr hwrote)
    timeout (.listing object) w
  refine ⟨_, ?_, hlisted⟩
  rw [runNm, s.nmCall_eq, Attempt.runOn_bind]
  rcases hrun : (call h ((ToolCall.list query object).invocation s) timeout
    (.listing object)).runOn w with ⟨e | ended, w'⟩ <;> rw [hrun] at htalk <;> exact htalk

/-- The object whose symbols are listed. -/
def listedObject (h : Host σ) (unit : SourceUnit) (workdir : String) : String :=
  Path.join (Path.absolute h.cwd workdir) (unit.objectStem ++ "_symbols.o")

theorem symbols_eq (h : Host σ) (s : Settings) (unit : SourceUnit) (flags : Flags)
    (workdir : String) (timeout : Nat) : symbols h s unit flags workdir timeout = (do
    let object := listedObject h unit workdir
    compile h s ⟨unit, flags, object, true, none⟩ timeout
    let mangled ← runNm h s object Query.symbols.options timeout
    let demangled ← runNm h s object Query.demangled.options timeout
    pure (readSymbols unit mangled demangled)) := rfl

theorem exists_deeds_symbols (hcwd : Path.isAbsolute h.cwd = true) (hs : s.Rooted)
    (unit : SourceUnit) (flags : Flags) (workdir : String) (timeout : Nat) (w : σ) :
    ∃ ds, h.Talk w (ds.map (Deed.exchange s))
        ((symbols h s unit flags workdir timeout).runOn w).2 ∧ Anchored s ds := by
  have hobject : Path.isAbsolute (listedObject h unit workdir) = true := by
    rw [listedObject]
    exact Path.isAbsolute_join (Path.isAbsolute_absolute hcwd _) _
  rw [symbols_eq]
  -- from here on the path is any absolute one, so that nothing looks into the digest in its name
  generalize listedObject h unit workdir = object at hobject
  dsimp only
  let job : CompileJob := ⟨unit, flags, object, true, none⟩
  obtain ⟨xs, hcompiles, hcompiled⟩ := compile_compiles h s job timeout w
  obtain ⟨ds, rfl, hds, hwrote⟩ := hcompiles.exists_deeds hs hobject
  rw [Attempt.runOn_bind]
  rcases hrun : (compile h s job timeout).runOn w with ⟨e | ⟨⟩, w₁⟩ <;>
    rw [hrun] at hcompiled hwrote
  · exact ⟨ds, hcompiled, hds⟩
  · dsimp only
    obtain ⟨d, hlisted, hds₁⟩ := exists_deeds_runNm h hs hds hobject (hwrote rfl)
      .symbols timeout w₁
    have htalk := hcompiled.trans hlisted
    rw [Attempt.runOn_bind]
    rcases hrun : (runNm h s object Query.symbols.options timeout).runOn w₁ with
      ⟨e | mangled, w₂⟩ <;> rw [hrun] at htalk
    · refine ⟨ds ++ [d], ?_, hds₁⟩
      rwa [List.map_append]
    · dsimp only
      have hwrote₁ := (hwrote rfl).mono (List.subset_append_left ds [d])
      obtain ⟨d', hlisted', hds₂⟩ := exists_deeds_runNm h hs hds₁ hobject hwrote₁
        .demangled timeout w₂
      refine ⟨ds ++ [d] ++ [d'], ?_, hds₂⟩
      rw [Attempt.runOn_bind, List.map_append, List.map_append]
      have htalk' := htalk.trans hlisted'
      rcases hrun : (runNm h s object Query.demangled.options timeout).runOn w₂ with
        ⟨e | demangled, w₃⟩ <;> rw [hrun] at htalk' <;> exact htalk'

/-- Everything is named by an absolute path. Whatever directories the settings and the request name,
each tool that a build or a listing of symbols calls runs in an absolute directory and is given
absolute paths, and lists, edits or links only what was compiled before; and the test is started
from the absolute path of what was linked. -/
theorem pipeline_absolute (hh : h.Latched fired) (hk : h.Keeps log)
    (hcwd : Path.isAbsolute h.cwd = true) (s : Settings) :
    (∀ q w, ∃ ds, Anchored (s.absolute h.cwd) ds ∧
      log (((pipeline h s).build q).runOn w).2 =
        log w ++ ds.map (Deed.exchange (s.absolute h.cwd)) ∧
      ∀ built, (((pipeline h s).build q).runOn w).1 = .ok built → Handed h q built ds) ∧
    ∀ unit flags workdir timeout w, ∃ ds, Anchored (s.absolute h.cwd) ds ∧
      log (((pipeline h s).symbols unit flags workdir timeout).runOn w).2 =
        log w ++ ds.map (Deed.exchange (s.absolute h.cwd)) := by
  have hs := rooted_absolute hcwd s
  constructor
  · intro q w
    obtain ⟨ds, hlog, hds, hhanded⟩ := exists_deeds_build hh hk hcwd hs q w
    exact ⟨ds, hds, hlog, hhanded⟩
  · intro unit flags workdir timeout w
    obtain ⟨ds, htalk, hds⟩ := exists_deeds_symbols hcwd hs unit flags workdir timeout w
    exact ⟨ds, hds, hk.talk htalk⟩

/-- No directory is absolute. -/
def nearby : Settings :=
  { gnu with sourceDir := "src", sources := [⟨"a.c"⟩], projectDir := "" }

def inPlace : BuildRequest :=
  ⟨⟨.units, ["a.c"], []⟩, ⟨"gcc", "-O0", []⟩, ⟨"gcc", "-O3", []⟩, "w", 1, 60⟩

theorem pipeline_absolute_nearby :
    quiet.Latched (fun _ => False) ∧ quiet.Keeps id ∧ Path.isAbsolute quiet.cwd = true ∧
      ∃ built ds, (((pipeline quiet nearby).build inPlace).runOn []).1 = .ok built ∧
        built.executable = "/w/app" ∧
        (((pipeline quiet nearby).build inPlace).runOn []).2 =
          ds.map (Deed.exchange (nearby.absolute "/")) ∧
        Anchored (nearby.absolute "/") ds ∧ Handed quiet inPlace built ds := by
  have hcwd : Path.isAbsolute quiet.cwd = true := by decide
  obtain ⟨ds, hds, hlog, hhanded⟩ := (pipeline_absolute (latched_recorder _) (keeps_recorder _)
    hcwd nearby).1 inPlace []
  have hbuilt : (((pipeline quiet nearby).build inPlace).runOn []).1 =
      .ok ⟨executablePath quiet (nearby.absolute "/") inPlace, 0, 1⟩ := rfl
  exact ⟨latched_recorder _, keeps_recorder _, hcwd, _, ds, hbuilt, by decide, hlog, hds,
    hhanded _ hbuilt⟩

end Toolchain

end Culprit
