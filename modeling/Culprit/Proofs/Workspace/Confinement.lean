import Culprit.Commands.Terminal
import Culprit.Proofs.Toolchain.Objects
import Culprit.Proofs.Workspace.Names

/-!
Nothing that a label or the path of a unit says leads out of the work area. A workspace is an entry
of the directory that workspaces are made in, the object directory of a build is an entry of the
workspace of the build, and the objects are entries of the object directory.

On the machine that the commands work with, making a workspace and removing it changes nothing but
one entry of that directory.
-/

namespace Culprit

/-! ### The machine of the commands -/

namespace FileTree

/-- At most the entry `name` of `dir` was changed, and what is below it. -/
def ChangedIn (dir name : String) (t t' : FileTree) : Prop :=
  t' = t ∨ ∃ r, t.route dir = .ok r ∧ SameOutside (r ++ [name]) t t'

end FileTree

namespace Machine

variable {m m' : Machine} {root start path : String}

theorem change_ok {f : FileTree → Except SystemFault FileTree} {files : FileTree}
    (h : f m.files = .ok files) : change f m = (.ok (), { m with files := files }) := by
  rw [change, h]

theorem change_error {f : FileTree → Except SystemFault FileTree} {fault : SystemFault}
    (h : f m.files = .error fault) : change f m = (.error { fault := fault }, m) := by
  rw [change, h]

theorem get_run (m : Machine) : (get : StateM Machine Machine) m = (m, m) := rfl

/-- A directory is made at a path that ends with a number. -/
theorem makeDirectory_ok (h : makeDirectory root start m = (.ok path, m')) :
    (∃ n, path = Path.join root (start ++ nameOf n)) ∧
      m.files.createDirectory path = .ok m'.files := by
  rw [makeDirectory, bind_of (get_run m)] at h
  dsimp only at h
  generalize firstFree _ _ _ = n at h
  have hset : (set { m with fresh := n + 1 } : StateM Machine PUnit) m =
      (⟨⟩, { m with fresh := n + 1 }) := rfl
  rw [bind_of hset] at h
  rcases hmake : m.files.createDirectory (Path.join root (start ++ nameOf n)) with fault | files
  · rw [bind_of (change_error hmake)] at h
    cases h
  · rw [bind_of (change_ok hmake)] at h
    obtain ⟨hpath, rfl⟩ := Prod.mk.inj h
    obtain rfl := Except.ok.inj hpath
    exact ⟨⟨n, rfl⟩, hmake⟩

theorem isAlphanum_of_mem_nameOf {n : Nat} {c : Char} (h : c ∈ (nameOf n).toList) :
    c.isAlphanum = true := by
  have hdigit : c.isDigit = true := by
    rw [nameOf, String.toList_ofList, List.mem_append] at h
    rcases h with h | h
    · rw [List.eq_of_mem_replicate h]
      rfl
    · exact Nat.isDigit_of_mem_toDigits (by decide) (by decide) h
  rw [Char.isAlphanum, hdigit, Bool.or_true]

theorem removeDirectory_edits (h : Path.isAbsolute path = true) (m : Machine) :
    (removeDirectory path m).2.files = m.files ∨
      m.files.Edit path (removeDirectory path m).2.files := by
  have habsolute : m.absolute path = path := by
    rw [absolute, Path.isEmpty_of_isAbsolute h, if_neg Bool.false_ne_true,
      Path.join_of_isAbsolute h]
  rw [removeDirectory, bind_of (get_run m), habsolute]
  rcases hremove : m.files.removeDirectory path with fault | files
  · rw [bind_of (change_error hremove)]
    exact .inl rfl
  · rw [bind_of (change_ok hremove)]
    exact .inr (.clear hremove)

theorem isAbsolute_canonical {m m' : Machine} {path found : String}
    (h : canonical path m = (.ok found, m')) : Path.isAbsolute found = true := by
  have hask : ((m.files.canonical (m.absolute path)).mapError fun fault =>
      ({ fault := fault } : SystemError)) = .ok found := (Prod.mk.inj h).1
  rw [FileTree.canonical] at hask
  rcases hfind : m.files.find (m.absolute path) with fault | p <;> rw [hfind] at hask
  · cases hask
  · obtain rfl : FileTree.text p.1 = found := Except.ok.inj hask
    rw [FileTree.text, Path.isAbsolute, String.toList_append]
    rfl

end Machine

/-- The root is named canonically, so it does not matter later where the machine stands. -/
theorem WorkArea.isAbsolute_root {root : String} {deletes : Bool} {area : WorkArea} {m m' : Machine}
    (h : Attempt.runOn (prepare root deletes) m = (.ok area, m')) :
    Path.isAbsolute area.root = true := by
  rw [prepare, Attempt.runOn_lift_bind] at h
  rcases hcreate : Machine.createDirectories root m with ⟨e | ⟨⟩, m₁⟩ <;> rw [hcreate] at h
  · cases h
  · dsimp only at h
    rw [Attempt.runOn_lift_bind] at h
    rcases hfound : Machine.canonical root m₁ with ⟨e | path, m₂⟩ <;> rw [hfound] at h
    · cases h
    · obtain rfl : ⟨path, deletes⟩ = area := Except.ok.inj (Prod.mk.inj h).1
      exact Machine.isAbsolute_canonical hfound

namespace Commands.Terminal

variable {area : WorkArea} {project : ProjectFile} {log? : Option String} {cwd : String}

theorem makeDirectory_ok {t t' : Terminal} {start path : String}
    (h : ((lab area project log? cwd).makeDirectory start).runOn t = (.ok path, t')) :
    Machine.makeDirectory area.root start t.machine = (.ok path, t'.machine) := by
  have hrun : ((lab area project log? cwd).makeDirectory start).runOn t =
      ((Attempt.runOn (area.makeDirectory start) t.machine).1,
        { t with machine := (Attempt.runOn (area.makeDirectory start) t.machine).2 }) := rfl
  rw [hrun, WorkArea.makeDirectory, Attempt.runOn_lift_bind] at h
  rcases hmake : Machine.makeDirectory area.root start t.machine with ⟨fault | made, m⟩ <;>
    rw [hmake] at h
  · cases h
  · cases h
    rfl

theorem removeDirectory_machine (path : String) (t : Terminal) :
    (((lab area project log? cwd).removeDirectory path).runOn t).2.machine =
      (Machine.removeDirectory path t.machine).2 := by
  have hrun : ((lab area project log? cwd).removeDirectory path).runOn t =
      ((Attempt.runOn (WorkArea.removeDirectory path) t.machine).1,
        { t with machine := (Attempt.runOn (WorkArea.removeDirectory path) t.machine).2 }) := rfl
  rw [hrun, WorkArea.removeDirectory, Attempt.runOn_lift_bind]
  rcases Machine.removeDirectory path t.machine with ⟨fault | _, m⟩ <;> rfl

/-- The names of directories end with numbers. -/
theorem makesIn_lab (hroot : Path.isAbsolute area.root = true) (project : ProjectFile)
    (log? : Option String) (cwd : String) : (lab area project log? cwd).MakesIn area.root where
  rooted := hroot
  made hmake := by
    obtain ⟨⟨n, hpath⟩, -⟩ := Machine.makeDirectory_ok (makeDirectory_ok hmake)
    exact ⟨_, fun c hc => Machine.isAlphanum_of_mem_nameOf hc, hpath⟩

/-- Whoever takes a workspace changes nothing but an entry of the root, and whoever gives it back
changes nothing but the same entry. -/
theorem changedIn_workspace (hroot : Path.isAbsolute area.root = true) {label : String}
    {w : Workspace} {s s' : Site Terminal}
    (h : (Site.acquire (lab area project log? cwd) label).runOn s = (.ok w, s')) :
    ∃ name, Path.Child area.root name w.path ∧
      FileTree.ChangedIn area.root name s.world.machine.files s'.world.machine.files ∧
      ∀ s₁ : Site Terminal, FileTree.ChangedIn area.root name s₁.world.machine.files
        (Site.drop (lab area project log? cwd) w s₁).2.world.machine.files := by
  obtain ⟨ending, -, hchild⟩ := (makesIn_lab hroot project log? cwd).placed_acquire h
  obtain ⟨path, t, hmake, rfl, rfl⟩ := Site.exists_of_acquire h
  refine ⟨_, hchild, ?_, fun s₁ => ?_⟩
  · exact .inr (hchild.edits (.make (Machine.makeDirectory_ok (makeDirectory_ok hmake)).2))
  · rw [Site.world_drop _ s₁ rfl]
    split_ifs
    · rw [removeDirectory_machine]
      exact (Machine.removeDirectory_edits (hchild.absolute.trans hroot) _).imp_right hchild.edits
    · exact .inl rfl

end Commands.Terminal

/-! ### Labels and paths of units -/

open Toolchain (Host Settings Exchange objectDirectory)

/-- Every workspace is an entry of `root` with the label that it was asked for with. -/
structure Lab.Confines {σ : Type} (lab : Lab σ) (root : String) : Prop where
  acquired {label : String} {w : Workspace} {s s' : Site σ} :
    (Site.acquire lab label).runOn s = (.ok w, s') → Workspace.Placed root label w.path
  /-- However many hold workspaces and however they take turns, until the last one is removed. -/
  held (labels : List String) (world : σ) (acts : List (Yard.Act σ)) :
    ((Yard.opening labels world).run lab acts).Sited root labels

/-- No tool is called for an object anywhere but in the directory for it, whatever the tools answer
and whether or not they are let finish. -/
structure Toolchain.Host.Confines {τ : Type} (h : Host τ) (log : τ → List Exchange) : Prop where
  /-- A build has a directory for objects. -/
  built (s : Settings) (q : BuildRequest) (w : τ) :
    StaysIn log s (objectDirectory h q) (log w) ((build h s q).runOn w).2
  /-- The one object whose symbols are listed is right in the workspace. -/
  listed (s : Settings) (u : SourceUnit) (flags : Flags) (workdir : String) (timeout : Nat)
    (w : τ) : Path.isAbsolute h.cwd = true →
      StaysIn log s (Path.absolute h.cwd workdir) (log w)
        ((symbols h s u flags workdir timeout).runOn w).2

/-- No label leads out of the directory that workspaces are made in: the name of a workspace begins
with something short from a safe alphabet. No path of a unit leads out of the object directory,
which is an entry of the workspace of the build: the name of an object has letters, digits and
underscores only. -/
theorem nothing_escapes (σ τ : Type) :
    (∀ label, Workspace.Opening (Workspace.cleanLabel label ++ "-")) ∧
      (∀ (lab : Lab σ) (root : String), lab.MakesIn root → lab.Confines root) ∧
      (∀ u : SourceUnit, ∀ c ∈ u.objectStem.toList, SourceUnit.IsStemChar c) ∧
      (∀ (h : Host τ) (q : BuildRequest) (us : List SourceUnit),
        ∀ job ∈ Toolchain.jobsFor h q us,
          Toolchain.IsObject (objectDirectory h q) job.object) ∧
      (∀ (h : Host τ) (log : τ → List Exchange), h.Keeps log → h.Confines log) ∧
      ∀ (h : Host τ) (root label : String) (q : BuildRequest), Path.isAbsolute root = true →
        Workspace.Placed root label q.workdir →
          Path.components (objectDirectory h q) = Path.components q.workdir ++ [.name "obj"] := by
  refine ⟨Workspace.opening_cleanLabel, fun lab root hlab => ?workspaces,
    fun u c => SourceUnit.isStemChar_of_mem_objectStem,
    fun h q us job => Toolchain.isObject_of_mem_jobsFor h q us, fun h log hkeeps => ?calls,
    fun h root label q hroot hplaced => ?nested⟩
  case workspaces =>
      exact {
        acquired := hlab.placed_acquire
        held := fun labels world acts => (Yard.sited_opening root labels world).run hlab acts }
  case calls =>
      exact {
        built := fun s q w =>
          Toolchain.build_staysIn hkeeps s q w (Toolchain.staysIn_refl log s _ w)
        listed := fun s u flags workdir timeout w hcwd =>
          Toolchain.symbols_staysIn hkeeps hcwd s u flags workdir timeout w
            (Toolchain.staysIn_refl log s _ w) }
  case nested =>
      obtain ⟨ending, -, hchild⟩ := hplaced
      exact Toolchain.components_objectDirectory h (hchild.absolute.trans hroot)

/-! ### A label and a path that climb -/

/-- Workspaces are made below `/work` and removed. -/
def workshop : Lab Commands.Terminal :=
  Commands.Terminal.lab ⟨"/work", true⟩ .standard none "/"

def shopFloor : Site Commands.Terminal :=
  ⟨.start (.start "/" ⟨[(["work"], .directory)]⟩) "" (.bare "linux"), .empty⟩

/-- A build in a workspace that was made there. -/
def climbing : BuildRequest :=
  ⟨⟨.units, [], []⟩, ⟨"gcc", "-O0", []⟩, ⟨"gcc", "-O3", []⟩, "/work/truth-______etc-000000", 1, 60⟩

def climbers : Settings :=
  { Toolchain.gnu with sources := [⟨"/etc/../a\\b.c"⟩] }

theorem nothing_escapes_climbing :
    workshop.MakesIn "/work" ∧ Toolchain.quiet.Keeps id ∧
      (∃ s, (Site.acquire workshop "truth-../../etc").runOn shopFloor =
        (.ok ⟨climbing.workdir, true⟩, s)) ∧
      Workspace.Placed "/work" "truth-../../etc" climbing.workdir ∧
      Path.components (objectDirectory Toolchain.quiet climbing) =
        Path.components climbing.workdir ++ [.name "obj"] ∧
      ∃ ds, ((Toolchain.build Toolchain.quiet climbers climbing).runOn []).2 =
          ds.map (Toolchain.Deed.exchange climbers) ∧
        Toolchain.Tidy climbers (objectDirectory Toolchain.quiet climbing) ds := by
  have hlab : workshop.MakesIn "/work" := Commands.Terminal.makesIn_lab (by decide) _ _ _
  have hlog : Toolchain.quiet.Keeps id := Toolchain.keeps_recorder _
  obtain ⟨-, hworkspaces, -, -, hcalls, hnested⟩ :=
    nothing_escapes Commands.Terminal (List Exchange)
  have hmade : ((Site.acquire workshop "truth-../../etc").runOn shopFloor).1 =
      .ok ⟨climbing.workdir, true⟩ := rfl
  have hacquire : (Site.acquire workshop "truth-../../etc").runOn shopFloor =
      (.ok ⟨climbing.workdir, true⟩,
        ((Site.acquire workshop "truth-../../etc").runOn shopFloor).2) := Prod.ext hmade rfl
  have hplaced : Workspace.Placed "/work" "truth-../../etc" climbing.workdir :=
    (hworkspaces workshop "/work" hlab).acquired hacquire
  obtain ⟨ds, hlogged, htidy⟩ := (hcalls Toolchain.quiet id hlog).built climbers climbing []
  exact ⟨hlab, hlog, ⟨_, hacquire⟩, hplaced, hnested _ _ _ _ (by decide) hplaced, ds, hlogged,
    htidy⟩

end Culprit
