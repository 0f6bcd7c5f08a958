import Culprit.Machine
import Mathlib.Data.List.Basic
import Mathlib.Tactic.Common

/-!
Files that grow at their ends. New directories and files leave what is there in its place, so a path
that leads somewhere goes on leading there. A file holds what was appended to it, one text after the
other, and it makes no difference whether two texts are appended at once.
-/

namespace Culprit

namespace FileTree

variable {t t' t'' : FileTree} {r r' : Route} {n n' : Node} {path : String}

/-! ### Nodes -/

theorem lookup_replace (nodes : List (Route × Node)) (r r' : Route) (n : Node) :
    (nodes.map fun p => if p.1 = r then (r, n) else p).lookup r' =
      if r' = r then (nodes.lookup r).map fun _ => n else nodes.lookup r' := by
  induction nodes with
  | nil => simp
  | cons p nodes ih =>
      obtain ⟨q, m⟩ := p
      rw [List.map_cons]
      by_cases hq : q = r
      · subst hq
        by_cases hr : r' = q
        · subst hr
          simp
        · rw [if_neg hr] at ih
          simp [List.lookup_cons, beq_eq_false_iff_ne.mpr hr, ih, hr]
      · by_cases hr : r' = r
        · subst hr
          rw [if_pos rfl] at ih
          simp [List.lookup_cons, hq, beq_eq_false_iff_ne.mpr (Ne.symm hq), ih]
        · rw [if_neg hr] at ih
          simp [List.lookup_cons, hq, ih, hr]

theorem node?_put (hr : r ≠ []) :
    (t.put r n).node? r' = if r' = r then some n else t.node? r' := by
  by_cases hroot : r' = []
  · subst hroot
    rw [if_neg (Ne.symm hr), node?_root, node?_root]
  have hnode (t : FileTree) : t.node? r' = t.nodes.lookup r' := by
    rw [node?, if_neg (by simpa using hroot)]
  rw [hnode, hnode, put]
  split
  · next hsome =>
      rw [lookup_replace]
      obtain ⟨old, hold⟩ := Option.isSome_iff_exists.mp hsome
      simp [hold]
  · next hnone =>
      rw [Option.not_isSome_iff_eq_none] at hnone
      rw [List.lookup_append]
      by_cases heq : r' = r
      · subst heq
        simp [hnone]
      · rw [if_neg heq, List.lookup_cons, beq_eq_false_iff_ne.mpr heq]
        exact Option.or_none

theorem put_put : (t.put r n).put r n' = t.put r n' := by
  have hreplaced (nodes : List (Route × Node)) :
      (nodes.map fun p => if p.1 = r then (r, n) else p).map
        (fun p => if p.1 = r then (r, n') else p) =
      nodes.map fun p => if p.1 = r then (r, n') else p := by
    rw [List.map_map]
    refine List.map_congr_left fun p _ => ?_
    by_cases hp : p.1 = r <;> simp [hp]
  by_cases hsome : (t.nodes.lookup r).isSome
  · have hput (n : Node) : t.put r n = ⟨t.nodes.map fun p => if p.1 = r then (r, n) else p⟩ := by
      rw [put, if_pos hsome]
    obtain ⟨old, hold⟩ := Option.isSome_iff_exists.mp hsome
    rw [hput n, hput n', put, if_pos (by simp [lookup_replace, hold]), hreplaced]
  · have hput (n : Node) : t.put r n = ⟨t.nodes ++ [(r, n)]⟩ := by
      rw [put, if_neg hsome]
    rw [Option.not_isSome_iff_eq_none] at hsome
    have hfresh : ∀ p ∈ t.nodes, p.1 ≠ r := by
      intro p hp heq
      exact bne_iff_ne.mp (List.lookup_eq_none_iff.mp hsome p hp) heq.symm
    have hkept : (t.nodes.map fun p => if p.1 = r then (r, n') else p) = t.nodes :=
      (List.map_congr_left fun p hp => if_neg (hfresh p hp)).trans (List.map_id _)
    rw [hput n, hput n', put, if_pos (by simp [List.lookup_append, hsome]), List.map_append, hkept]
    simp

/-- Everything that is in the first tree is in the second. -/
def Extends (t t' : FileTree) : Prop :=
  ∀ r n, t.node? r = some n → t'.node? r = some n

theorem Extends.refl (t : FileTree) : t.Extends t :=
  fun _ _ h => h

theorem Extends.trans (h : t.Extends t') (h' : t'.Extends t'') : t.Extends t'' :=
  fun r n hn => h' r n (h r n hn)

theorem ne_root_of_node? (h : t.node? r ≠ some .directory) : r ≠ [] := by
  rintro rfl
  exact h (node?_root t)

theorem ne_root_of_none (h : t.node? r = none) : r ≠ [] :=
  ne_root_of_node? (t := t) (by simp [h])

theorem extends_put (h : t.node? r = none) (n : Node) : t.Extends (t.put r n) := by
  intro r' n' hn
  rw [node?_put (ne_root_of_none h), if_neg, hn]
  rintro rfl
  rw [h] at hn
  cases hn

/-! ### Paths -/

/-- Every directory of the first tree is one of the second. -/
def KeepsDirectories (t t' : FileTree) : Prop :=
  ∀ r, t.node? r = some .directory → t'.node? r = some .directory

theorem Extends.keepsDirectories (h : t.Extends t') : t.KeepsDirectories t' :=
  fun r hr => h r _ hr

theorem mustBeDirectory_iff : t.mustBeDirectory r = .ok () ↔ t.node? r = some .directory := by
  rw [mustBeDirectory]
  rcases t.node? r with _ | _ | ⟨bytes, x⟩ <;> simp

namespace KeepsDirectories

theorem enter (h : t.KeepsDirectories t') {c : Path.Component}
    (henter : t.enter r c = .ok r') : t'.enter r c = .ok r' := by
  unfold FileTree.enter at henter ⊢
  rcases hmust : t.mustBeDirectory r with fault | _ <;> rw [hmust] at henter
  · cases henter
  · rw [mustBeDirectory_iff.mpr (h r (mustBeDirectory_iff.mp hmust))]
    exact henter

theorem enters (h : t.KeepsDirectories t') {cs : List Path.Component} {r : Route}
    (henter : cs.foldlM t.enter r = .ok r') : cs.foldlM t'.enter r = .ok r' := by
  induction cs generalizing r with
  | nil => exact henter
  | cons c cs ih =>
      rw [List.foldlM_cons] at henter ⊢
      rcases hc : t.enter r c with fault | q <;> rw [hc] at henter
      · cases henter
      · rw [h.enter hc]
        exact ih henter

/-- A path that leads somewhere still does so. -/
theorem route (h : t.KeepsDirectories t') (hroute : t.route path = .ok r) :
    t'.route path = .ok r := by
  unfold FileTree.route at hroute ⊢
  split_ifs at hroute with hzero hempty hlong
  rw [if_neg hzero, if_neg hempty, if_neg hlong]
  exact h.enters hroute

end KeepsDirectories

variable {bytes bytes' : ByteArray} {x : Bool}

theorem find_node (hroute : t.route path = .ok r) (hnode : t.node? r = some n) :
    t.find path =
      if endsInSlash path && !n.isDirectory then .error .notDirectory else .ok (r, n) := by
  simp only [find, hroute, hnode]

theorem find_none (hroute : t.route path = .ok r) (hnode : t.node? r = none) :
    t.find path = .error .missing := by
  simp only [find, hroute, hnode]

theorem find_file_iff : t.find path = .ok (r, .file bytes x) ↔
    t.route path = .ok r ∧ t.node? r = some (.file bytes x) ∧ endsInSlash path = false := by
  refine ⟨fun h => ?_, ?_⟩
  · rcases hroute : t.route path with fault | q
    · unfold find at h
      rw [hroute] at h
      cases h
    rcases hnode : t.node? q with _ | m
    · rw [find_none hroute hnode] at h
      cases h
    rw [find_node hroute hnode] at h
    split_ifs at h with hslash
    cases h
    exact ⟨rfl, hnode, by simpa [Node.isDirectory] using hslash⟩
  · rintro ⟨hroute, hnode, hslash⟩
    rw [find_node hroute hnode, hslash]
    rfl

theorem Extends.isThere (h : t.Extends t') (hthere : t.isThere path = true) :
    t'.isThere path = true := by
  rw [FileTree.isThere] at hthere ⊢
  rcases hroute : t.route path with fault | r
  · rw [find, hroute] at hthere
    cases hthere
  rcases hnode : t.node? r with _ | n
  · rw [find_none hroute hnode] at hthere
    cases hthere
  rw [find_node (h.keepsDirectories.route hroute) (h r n hnode)]
  rwa [find_node hroute hnode] at hthere

/-- A file is found where it was, if the directories are there and so is the file. -/
theorem find_file_of (hkeeps : t.KeepsDirectories t') (h : t.find path = .ok (r, .file bytes x))
    (hnode : t'.node? r = some (.file bytes' x)) : t'.find path = .ok (r, .file bytes' x) := by
  obtain ⟨hroute, -, hslash⟩ := find_file_iff.mp h
  exact find_file_iff.mpr ⟨hkeeps.route hroute, hnode, hslash⟩

/-! ### Appending -/

/-- A file that is written again is no directory before or after. -/
theorem keepsDirectories_put (h : t.node? r ≠ some .directory) (n : Node) :
    t.KeepsDirectories (t.put r n) := by
  intro r' hr'
  rw [node?_put (ne_root_of_node? h), if_neg, hr']
  rintro rfl
  exact h hr'

/-- What is appended goes to the end of the file that is there. -/
theorem append_file (h : t.find path = .ok (r, .file bytes x)) (more : ByteArray) :
    t.append path more = .ok (t.put r (.file (bytes ++ more) x)) ∧
      (t.put r (.file (bytes ++ more) x)).find path = .ok (r, .file (bytes ++ more) x) := by
  obtain ⟨hroute, hnode, hslash⟩ := find_file_iff.mp h
  have hfile : t.node? r ≠ some .directory := by simp [hnode]
  refine ⟨?_, find_file_of (keepsDirectories_put hfile _) h ?_⟩
  · rw [append, writable, hroute]
    simp [hnode, hslash]
  · rw [node?_put (ne_root_of_node? hfile), if_pos rfl]

/-- What can be appended goes to a file that is there, or to a new one where nothing is found. -/
theorem append_cases {first : ByteArray} (h : t.append path first = .ok t') :
    (∃ r bytes x, t.find path = .ok (r, .file bytes x)) ∨ t.isThere path = false ∧
      ∃ r, ∀ more, t.append path more = .ok (t.put r (.file more false)) ∧
        (t.put r (.file more false)).find path = .ok (r, .file more false) := by
  unfold append writable at h
  rcases hroute : t.route path with fault | r <;> rw [hroute] at h
  · cases h
  simp only at h
  rcases hnode : t.node? r with _ | _ | ⟨bytes, x⟩ <;> rw [hnode] at h
  · rcases hslash : endsInSlash path <;> rw [hslash] at h
    · refine .inr ⟨by rw [isThere, find_none hroute hnode], r, fun more => ⟨?_, ?_⟩⟩
      · unfold append writable
        rw [hroute]
        simp [hnode, hslash]
      · refine find_file_iff.mpr ⟨?_, ?_, hslash⟩
        · exact (extends_put hnode _).keepsDirectories.route hroute
        · rw [node?_put (ne_root_of_none hnode), if_pos rfl]
    · cases h
  · cases h
  · rcases hslash : endsInSlash path <;> rw [hslash] at h
    · exact .inl ⟨r, bytes, x, find_file_iff.mpr ⟨hroute, hnode, hslash⟩⟩
    · cases h

/-- It makes no difference whether two texts are appended at once. -/
theorem append_append {first second : ByteArray} (h : t.append path first = .ok t') :
    t'.append path second = t.append path (first ++ second) := by
  rcases append_cases h with ⟨r, bytes, x, hfind⟩ | ⟨-, r, hnew⟩
  · obtain ⟨hfirst, hfound⟩ := append_file hfind first
    rw [h] at hfirst
    cases hfirst
    rw [(append_file hfound second).1, (append_file hfind _).1, put_put, ByteArray.append_assoc]
  · obtain ⟨hfirst, hfound⟩ := hnew first
    rw [h] at hfirst
    cases hfirst
    rw [(append_file hfound second).1, (hnew _).1, put_put]

/-- What can be appended can be appended after nothing was. -/
theorem append_empty {more : ByteArray} (h : t.append path more = .ok t') :
    ∃ t₁, t.append path .empty = .ok t₁ ∧ t₁.append path more = .ok t' := by
  have hopen : ∃ t₁, t.append path .empty = .ok t₁ := by
    rcases append_cases h with ⟨r, bytes, x, hfind⟩ | ⟨-, r, hnew⟩
    · exact ⟨_, (append_file hfind .empty).1⟩
    · exact ⟨_, (hnew .empty).1⟩
  obtain ⟨t₁, hfirst⟩ := hopen
  refine ⟨t₁, hfirst, ?_⟩
  rw [append_append hfirst, ByteArray.empty_append]
  exact h

/-! ### New directories -/

theorem extends_ensureDirectory (t : FileTree) (path : String) :
    t.Extends (t.ensureDirectory path).2 := by
  rw [ensureDirectory]
  rcases hmade : t.createDirectory path with fault | made
  · cases fault <;> exact .refl t
  · unfold createDirectory at hmade
    rcases hroute : t.route path with fault | r <;> rw [hroute] at hmade
    · cases hmade
    · simp only at hmade
      split_ifs at hmade with hsome
      cases hmade
      exact extends_put (Option.not_isSome_iff_eq_none.mp hsome) .directory

theorem extends_createAlong (t : FileTree) (paths : List String) :
    t.Extends (t.createAlong paths).2 := by
  induction paths with
  | nil => exact .refl t
  | cons path above ih =>
      have hpath := extends_ensureDirectory t path
      rw [createAlong]
      split
      · rcases habove : t.createAlong above with ⟨fault | _, made⟩ <;> rw [habove] at ih
        · exact ih
        · exact ih.trans (extends_ensureDirectory made path)
      · exact hpath

end FileTree

namespace Machine

variable {m m' : Machine} {path text more : String}

/-- The file at this path holds this text. -/
def Holds (m : Machine) (path text : String) : Prop :=
  ∃ r x, m.files.find (m.absolute path) = .ok (r, .file text.toUTF8 x)

theorem Holds.isThere (h : m.Holds path text) : Machine.isThere path m = (true, m) := by
  obtain ⟨r, x, hfind⟩ := h
  show ((m.files.isThere (m.absolute path)), m) = _
  rw [FileTree.isThere, hfind]

theorem Holds.read (h : m.Holds path text) : Machine.read path m = (.ok text.toUTF8, m) := by
  obtain ⟨r, x, hfind⟩ := h
  show ((m.files.read (m.absolute path)).mapError _, m) = _
  rw [FileTree.read, hfind]
  rfl

theorem toUTF8_append (text more : String) : (text ++ more).toUTF8 = text.toUTF8 ++ more.toUTF8 :=
  String.toByteArray_append

/-- Only the files change. -/
theorem appendText_ok_iff : Machine.appendText path text m = (.ok (), m') ↔
    ∃ files, m.files.append (m.absolute path) text.toUTF8 = .ok files ∧
      m' = { m with files := files } := by
  show Machine.change (·.append (m.absolute path) text.toUTF8) m = _ ↔ _
  unfold Machine.change
  rcases happend : m.files.append (m.absolute path) text.toUTF8 with fault | files
  · simp only [happend, reduceCtorEq, false_and, exists_false, iff_false]
    exact fun h => by cases h
  · simp only [happend, Except.ok.injEq, exists_eq_left']
    exact ⟨fun h => by cases h; rfl, fun h => by rw [h]⟩

/-- What is appended goes to the end of the file. -/
theorem Holds.append (h : m.Holds path text) (more : String) :
    ∃ m', Machine.appendText path more m = (.ok (), m') ∧ m'.Holds path (text ++ more) := by
  obtain ⟨r, x, hfind⟩ := h
  obtain ⟨happend, hfound⟩ := FileTree.append_file hfind more.toUTF8
  rw [← toUTF8_append] at hfound
  exact ⟨_, appendText_ok_iff.mpr ⟨_, happend, rfl⟩, r, x, hfound⟩

/-- Where nothing was, there is a file with what was appended. -/
theorem holds_of_new (hnone : (Machine.isThere path m).1 = false)
    (h : Machine.appendText path text m = (.ok (), m')) : m'.Holds path text := by
  obtain ⟨files, happend, rfl⟩ := appendText_ok_iff.mp h
  rcases FileTree.append_cases happend with ⟨r, bytes, x, hfind⟩ | ⟨-, r, hnew⟩
  · rw [show (Machine.isThere path m).1 = m.files.isThere (m.absolute path) from rfl,
      FileTree.isThere, hfind] at hnone
    cases hnone
  · obtain ⟨hfirst, hfound⟩ := hnew text.toUTF8
    rw [happend] at hfirst
    cases hfirst
    exact ⟨r, false, hfound⟩

/-- Two texts one after the other are as good as both at once. -/
theorem appendText_append {m'' : Machine} (h : Machine.appendText path text m = (.ok (), m'))
    (h' : Machine.appendText path more m' = (.ok (), m'')) :
    Machine.appendText path (text ++ more) m = (.ok (), m'') := by
  obtain ⟨files, happend, rfl⟩ := appendText_ok_iff.mp h
  obtain ⟨files', happend', rfl⟩ := appendText_ok_iff.mp h'
  refine appendText_ok_iff.mpr ⟨files', ?_, rfl⟩
  rw [toUTF8_append, ← FileTree.append_append happend]
  exact happend'

/-- What can be appended can be appended to a file that is opened first. -/
theorem appendText_empty (h : Machine.appendText path text m = (.ok (), m')) :
    ∃ m₁, Machine.appendText path "" m = (.ok (), m₁) ∧
      Machine.appendText path text m₁ = (.ok (), m') := by
  obtain ⟨files, happend, rfl⟩ := appendText_ok_iff.mp h
  obtain ⟨opened, hopen, hrest⟩ := FileTree.append_empty happend
  exact ⟨_, appendText_ok_iff.mpr ⟨opened, hopen, rfl⟩, appendText_ok_iff.mpr ⟨files, hrest, rfl⟩⟩

theorem createDirectories_extends (dir : String) (m : Machine) :
    m.files.Extends (Machine.createDirectories dir m).2.files ∧
      (Machine.createDirectories dir m).2.cwd = m.cwd := by
  by_cases hdir : dir.isEmpty = true
  · have hnone : Machine.createDirectories dir m = (.ok (), m) := by
      rw [Machine.createDirectories, if_pos hdir]
      rfl
    rw [hnone]
    exact ⟨.refl _, rfl⟩
  · have hmade : (Machine.createDirectories dir m).2 =
        { m with files := (m.files.createDirectories (m.absolute dir)).2 } := by
      rw [Machine.createDirectories, if_neg hdir]
      rfl
    rw [hmade]
    exact ⟨FileTree.extends_createAlong _ _, rfl⟩

/-- What a file holds stays in it while directories are made. -/
theorem Holds.extends (h : m.Holds path text) (hfiles : m.files.Extends m'.files)
    (hcwd : m'.cwd = m.cwd) : m'.Holds path text := by
  obtain ⟨r, x, hfind⟩ := h
  have habsolute : m'.absolute path = m.absolute path := by
    rw [Machine.absolute, Machine.absolute, hcwd]
  refine ⟨r, x, ?_⟩
  rw [habsolute]
  exact FileTree.find_file_of hfiles.keepsDirectories hfind
    (hfiles r _ (FileTree.find_file_iff.mp hfind).2.1)

end Machine

end Culprit
