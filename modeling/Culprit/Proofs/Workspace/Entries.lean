import Culprit.Proofs.Machine.Appending
import Culprit.Proofs.Toolchain.Planning

/-!
Entries of a directory. A plain name that is joined to a path leads one step further than the path,
wherever the path leads. So whoever makes, writes or removes something at the joined path leaves
everything alone that is not this entry of the directory or below it.
-/

namespace Culprit

/-! ### One step further -/

namespace Path

variable {dir name : String}

theorem exists_rest_join (h : Plain name) (hdir : dir ≠ "") :
    ∃ rest, join dir name = dir ++ rest := by
  rw [join, isAbsolute_of_noSlash h.noSlash, Bool.false_or, if_neg (by simpa using hdir)]
  split_ifs
  · exact ⟨name, rfl⟩
  · exact ⟨"/" ++ name, String.append_assoc ..⟩

theorem isAbsolute_join_plain (dir : String) (h : Plain name) :
    isAbsolute (join dir name) = isAbsolute dir := by
  by_cases hdir : dir = ""
  · subst hdir
    have hjoin : join "" name = name := if_pos (by simp)
    rw [hjoin, isAbsolute_of_noSlash h.noSlash]
    rfl
  · obtain ⟨rest, hjoin⟩ := exists_rest_join h hdir
    have hchars : dir.toList ≠ [] := by simpa using hdir
    rw [hjoin, isAbsolute, isAbsolute, String.toList_append, List.head?_append_of_ne_nil _ hchars]

/-- The pieces that are not empty, and behind them the name. -/
theorem filter_pieces_join (dir : String) (h : Plain name) :
    (pieces (join dir name)).filter (· ≠ "") = (pieces dir).filter (· ≠ "") ++ [name] := by
  have hname := pieces_of_noSlash h.noSlash
  have hkept : [name].filter (· ≠ "") = [name] := by simp [h.ne_empty]
  rw [join, isAbsolute_of_noSlash h.noSlash, Bool.false_or]
  split_ifs with hnone hfinal
  · obtain rfl : dir = "" := String.isEmpty_iff.mp hnone
    rw [hname, hkept]
    rfl
  · obtain ⟨ds, hdir⟩ := List.getLast?_eq_some_iff.mp hfinal
    have hpieces : pieces dir = pieces (String.ofList ds) ++ [""] := by
      simp [pieces, hdir, Text.splitAtChar_append, Text.splitAtChar]
    have hjoined : pieces (dir ++ name) = pieces (String.ofList ds) ++ [name] := by
      rw [← hname, ← pieces_slash (String.ofList ds) name]
      simp [pieces, hdir]
    rw [hjoined, hpieces, List.filter_append, List.filter_append, hkept]
    simp
  · rw [pieces_slash, hname, List.filter_append, hkept]

theorem steps_join (dir : String) (h : Plain name) :
    steps (join dir name) = steps dir ++ [.name name] := by
  rw [steps, steps, isAbsolute_join_plain dir h, filter_pieces_join dir h, List.map_append,
    List.append_assoc]
  simp [h.ne_here, h.ne_up]

theorem join_ne_empty (dir : String) (h : Plain name) : join dir name ≠ "" := by
  intro heq
  have hcomponents := components_join dir h
  rw [heq, show components "" = [] from rfl] at hcomponents
  simp at hcomponents

end Path

namespace FileTree

variable {t t' : FileTree} {r r' : Route} {dir name path : String}

theorem enter_name (h : t.enter r (.name name) = .ok r') : r' = r ++ [name] := by
  rw [enter] at h
  split at h
  · cases h
  · split_ifs at h
    exact (Except.ok.inj h).symm

/-- A path that leads somewhere has no zero in it, is not empty and is not too long. -/
theorem route_eq_ok_iff : t.route path = .ok r ↔
    '\x00' ∉ path.toList ∧ path ≠ "" ∧ path.utf8ByteSize < pathLimit ∧
      (Path.steps path).foldlM t.enter [] = .ok r := by
  rw [route]
  split_ifs with hzero hempty hlong
  · simp [List.contains_iff_mem.mp hzero]
  · simp [String.isEmpty_iff.mp hempty]
  · simp [hlong]
  · simp_all

/-- What is joined to a path is found where the path leads. -/
theorem route_join (h : Path.Plain name) (hdir : dir ≠ "")
    (hroute : t.route (Path.join dir name) = .ok r) :
    ∃ r₀, t.route dir = .ok r₀ ∧ r = r₀ ++ [name] := by
  obtain ⟨hzero, -, hshort, hsteps⟩ := route_eq_ok_iff.mp hroute
  obtain ⟨rest, hjoin⟩ := Path.exists_rest_join h hdir
  rw [hjoin, String.toList_append, List.mem_append, not_or] at hzero
  rw [hjoin, String.utf8ByteSize_append] at hshort
  rw [Path.steps_join dir h, List.foldlM_append] at hsteps
  rcases hfold : (Path.steps dir).foldlM t.enter [] with fault | r₀ <;> rw [hfold] at hsteps
  · cases hsteps
  · have hentered : (t.enter r₀ (.name name) >>= pure) = .ok r := hsteps
    rw [bind_pure] at hentered
    exact ⟨r₀, route_eq_ok_iff.mpr ⟨hzero.1, hdir, by omega, hfold⟩, enter_name hentered⟩

/-! ### Changes at a path -/

/-- The second tree is the first one but for what is at `r` or below it. -/
def SameOutside (r : Route) (t t' : FileTree) : Prop :=
  ∀ r', ¬r <+: r' → t'.node? r' = t.node? r'

theorem sameOutside_refl (r : Route) (t : FileTree) : SameOutside r t t :=
  fun _ _ => rfl

theorem sameOutside_put (r : Route) (t : FileTree) (n : Node) : SameOutside r t (t.put r n) := by
  intro r' hr'
  have hroot : r ≠ [] := by
    rintro rfl
    exact hr' (List.nil_prefix)
  rw [node?_put hroot, if_neg]
  rintro rfl
  exact hr' (List.prefix_refl _)

theorem sameOutside_filter (t : FileTree) {keeps : Route × Node → Bool}
    (h : ∀ p, keeps p = false → r <+: p.1) : SameOutside r t ⟨t.nodes.filter keeps⟩ := by
  intro r' hr'
  have hlookup (nodes : List (Route × Node)) :
      (nodes.filter keeps).lookup r' = nodes.lookup r' := by
    induction nodes with
    | nil => rfl
    | cons p nodes ih =>
        cases hkeeps : keeps p with
        | true => rw [List.filter_cons_of_pos hkeeps, List.lookup_cons, List.lookup_cons, ih]
        | false =>
            have hother : (r' == p.1) = false :=
              beq_eq_false_iff_ne.mpr fun heq => hr' (heq ▸ h p hkeeps)
            rw [List.filter_cons_of_neg (by simp [hkeeps]), ih, List.lookup_cons, hother]
  rw [node?, node?, hlookup]

/-- A change of the tree at a path. -/
inductive Edit (t : FileTree) (path : String) : FileTree → Prop
  | make {t' : FileTree} : t.createDirectory path = .ok t' → Edit t path t'
  | write {t' : FileTree} (bytes : ByteArray) : t.write path bytes = .ok t' → Edit t path t'
  | append {t' : FileTree} (bytes : ByteArray) : t.append path bytes = .ok t' → Edit t path t'
  | mark {t' : FileTree} (executable : Bool) :
      t.setExecutable path executable = .ok t' → Edit t path t'
  | clear {t' : FileTree} : t.removeDirectory path = .ok t' → Edit t path t'
  | remove {t' : FileTree} : t.removeFile path = .ok t' → Edit t path t'

theorem route_of_find {n : Node} (h : t.find path = .ok (r, n)) : t.route path = .ok r := by
  rw [find] at h
  split at h
  · cases h
  · next hroute =>
      split at h
      · cases h
      · split_ifs at h
        rw [hroute, (Prod.mk.inj (Except.ok.inj h)).1]

theorem route_of_writable {old : Option Node} (h : t.writable path = .ok (r, old)) :
    t.route path = .ok r := by
  rw [writable] at h
  split at h
  · cases h
  · next hroute =>
      split at h
      · cases h
      all_goals
        split_ifs at h
        rw [hroute, (Prod.mk.inj (Except.ok.inj h)).1]

/-- A change happens where the path leads. -/
theorem Edit.exists_route (h : t.Edit path t') :
    ∃ r, t.route path = .ok r ∧ SameOutside r t t' := by
  cases h with
  | make h =>
      rw [createDirectory] at h
      split at h
      · cases h
      · next r hroute =>
          split_ifs at h
          obtain rfl := Except.ok.inj h
          exact ⟨r, hroute, sameOutside_put r t _⟩
  | write bytes h =>
      rw [FileTree.write] at h
      split at h
      · cases h
      all_goals
        next r _ _ hwritable =>
          obtain rfl := Except.ok.inj h
          exact ⟨r, route_of_writable hwritable, sameOutside_put r t _⟩
  | append bytes h =>
      rw [FileTree.append] at h
      split at h
      · cases h
      all_goals
        next r _ _ hwritable =>
          obtain rfl := Except.ok.inj h
          exact ⟨r, route_of_writable hwritable, sameOutside_put r t _⟩
  | mark executable h =>
      rw [setExecutable] at h
      split at h
      · cases h
      · next r hfind =>
          obtain rfl := Except.ok.inj h
          exact ⟨r, route_of_find hfind, sameOutside_refl r t⟩
      · next r _ _ hfind =>
          obtain rfl := Except.ok.inj h
          exact ⟨r, route_of_find hfind, sameOutside_put r t _⟩
  | clear h =>
      rw [removeDirectory] at h
      split at h
      · cases h
      · cases h
      · next r hfind =>
          obtain rfl := Except.ok.inj h
          refine ⟨r, route_of_find hfind, sameOutside_filter t fun p hp => ?_⟩
          simpa using hp
  | remove h =>
      rw [removeFile] at h
      split at h
      · cases h
      · cases h
      · next r _ _ hfind =>
          obtain rfl := Except.ok.inj h
          refine ⟨r, route_of_find hfind, sameOutside_filter t fun p hp => ?_⟩
          simp_all

end FileTree

namespace Path

/-- `path` is that of the entry `name` of the directory `dir`. It reads so, and a change of files at
`path` changes nothing but this entry and what is below it. -/
structure Child (dir name path : String) : Prop where
  absolute : isAbsolute path = isAbsolute dir
  components : components path = components dir ++ [.name name]
  edits {t t' : FileTree} : t.Edit path t' →
    ∃ r, t.route dir = .ok r ∧ FileTree.SameOutside (r ++ [name]) t t'

theorem child_join {dir name : String} (h : Plain name) (hdir : dir ≠ "") :
    Child dir name (join dir name) where
  absolute := isAbsolute_join_plain dir h
  components := components_join dir h
  edits hedit := by
    obtain ⟨r, hroute, hsame⟩ := hedit.exists_route
    obtain ⟨r₀, hdirectory, rfl⟩ := FileTree.route_join h hdir hroute
    exact ⟨r₀, hdirectory, hsame⟩

end Path

end Culprit
