import Culprit.Proofs.Partition.Accepted
import Culprit.Proofs.Text.Lines
import Culprit.Toolchain.Plan
import Mathlib.Data.List.Forall2
import Mathlib.Data.List.Perm.Lattice

/-!
A plan is its partition. Every unit has the jobs that its side asks for, in the order of the units,
and every job has an object of its own in the object directory: the name of a unit's object ends
with digits of the digest of its key, and the endings of the objects of a divided unit are none.
-/

namespace Culprit

/-! ### Names in a directory -/

namespace Path

/-- A name that is one component of a path. -/
structure Plain (name : String) : Prop where
  noSlash : '/' ∉ name.toList
  ne_empty : name ≠ ""
  ne_here : name ≠ "."
  ne_up : name ≠ ".."

variable {p q name : String} {ps : List String}

theorem pieces_of_noSlash (h : '/' ∉ name.toList) : pieces name = [name] := by
  rw [pieces, Text.splitAtChar_of_notMem h]
  simp

theorem Plain.inner_eq (h : Plain name) : inner [name] = [.name name] := by
  simp [inner, h.ne_empty, h.ne_here, h.ne_up]

theorem isAbsolute_of_noSlash (h : '/' ∉ name.toList) : isAbsolute name = false := by
  refine Bool.eq_false_iff.mpr fun habsolute => h ?_
  exact List.mem_of_head? (of_decide_eq_true habsolute)

theorem isEmpty_of_isAbsolute (h : isAbsolute p = true) : p.isEmpty = false := by
  refine Bool.eq_false_iff.mpr fun hempty => ?_
  rw [String.isEmpty_iff.mp hempty] at h
  cases h

theorem inner_append (ps qs : List String) : inner (ps ++ qs) = inner ps ++ inner qs := by
  simp [inner]

/-- Only the first piece counts for what it stands for at the start. -/
theorem components_of_pieces {first : String} (h : pieces p = first :: ps) :
    components p = (if first = "" then if ps.isEmpty then [] else [.root]
      else if first = "." then [.here] else inner [first]) ++ inner ps := by
  rw [components, h]
  split
  · next heq =>
      obtain ⟨rfl, rfl⟩ := List.cons.inj heq
      rw [if_pos rfl]
  · next heq =>
      obtain ⟨rfl, rfl⟩ := List.cons.inj heq
      rfl
  · next hroot hhere =>
      rw [if_neg fun hfirst => hroot ps (by rw [hfirst]),
        if_neg fun hfirst => hhere ps (by rw [hfirst]), ← inner_append]
      rfl

/-- One more piece; a final slash before it does not count. -/
theorem components_child (hps : ps ≠ []) (hq : pieces q = ps ++ [name])
    (hp : pieces p = ps ∧ ps ≠ [""] ∨ pieces p = ps ++ [""]) :
    components q = components p ++ inner [name] := by
  obtain ⟨first, rest, rfl⟩ := List.exists_cons_of_ne_nil hps
  rw [List.cons_append] at hq hp
  rw [components_of_pieces hq, inner_append, ← List.append_assoc]
  congr 1
  rcases hp with ⟨hp, hroot⟩ | hp
  · rw [components_of_pieces hp]
    congr 1
    by_cases hfirst : first = ""
    · have hrest : rest ≠ [] := fun hrest => hroot (by rw [hfirst, hrest])
      simp [hfirst, hrest]
    · rw [if_neg hfirst, if_neg hfirst]
  · rw [components_of_pieces hp, inner_append]
    simp [inner]

theorem pieces_slash (p name : String) : pieces (p ++ "/" ++ name) = pieces p ++ pieces name := by
  simp [pieces, Text.splitAtChar_append]

theorem pieces_ne_nil (p : String) : pieces p ≠ [] := by
  simp [pieces, Text.splitAtChar_ne_nil]

theorem eq_empty_of_pieces (h : pieces p = [""]) : p = "" := by
  have hlists := congrArg (List.map String.toList) h
  rw [pieces, List.map_map] at hlists
  have hsplit : Text.splitAtChar '/' p.toList = [[]] := by
    simpa [Function.comp_def] using hlists
  exact String.toList_eq_nil_iff.mp (Text.eq_nil_of_splitAtChar hsplit)

/-- A name stands right below the path that it is joined to. -/
theorem components_join_piece (p : String) (hslash : '/' ∉ name.toList) (hempty : name ≠ "")
    (hhere : name ≠ ".") : components (join p name) = components p ++ inner [name] := by
  have hname := pieces_of_noSlash hslash
  rw [join, isAbsolute_of_noSlash hslash, Bool.false_or]
  split_ifs with hnone hfinal
  · obtain rfl : p = "" := String.isEmpty_iff.mp hnone
    rw [components_of_pieces hname, if_neg hempty, if_neg hhere]
    exact List.append_nil (inner [name])
  · obtain ⟨ds, hp⟩ := List.getLast?_eq_some_iff.mp hfinal
    refine components_child (pieces_ne_nil (String.ofList ds)) ?_ (.inr ?_)
    · rw [← hname, ← pieces_slash (String.ofList ds) name]
      simp [pieces, hp]
    · simp [pieces, hp, Text.splitAtChar_append, Text.splitAtChar]
  · refine components_child (pieces_ne_nil p) ?_ (.inl ⟨rfl, fun heq => hnone ?_⟩)
    · rw [pieces_slash, hname]
    · rw [eq_empty_of_pieces heq]
      rfl

theorem components_join (p : String) (h : Plain name) :
    components (join p name) = components p ++ [.name name] := by
  rw [components_join_piece p h.noSlash h.ne_empty h.ne_here, h.inner_eq]

end Path

/-! ### Names of objects -/

theorem Text.Hex.exists_digit {c : Char} {width n : Nat} (h : c ∈ Text.Hex.ofNat width n) :
    ∃ k < 16, c = Text.Hex.digit k := by
  induction width generalizing n with
  | zero => cases h
  | succ width ih =>
      rcases List.mem_append.mp h with h | h
      · exact ih h
      · refine ⟨n % 16, Nat.mod_lt n (by decide), ?_⟩
        rw [List.mem_singleton.mp h, Text.Hex.digit, Text.Hex.digit, Nat.mod_mod]

theorem Text.Hex.digit_ne : ∀ k < 16, Text.Hex.digit k ≠ '_' ∧ Text.Hex.digit k ≠ '/' := by
  decide

namespace SourceUnit

/-- The key with every character that is no letter and no digit made an underscore. -/
def flat (u : SourceUnit) : List Char :=
  u.key.toList.map stemChar

/-- The first digits of the digest of the key. -/
def digits (u : SourceUnit) : List Char :=
  (Sha256.hexOfText u.key).toList.take 8

theorem toList_objectStem (u : SourceUnit) : u.objectStem.toList = u.flat ++ '_' :: u.digits := by
  simp [objectStem, flat, digits]

theorem length_digits (u : SourceUnit) : u.digits.length = 8 := by
  simp [digits, Sha256.hexOfText, Sha256.hex, Sha256.length_toHex]

theorem exists_digit {u : SourceUnit} {c : Char} (h : c ∈ u.digits) :
    ∃ k < 16, c = Text.Hex.digit k := by
  have hhex := List.mem_of_mem_take h
  simp only [Sha256.hexOfText, Sha256.hex, Sha256.Words.toHex, String.toList_ofList,
    List.mem_flatMap] at hhex
  obtain ⟨x, -, hx⟩ := hhex
  exact Text.Hex.exists_digit hx

theorem digit_of_mem_digits {u : SourceUnit} {c : Char} (h : c ∈ u.digits) :
    c ≠ '_' ∧ c ≠ '/' := by
  obtain ⟨k, hk, rfl⟩ := exists_digit h
  exact Text.Hex.digit_ne k hk

theorem stemChar_ne_slash (c : Char) : stemChar c ≠ '/' := by
  rw [stemChar]
  split
  · rintro rfl
    contradiction
  · decide

end SourceUnit

namespace Toolchain

namespace Plan

/-- The endings that tell the halves of a unit. -/
def halves : List String := ["_trusted", "_variant"]

theorem half_shape : ∀ suffix ∈ halves,
    suffix.toList.length = 8 ∧ '_' ∈ suffix.toList ∧ '/' ∉ suffix.toList := by
  decide

/-- No unit's name ends like a half of a unit: it ends with digits. -/
theorem stem_ne_half (u v : SourceUnit) {suffix : String} (h : suffix ∈ halves) :
    u.objectStem ≠ v.objectStem ++ suffix := by
  intro heq
  obtain ⟨hlength, hunderscore, -⟩ := half_shape suffix h
  have hlists := congrArg String.toList heq
  rw [String.toList_append, u.toList_objectStem, List.append_cons] at hlists
  have hends := (List.append_inj' hlists (u.length_digits.trans hlength.symm)).2
  exact (SourceUnit.digit_of_mem_digits (hends ▸ hunderscore)).1 rfl

theorem stem_inj {u v : SourceUnit} (h : u.objectStem = v.objectStem) :
    u.flat = v.flat ∧ u.digits = v.digits := by
  have hlists := congrArg String.toList h
  rw [u.toList_objectStem, v.toList_objectStem] at hlists
  have hends := List.append_inj' hlists
    (congrArg Nat.succ (u.length_digits.trans v.length_digits.symm))
  exact ⟨hends.1, (List.cons.inj hends.2).2⟩

/-- The endings of objects, without the extension. -/
def suffixes : List String := "" :: halves

/-- The name of an object tells its unit and its half. -/
theorem objectName_inj {u v : SourceUnit} {suffix suffix' : String} (h : suffix ∈ suffixes)
    (h' : suffix' ∈ suffixes)
    (heq : u.objectStem ++ suffix ++ ".o" = v.objectStem ++ suffix' ++ ".o") :
    suffix = suffix' ∧ u.flat = v.flat ∧ u.digits = v.digits := by
  have hstems : u.objectStem ++ suffix = v.objectStem ++ suffix' :=
    (String.append_left_inj ".o").mp heq
  rcases List.mem_cons.mp h with rfl | hhalf <;> rcases List.mem_cons.mp h' with rfl | hhalf'
  · rw [String.append_empty, String.append_empty] at hstems
    exact ⟨rfl, stem_inj hstems⟩
  · rw [String.append_empty] at hstems
    exact absurd hstems (stem_ne_half u v hhalf')
  · rw [String.append_empty] at hstems
    exact absurd hstems.symm (stem_ne_half v u hhalf)
  · have hlists := congrArg String.toList hstems
    rw [String.toList_append, String.toList_append] at hlists
    have hends := List.append_inj' hlists
      ((half_shape suffix hhalf).1.trans (half_shape suffix' hhalf').1.symm)
    exact ⟨String.toList_injective hends.2, stem_inj (String.toList_injective hends.1)⟩

theorem plain_objectName (u : SourceUnit) {suffix : String} (h : suffix ∈ suffixes) :
    Path.Plain (u.objectStem ++ suffix ++ ".o") := by
  have hsuffix : '/' ∉ suffix.toList := by
    rcases List.mem_cons.mp h with rfl | hhalf
    · simp
    · exact (half_shape suffix hhalf).2.2
  have hlength : 10 ≤ (u.objectStem ++ suffix ++ ".o").toList.length := by
    simp [u.toList_objectStem, u.length_digits]
    omega
  constructor
  case noSlash =>
    have hflat : '/' ∉ u.flat := by
      simp [SourceUnit.flat, SourceUnit.stemChar_ne_slash]
    have hdigits : '/' ∉ u.digits := fun hmem => (SourceUnit.digit_of_mem_digits hmem).2 rfl
    simp [u.toList_objectStem, hsuffix, hflat, hdigits]
  all_goals
    intro heq
    rw [heq] at hlength
    contradiction

theorem components_objectPath (objectDir : String) (u : SourceUnit) {suffix : String}
    (h : suffix ∈ suffixes) :
    Path.components (objectPath objectDir u suffix) =
      Path.components objectDir ++ [.name (u.objectStem ++ suffix ++ ".o")] :=
  Path.components_join objectDir (plain_objectName u h)

theorem objectPath_inj {objectDir : String} {u v : SourceUnit} {suffix suffix' : String}
    (h : suffix ∈ suffixes) (h' : suffix' ∈ suffixes)
    (heq : Path.components (objectPath objectDir u suffix) =
      Path.components (objectPath objectDir v suffix')) :
    suffix = suffix' ∧ u.flat = v.flat ∧ u.digits = v.digits := by
  rw [components_objectPath objectDir u h, components_objectPath objectDir v h'] at heq
  have hlast := List.singleton_inj.mp (List.append_cancel_left heq)
  exact objectName_inj h h' (Path.Component.name.inj hlast)

variable {p : Partition} {trusted variant : Flags} {objectDir : String}

/-- The paths of the objects. -/
def paths (jobs : List CompileJob) : List (List Path.Component) :=
  (jobs.map (·.object)).map Path.components

/-- The objects of one unit have different endings. -/
theorem exists_suffixes (p : Partition) (trusted variant : Flags) (objectDir : String)
    (u : SourceUnit) : ∃ ss : List String, ss.Sublist suffixes ∧
      (jobsOf p trusted variant objectDir u).map (·.object) = ss.map (objectPath objectDir u) := by
  rw [jobsOf]
  split
  · exact ⟨[""], by decide, by simp [unitJob, plainJob]⟩
  · split_ifs
    · rw [scopedJobs]
      split_ifs
      · exact ⟨["_trusted", "_variant"], by decide, by simp⟩
      · exact ⟨["_trusted"], by decide, by simp⟩
      · exact ⟨["_variant"], by decide, by simp⟩
      · exact ⟨[], by decide, by simp⟩
    · exact ⟨[""], by decide, by simp [plainJob]⟩

theorem exists_paths (p : Partition) (trusted variant : Flags) (objectDir : String)
    (u : SourceUnit) : ∃ ss : List String, ss.Sublist suffixes ∧
      paths (jobsOf p trusted variant objectDir u) =
        ss.map fun suffix => Path.components (objectPath objectDir u suffix) := by
  obtain ⟨ss, hss, hobjects⟩ := exists_suffixes p trusted variant objectDir u
  refine ⟨ss, hss, ?_⟩
  simp only [paths, hobjects, List.map_map, Function.comp_def]

theorem paths_plan (units : List SourceUnit) (p : Partition) (trusted variant : Flags)
    (objectDir : String) : paths (plan units p trusted variant objectDir) =
      units.flatMap fun u => paths (jobsOf p trusted variant objectDir u) := by
  rw [paths, plan, List.map_flatMap, List.map_flatMap]
  rfl

end Plan

open Plan

/-- Of two units with one flattened key, the digests of the keys begin differently unless the keys
are one. -/
def Apart (units : List SourceUnit) : Prop :=
  ∀ u ∈ units, ∀ v ∈ units, u.flat = v.flat → u.digits = v.digits → u.key = v.key

section Objects

variable {units : List SourceUnit}

theorem nodup_paths (hkeys : (units.map SourceUnit.key).Nodup) (hapart : Apart units)
    (p : Partition) (trusted variant : Flags) (objectDir : String) :
    (paths (plan units p trusted variant objectDir)).Nodup := by
  rw [paths_plan, List.nodup_flatMap]
  constructor
  · intro u _
    obtain ⟨ss, hss, hpaths⟩ := exists_paths p trusted variant objectDir u
    rw [hpaths]
    have hdistinct : ss.Nodup := List.Nodup.sublist hss (by decide)
    exact hdistinct.map_on fun s hs s' hs' heq =>
      (objectPath_inj (hss.subset hs) (hss.subset hs') heq).1
  · refine (List.pairwise_map.mp hkeys).imp_of_mem fun {u v} hu hv hne => ?_
    obtain ⟨ss, hss, hpaths⟩ := exists_paths p trusted variant objectDir u
    obtain ⟨ss', hss', hpaths'⟩ := exists_paths p trusted variant objectDir v
    show (paths (jobsOf p trusted variant objectDir u)).Disjoint
      (paths (jobsOf p trusted variant objectDir v))
    rw [hpaths, hpaths']
    intro path hpath hpath'
    obtain ⟨s, hs, rfl⟩ := List.mem_map.mp hpath
    obtain ⟨s', hs', heq⟩ := List.mem_map.mp hpath'
    obtain ⟨-, hflat, hdigits⟩ := objectPath_inj (hss'.subset hs') (hss.subset hs) heq
    exact hne (hapart u hu v hv hflat.symm hdigits.symm)

theorem exists_name {p : Partition} {trusted variant : Flags} {objectDir : String}
    {path : List Path.Component} (h : path ∈ paths (plan units p trusted variant objectDir)) :
    ∃ name, path = Path.components objectDir ++ [.name name] := by
  rw [paths_plan] at h
  obtain ⟨u, -, hpath⟩ := List.mem_flatMap.mp h
  obtain ⟨ss, hss, hpaths⟩ := exists_paths p trusted variant objectDir u
  rw [hpaths] at hpath
  obtain ⟨s, hs, rfl⟩ := List.mem_map.mp hpath
  exact ⟨_, components_objectPath objectDir u (hss.subset hs)⟩

end Objects

/-! ### The jobs of a unit -/

/-- The unit is compiled once, and its object is left as it is. -/
def Sole (unit : SourceUnit) (flags : Flags) (jobs : List CompileJob) : Prop :=
  ∃ job, jobs = [job] ∧ job.unit = unit ∧ job.flags = flags ∧ job.splice? = none

/-- One half of a divided unit. It is spliced if there is another half. -/
structure Half (p : Partition) (candidates owned : List String) (ownsData : Bool)
    (unit : SourceUnit) (flags : Flags) (job : CompileJob) : Prop where
  unit : job.unit = unit
  flags : job.flags = flags
  spliced : job.splice?.isSome = true ↔ p.trusted ≠ [] ∧ p.variant ≠ []
  owns : ∀ s ∈ job.splice?, s.owned = owned ∧ s.ownsData = ownsData ∧
    s.candidates.Perm candidates

/-- The unit is divided. A half that has no symbols is left out, but not both. -/
def Halved (p : Partition) (candidates : List String) (trusted variant : Flags)
    (unit : SourceUnit) (jobs : List CompileJob) : Prop :=
  ∃ t? v? : Option CompileJob, jobs = t?.toList ++ v?.toList ∧
    (t?.isSome = true ↔ ¬(p.trusted = [] ∧ p.variant ≠ [])) ∧
    (v?.isSome = true ↔ p.variant ≠ []) ∧
    (∀ job ∈ t?, Half p candidates p.trusted true unit trusted job) ∧
    ∀ job ∈ v?, Half p candidates p.variant false unit variant job

/-- The jobs that a partition asks of a unit. -/
def Serves (p : Partition) (candidates : List String) (trusted variant : Flags)
    (unit : SourceUnit) (jobs : List CompileJob) : Prop :=
  match p.scope with
  | .units => Sole unit (if unit.key ∈ p.variant then variant else trusted) jobs
  | .symbols divided =>
    if unit.key = (SourceUnit.mk divided).key then Halved p candidates trusted variant unit jobs
    else Sole unit trusted jobs

/-- The two sides of a partition share the candidates. -/
def Divides (p : Partition) (candidates : List String) : Prop :=
  p.trusted.Disjoint p.variant ∧ (p.trusted ++ p.variant).Perm candidates

theorem divides_of_made {scope : Scope} {p : Partition} {candidates : List String}
    (hdistinct : candidates.Nodup)
    (hmade : p = .allTrusted scope candidates ∨
      ∃ variant, Partition.of scope candidates variant = .ok p) :
    Divides p candidates := by
  rcases hmade with rfl | ⟨variant, hof⟩
  · refine ⟨List.disjoint_nil_right _, ?_⟩
    rw [Partition.allTrusted, List.append_nil]
  · refine ⟨Partition.disjoint_of_ok hof, ?_⟩
    have hapart := Partition.disjoint_of_ok hof
    have hvariant := Partition.nodup_of_ok hof
    have hsub := Partition.subset_of_ok hof
    obtain rfl := Partition.eq_of_ok hof
    refine (List.perm_ext_iff_of_nodup (List.Nodup.append (hdistinct.filter _) hvariant hapart)
      hdistinct).mpr fun key => ?_
    simp only [List.mem_append, List.mem_filter, decide_eq_true_eq]
    by_cases hkey : key ∈ variant
    · simp [hkey, hsub hkey]
    · simp [hkey]

section Serves

variable {p : Partition} {candidates : List String}

theorem isSome_splice?_iff (owned : List String) (ownsData : Bool) :
    (splice? p owned ownsData).isSome = true ↔ p.trusted ≠ [] ∧ p.variant ≠ [] := by
  rw [splice?]
  split_ifs with hboth <;> simpa [contested] using hboth

theorem half_of_divides (hdivides : Divides p candidates) (owned : List String) (ownsData : Bool)
    (unit : SourceUnit) (flags : Flags) (object : String) (pic : Bool) :
    Half p candidates owned ownsData unit flags
      ⟨unit, flags, object, pic, splice? p owned ownsData⟩ where
  unit := rfl
  flags := rfl
  spliced := isSome_splice?_iff owned ownsData
  owns s hs := by
    obtain ⟨-, hs⟩ := Option.ite_none_right_eq_some.mp hs
    obtain rfl := Option.some.inj hs
    exact ⟨rfl, rfl, hdivides.2⟩

/-- The first half of a divided unit. -/
def trustedHalf? (p : Partition) (flags : Flags) (objectDir : String) (unit : SourceUnit) :
    Option CompileJob :=
  if p.trusted = [] ∧ p.variant ≠ [] then none
  else some ⟨unit, flags, objectPath objectDir unit "_trusted", true, splice? p p.trusted true⟩

/-- The second half of a divided unit. -/
def variantHalf? (p : Partition) (flags : Flags) (objectDir : String) (unit : SourceUnit) :
    Option CompileJob :=
  if p.variant = [] then none
  else some ⟨unit, flags, objectPath objectDir unit "_variant", true, splice? p p.variant false⟩

theorem scopedJobs_eq (p : Partition) (trusted variant : Flags) (objectDir : String)
    (unit : SourceUnit) : scopedJobs p trusted variant objectDir unit =
      (trustedHalf? p trusted objectDir unit).toList ++
        (variantHalf? p variant objectDir unit).toList := by
  by_cases htrusted : p.trusted = [] <;> by_cases hvariant : p.variant = [] <;>
    simp [scopedJobs, trustedHalf?, variantHalf?, htrusted, hvariant]

theorem halved_scopedJobs (hdivides : Divides p candidates) (trusted variant : Flags)
    (objectDir : String) (unit : SourceUnit) :
    Halved p candidates trusted variant unit (scopedJobs p trusted variant objectDir unit) := by
  refine ⟨_, _, scopedJobs_eq p trusted variant objectDir unit, ?_, ?_, fun job hjob => ?_,
    fun job hjob => ?_⟩
  · rw [trustedHalf?]
    split_ifs with hnone <;> simp [hnone]
  · rw [variantHalf?]
    split_ifs with hnone <;> simp [hnone]
  · obtain ⟨-, hjob⟩ := Option.ite_none_left_eq_some.mp hjob
    obtain rfl := Option.some.inj hjob
    exact half_of_divides hdivides ..
  · obtain ⟨-, hjob⟩ := Option.ite_none_left_eq_some.mp hjob
    obtain rfl := Option.some.inj hjob
    exact half_of_divides hdivides ..

theorem serves_jobsOf (hdivides : Divides p candidates) (trusted variant : Flags)
    (objectDir : String) (unit : SourceUnit) :
    Serves p candidates trusted variant unit (jobsOf p trusted variant objectDir unit) := by
  rw [Serves, jobsOf]
  cases hscope : p.scope with
  | units => exact ⟨_, rfl, rfl, by simp [unitJob, plainJob, Partition.isVariant], rfl⟩
  | symbols divided =>
      by_cases hkey : unit.key = (SourceUnit.mk divided).key
      · simp only [if_pos hkey, if_pos hkey.symm]
        exact halved_scopedJobs hdivides ..
      · simp only [if_neg hkey, if_neg (Ne.symm hkey)]
        exact ⟨_, rfl, rfl, rfl, rfl⟩

end Serves

/-- The jobs are those that the partition asks of the units, one unit after the other, and every
object has a place of its own in the object directory. -/
structure Realises (units : List SourceUnit) (p : Partition) (candidates : List String)
    (trusted variant : Flags) (objectDir : String) (jobs : List CompileJob) : Prop where
  divides : Divides p candidates
  distinct : (paths jobs).Nodup
  children : ∀ path ∈ paths jobs, ∃ name, path = Path.components objectDir ++ [.name name]
  serves : ∃ parts : List (List CompileJob), jobs = parts.flatten ∧
    List.Forall₂ (Serves p candidates trusted variant) units parts

theorem realises_plan {units : List SourceUnit} {p : Partition} {candidates : List String}
    (hkeys : (units.map SourceUnit.key).Nodup) (hapart : Apart units)
    (hdivides : Divides p candidates) (trusted variant : Flags) (objectDir : String) :
    Realises units p candidates trusted variant objectDir
      (plan units p trusted variant objectDir) where
  divides := hdivides
  distinct := nodup_paths hkeys hapart p trusted variant objectDir
  children _ := exists_name
  serves := by
    refine ⟨units.map (jobsOf p trusted variant objectDir), List.flatMap_def .., ?_⟩
    rw [List.forall₂_map_right_iff, List.forall₂_same]
    exact fun unit _ => serves_jobsOf hdivides trusted variant objectDir unit

end Toolchain

end Culprit
