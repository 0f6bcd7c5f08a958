import Culprit.Proofs.Toolchain.Splicing

/-!
What the linker makes of a plan. Of the objects that define a global, the first one in link order
with a strong definition supplies it, and without a strong definition the first one at all.

In a build that divides the symbols of a unit, everything that is not on the variant side is
supplied as in the build with trusted flags only: the trusted object of the unit is linked before
the variant one, defines the same names and keeps the strong definitions of the data. This needs
that object to be there. With every symbol on the variant side it is not, and the data moves along.
-/

namespace Culprit.Toolchain

open Splice

/-- An object as the linker sees it. A definition that is not strong is a weak one. -/
structure Linked where
  flags : Flags
  definitions : List Definition
deriving DecidableEq, Repr

namespace Linked

def names (o : Linked) : List String :=
  o.definitions.map (·.name)

def strong? (name : String) (o : Linked) : Option Flags :=
  if name ∈ strongNames o.definitions then some o.flags else none

def any? (name : String) (o : Linked) : Option Flags :=
  if name ∈ o.names then some o.flags else none

end Linked

/-- The flags of the object that supplies a global. -/
def supplier? (objects : List Linked) (name : String) : Option Flags :=
  (objects.findSome? (Linked.strong? name)).or (objects.findSome? (Linked.any? name))

/-- The object of a job; `listing` tells what compiling a unit defines. Splicing carries out the
commands that its arguments ask for (`Splice.args_eq`). -/
def CompileJob.linked (listing : SourceUnit → Flags → List Global) (job : CompileJob) : Linked where
  flags := job.flags
  definitions :=
    match job.splice? with
    | none => (listing job.unit job.flags).map Global.definition
    | some s => s.spliced (listing job.unit job.flags)

/-- The objects of a build in link order. -/
def linkedObjects (listing : SourceUnit → Flags → List Global) (units : List SourceUnit)
    (p : Partition) (trusted variant : Flags) (objectDir : String) : List Linked :=
  (plan units p trusted variant objectDir).map (CompileJob.linked listing)

/-- A unit compiled once and left as it is. -/
def plainObject (listing : SourceUnit → Flags → List Global) (flags : Flags) (unit : SourceUnit) :
    Linked :=
  ⟨flags, (listing unit flags).map Global.definition⟩

/-! ### Who supplies a global -/

variable {objects xs ys : List Linked} {o v : Linked} {flags : Flags} {name : String}

theorem names_of_strongNames (h : name ∈ strongNames o.definitions) : name ∈ o.names :=
  (List.filter_sublist.map _).subset h

theorem Linked.alike_of_iff (flags : Flags) {ds ds' : List Definition}
    (hstrong : name ∈ strongNames ds ↔ name ∈ strongNames ds')
    (hnames : name ∈ ds.map (·.name) ↔ name ∈ ds'.map (·.name)) :
    Linked.strong? name ⟨flags, ds⟩ = Linked.strong? name ⟨flags, ds'⟩ ∧
      Linked.any? name ⟨flags, ds⟩ = Linked.any? name ⟨flags, ds'⟩ :=
  ⟨if_congr hstrong rfl rfl, if_congr hnames rfl rfl⟩

theorem findSome?_flags (P : Linked → Prop) [DecidablePred P]
    (h : ∀ o ∈ objects, o.flags = flags) :
    (objects.findSome? fun o => if P o then some o.flags else none) =
      if ∃ o ∈ objects, P o then some flags else none := by
  induction objects with
  | nil => simp
  | cons o os ih =>
      have hos := ih fun o' ho' => h o' (List.mem_cons_of_mem _ ho')
      have ho : o.flags = flags := h o List.mem_cons_self
      rw [List.findSome?_cons, hos]
      by_cases hP : P o <;> simp [hP, ho]

/-- Objects of one flag set supply whatever they define. -/
theorem supplier?_uniform (name : String) (h : ∀ o ∈ objects, o.flags = flags) :
    supplier? objects name = if ∃ o ∈ objects, name ∈ o.names then some flags else none := by
  have hstrong := findSome?_flags (fun o => name ∈ strongNames o.definitions) h
  have hany := findSome?_flags (fun o => name ∈ o.names) h
  refine (congrArg₂ Option.or hstrong hany).trans ?_
  by_cases hd : ∃ o ∈ objects, name ∈ strongNames o.definitions
  · obtain ⟨o, ho, hn⟩ := hd
    rw [if_pos ⟨o, ho, hn⟩, if_pos ⟨o, ho, names_of_strongNames hn⟩, Option.some_or]
  · rw [if_neg hd, Option.none_or]

/-- Among objects of one flag set it does not matter what else an object defines. -/
theorem supplier?_swap {t t' : Linked} (ht : t.flags = flags) (ht' : t'.flags = flags)
    (hxs : ∀ o ∈ xs, o.flags = flags) (hys : ∀ o ∈ ys, o.flags = flags)
    (h : name ∈ t.names ↔ name ∈ t'.names) :
    supplier? (xs ++ t :: ys) name = supplier? (xs ++ t' :: ys) name := by
  have hall {o : Linked} (ho : o.flags = flags) : ∀ o' ∈ xs ++ o :: ys, o'.flags = flags :=
    List.forall_mem_append.mpr ⟨hxs, List.forall_mem_cons.mpr ⟨ho, hys⟩⟩
  rw [supplier?_uniform name (hall ht), supplier?_uniform name (hall ht')]
  simp only [List.mem_append, List.mem_cons, or_and_right, exists_or, exists_eq_left, h]

/-- An object is out of the race for a name that it does not define strongly and that an earlier
object defines, if it defines it at all. -/
theorem supplier?_skip (hweak : name ∉ strongNames v.definitions)
    (hearlier : name ∈ v.names → ∃ o ∈ xs, name ∈ o.names) :
    supplier? (xs ++ v :: ys) name = supplier? (xs ++ ys) name := by
  have hstrong : Linked.strong? name v = none := if_neg hweak
  simp only [supplier?, List.findSome?_append, List.findSome?_cons, hstrong]
  by_cases hdef : name ∈ v.names
  · obtain ⟨o, ho, hn⟩ := hearlier hdef
    have hfound : (xs.findSome? (Linked.any? name)).isSome = true :=
      List.findSome?_isSome_iff.mpr ⟨o, ho, by rw [Linked.any?, if_pos hn, Option.isSome_some]⟩
    obtain ⟨f, hf⟩ := Option.isSome_iff_exists.mp hfound
    rw [hf, Option.some_or, Option.some_or]
  · have hany : Linked.any? name v = none := if_neg hdef
    rw [hany]

/-! ### The names of a spliced object -/

variable {s : Splice} {gs : List Global}

theorem mem_strongNames_spliced_iff (h : (gs.map (·.name)).Nodup) :
    name ∈ strongNames (s.spliced gs) ↔
      ∃ g ∈ gs, g.name = name ∧ (s.keeps g = true ∨ s.promotes g = true) := by
  refine ⟨mem_strongNames_spliced h, ?_⟩
  rintro ⟨g, hg, rfl, hs⟩
  exact List.mem_map.mpr
    ⟨g.strongly, List.mem_filter.mpr ⟨strongly_mem_spliced h hg hs, rfl⟩, rfl⟩

/-- Splicing makes up no names but those of promoted globals. -/
theorem mem_names_of_spliced (h : (gs.map (·.name)).Nodup)
    (hname : name ∈ (s.spliced gs).map (·.name)) :
    name ∈ gs.map (·.name) ∨ ∃ old, name = promotedName old := by
  rw [spliced_eq h, List.map_append, List.mem_append, List.map_map, List.map_map] at hname
  rcases hname with hname | hname
  · obtain ⟨g, hg, rfl⟩ := List.mem_map.mp hname
    rw [Function.comp_apply, carried_name]
    split
    · exact .inr ⟨g.name, rfl⟩
    · exact .inl (List.mem_map_of_mem hg)
  · obtain ⟨g, hg, rfl⟩ := List.mem_map.mp hname
    exact .inl (List.mem_map_of_mem (List.mem_filter.mp hg).1)

theorem mem_names_spliced_iff (h : (gs.map (·.name)).Nodup)
    (hname : name ∈ gs.map (·.name) ∨ ∀ old, name ≠ promotedName old) :
    name ∈ (s.spliced gs).map (·.name) ↔ name ∈ gs.map (·.name) := by
  refine ⟨fun hmem => ?_, fun hmem => names_subset_spliced h hmem⟩
  rcases hname with hname | hname
  · exact hname
  · exact (mem_names_of_spliced h hmem).resolve_right fun ⟨old, hold⟩ => hname old hold

/-! ### The objects of a divided unit -/

variable {listing : SourceUnit → Flags → List Global} {units before after : List SourceUnit}
  {unit : SourceUnit} {divided : String} {p q : Partition} {trusted variant : Flags}
  {objectDir : String} {candidates vs ws : List String}

/-- Compiled with either flags, the unit defines the same globals, each of them once. -/
structure Twins (inTrusted inVariant : List Global) : Prop where
  trusted : (inTrusted.map (·.name)).Nodup
  variant : (inVariant.map (·.name)).Nodup
  same : ∀ name, name ∈ inTrusted.map (·.name) ↔ name ∈ inVariant.map (·.name)

theorem names_plainObject : (plainObject listing flags unit).names =
    (listing unit flags).map (·.name) := by
  rw [plainObject, Linked.names, List.map_map]
  rfl

/-- The other units are compiled as if nothing were divided. -/
theorem linked_others (hscope : p.scope = .symbols divided)
    (hothers : ∀ u ∈ before, u.key ≠ (SourceUnit.mk divided).key) :
    linkedObjects listing before p trusted variant objectDir =
      before.map (plainObject listing trusted) := by
  induction before with
  | nil => rfl
  | cons u us ih =>
      have hu := hothers u List.mem_cons_self
      have hjob : Plan.jobsOf p trusted variant objectDir u =
          [Plan.plainJob objectDir u trusted] := by
        rw [Plan.jobsOf, hscope]
        exact if_neg hu.symm
      have hus := ih fun u' hu' => hothers u' (List.mem_cons_of_mem _ hu')
      rw [linkedObjects, plan, List.flatMap_cons, hjob, List.map_append, List.map_cons]
      exact congrArg₂ _ rfl hus

/-- The build in which every unit is compiled once, with trusted flags. -/
theorem linked_divided (hscope : p.scope = .symbols divided)
    (hunit : (SourceUnit.mk divided).key = unit.key)
    (hkeys : (keysOf (before ++ unit :: after)).Nodup) :
    linkedObjects listing (before ++ unit :: after) p trusted variant objectDir =
      before.map (plainObject listing trusted) ++
        ((Plan.scopedJobs p trusted variant objectDir unit).map (CompileJob.linked listing) ++
          after.map (plainObject listing trusted)) := by
  rw [keysOf, List.map_append, List.map_cons, List.nodup_append'] at hkeys
  obtain ⟨-, hafter, hapart⟩ := hkeys
  have hbefore : ∀ u ∈ before, u.key ≠ (SourceUnit.mk divided).key := by
    intro u hu heq
    have hsame : Candidate.key u = unit.key := heq.trans hunit
    exact hapart (List.mem_map_of_mem hu) (hsame ▸ List.mem_cons_self)
  have hlater : ∀ u ∈ after, u.key ≠ (SourceUnit.mk divided).key := by
    intro u hu heq
    have hsame : Candidate.key u = Candidate.key unit := heq.trans hunit
    exact (List.nodup_cons.mp hafter).1 (hsame ▸ List.mem_map_of_mem hu)
  have hjobs : Plan.jobsOf p trusted variant objectDir unit =
      Plan.scopedJobs p trusted variant objectDir unit := by
    rw [Plan.jobsOf, hscope]
    exact if_pos hunit
  have hothers {us : List SourceUnit} (hus : ∀ u ∈ us, u.key ≠ (SourceUnit.mk divided).key) :
      us.map (plainObject listing trusted) =
        linkedObjects listing us p trusted variant objectDir := (linked_others hscope hus).symm
  rw [hothers hbefore, hothers hlater]
  simp only [linkedObjects, plan, List.flatMap_append, List.flatMap_cons, List.map_append, hjobs]

theorem linked_scoped_contested (htrusted : p.trusted ≠ []) (hvariant : p.variant ≠ []) :
    (Plan.scopedJobs p trusted variant objectDir unit).map (CompileJob.linked listing) =
      [⟨trusted, (Plan.trustedSplice p).spliced (listing unit trusted)⟩,
        ⟨variant, (Plan.variantSplice p).spliced (listing unit variant)⟩] := by
  simp [Plan.scopedJobs, htrusted, hvariant, Plan.splice?, Plan.contested, CompileJob.linked,
    Plan.trustedSplice, Plan.variantSplice]

theorem linked_scoped_allTrusted (hvariant : p.variant = []) :
    (Plan.scopedJobs p trusted variant objectDir unit).map (CompileJob.linked listing) =
      [plainObject listing trusted unit] := by
  simp [Plan.scopedJobs, hvariant, Plan.splice?, Plan.contested, CompileJob.linked, plainObject]

theorem linked_scoped_allVariant (htrusted : p.trusted = []) (hvariant : p.variant ≠ []) :
    (Plan.scopedJobs p trusted variant objectDir unit).map (CompileJob.linked listing) =
      [plainObject listing variant unit] := by
  simp [Plan.scopedJobs, htrusted, hvariant, Plan.splice?, Plan.contested, CompileJob.linked,
    plainObject]

/-- A global that the variant object of a divided unit supplies strongly is on the variant side. -/
theorem variant_of_strong (hv : ((listing unit variant).map (·.name)).Nodup)
    (h : name ∈ strongNames ((Plan.variantSplice p).spliced (listing unit variant))) :
    name ∈ p.variant := by
  obtain ⟨g, -, rfl, hs⟩ := mem_strongNames_spliced hv h
  refine (owner_of_supplied hs).resolve_right ?_
  rintro ⟨hdata, -⟩
  cases hdata

/-- What is not on the variant side is supplied as in the build with trusted flags only. -/
theorem supplier?_of_not_variant (htwins : Twins (listing unit trusted) (listing unit variant))
    (hscope : p.scope = .symbols divided) (hunit : (SourceUnit.mk divided).key = unit.key)
    (hkeys : (keysOf (before ++ unit :: after)).Nodup) (hmixed : p.trusted ≠ [] ∨ p.variant = [])
    (hside : name ∉ p.variant)
    (hname : name ∈ (listing unit trusted).map (·.name) ∨ ∀ old, name ≠ promotedName old) :
    supplier? (linkedObjects listing (before ++ unit :: after) p trusted variant objectDir) name =
      supplier? ((before ++ unit :: after).map (plainObject listing trusted)) name := by
  rw [linked_divided hscope hunit hkeys]
  by_cases hvariant : p.variant = []
  · rw [linked_scoped_allTrusted hvariant, List.map_append, List.map_cons, List.singleton_append]
  have htrusted : p.trusted ≠ [] := hmixed.resolve_right hvariant
  let t : Linked := ⟨trusted, (Plan.trustedSplice p).spliced (listing unit trusted)⟩
  let v : Linked := ⟨variant, (Plan.variantSplice p).spliced (listing unit variant)⟩
  have hlisted : name ∈ t.names ↔ name ∈ (listing unit trusted).map (·.name) :=
    mem_names_spliced_iff htwins.trusted hname
  have hearlier : name ∈ v.names → name ∈ t.names := by
    rw [htwins.same] at hname hlisted
    exact fun h => hlisted.mpr ((mem_names_spliced_iff htwins.variant hname).mp h)
  have hplain : ∀ us : List SourceUnit, ∀ o ∈ us.map (plainObject listing trusted),
      o.flags = trusted := by
    intro us o ho
    obtain ⟨u, -, rfl⟩ := List.mem_map.mp ho
    rfl
  -- The variant object is out of the race, and all the others have trusted flags.
  have hskip : supplier? ((before.map (plainObject listing trusted) ++ [t]) ++
        v :: after.map (plainObject listing trusted)) name =
      supplier? ((before.map (plainObject listing trusted) ++ [t]) ++
        after.map (plainObject listing trusted)) name :=
    supplier?_skip (fun h => hside (variant_of_strong htwins.variant h))
      (fun h => ⟨t, List.mem_append_right _ List.mem_cons_self, hearlier h⟩)
  have hswap : supplier? (before.map (plainObject listing trusted) ++
        t :: after.map (plainObject listing trusted)) name =
      supplier? (before.map (plainObject listing trusted) ++
        plainObject listing trusted unit :: after.map (plainObject listing trusted)) name :=
    supplier?_swap rfl rfl (hplain before) (hplain after) (by rw [hlisted, names_plainObject])
  rw [linked_scoped_contested htrusted hvariant, List.map_append, List.map_cons]
  rw [List.append_assoc, List.append_assoc] at hskip
  exact hskip.trans hswap

/-- Which objects define a name of the variant side strongly does not depend on who else is there:
the trusted object never does, the variant object does where it can. -/
theorem strong_of_owned_iff {s s' : Splice} (h : (gs.map (·.name)).Nodup)
    (hsub : s.owned ⊆ s.candidates) (hsub' : s'.owned ⊆ s'.candidates)
    (howned : name ∈ s.owned) (howned' : name ∈ s'.owned) :
    name ∈ strongNames (s.spliced gs) ↔ name ∈ strongNames (s'.spliced gs) := by
  rw [mem_strongNames_spliced_iff h, mem_strongNames_spliced_iff h]
  refine exists_congr fun g => and_congr_right fun _ => and_congr_right fun hg => ?_
  subst hg
  have hkeeps : s.keeps g = s'.keeps g := by
    simp [Splice.keeps, Splice.givesUp, hsub howned, hsub' howned', howned, howned']
  rw [promotes_iff, promotes_iff, hkeeps]
  simp only [howned, howned']

theorem not_strong_trusted (hdisjoint : p.trusted.Disjoint p.variant)
    (ht : ((listing unit trusted).map (·.name)).Nodup) (hside : name ∈ p.variant) :
    name ∉ strongNames ((Plan.trustedSplice p).spliced (listing unit trusted)) := by
  intro h
  obtain ⟨g, -, rfl, hs⟩ := mem_strongNames_spliced ht h
  rcases owner_of_supplied hs with howned | ⟨-, hother⟩
  · exact hdisjoint howned hside
  · exact hother (List.mem_append_right _ hside)

/-- What is on the variant side of two divisions is supplied alike in both. -/
theorem supplier?_of_variant (htwins : Twins (listing unit trusted) (listing unit variant))
    (hunit : (SourceUnit.mk divided).key = unit.key)
    (hkeys : (keysOf (before ++ unit :: after)).Nodup)
    (hp : p.scope = .symbols divided) (hq : q.scope = .symbols divided)
    (hpTrusted : p.trusted ≠ []) (hqTrusted : q.trusted ≠ [])
    (hpApart : p.trusted.Disjoint p.variant) (hqApart : q.trusted.Disjoint q.variant)
    (hpSide : name ∈ p.variant) (hqSide : name ∈ q.variant)
    (hname : name ∈ (listing unit trusted).map (·.name) ∨ ∀ old, name ≠ promotedName old) :
    supplier? (linkedObjects listing (before ++ unit :: after) p trusted variant objectDir) name =
      supplier? (linkedObjects listing (before ++ unit :: after) q trusted variant objectDir)
        name := by
  rw [linked_divided hp hunit hkeys, linked_divided hq hunit hkeys,
    linked_scoped_contested hpTrusted (List.ne_nil_of_mem hpSide),
    linked_scoped_contested hqTrusted (List.ne_nil_of_mem hqSide)]
  -- At the place of the unit both builds have two objects, each with its counterpart's answer.
  have htrusted := Linked.alike_of_iff trusted
    (iff_of_false (not_strong_trusted hpApart htwins.trusted hpSide)
      (not_strong_trusted hqApart htwins.trusted hqSide))
    ((mem_names_spliced_iff htwins.trusted hname).trans
      (mem_names_spliced_iff htwins.trusted hname).symm)
  rw [htwins.same] at hname
  have hstrong : name ∈ strongNames ((Plan.variantSplice p).spliced (listing unit variant)) ↔
      name ∈ strongNames ((Plan.variantSplice q).spliced (listing unit variant)) :=
    strong_of_owned_iff htwins.variant (List.subset_append_right _ _)
      (List.subset_append_right _ _) hpSide hqSide
  have hvariant := Linked.alike_of_iff variant hstrong
    ((mem_names_spliced_iff htwins.variant hname).trans
      (mem_names_spliced_iff htwins.variant hname).symm)
  simp only [supplier?, List.findSome?_append, List.findSome?_cons, htrusted.1, htrusted.2,
    hvariant.1, hvariant.2]

theorem supplier?_plain (units : List SourceUnit) (hmem : unit ∈ units)
    (hname : name ∈ (listing unit flags).map (·.name)) :
    supplier? (units.map (plainObject listing flags)) name = some flags := by
  have hflags : ∀ o ∈ units.map (plainObject listing flags), o.flags = flags := by
    intro o ho
    obtain ⟨u, -, rfl⟩ := List.mem_map.mp ho
    rfl
  rw [supplier?_uniform name hflags]
  exact if_pos ⟨_, List.mem_map_of_mem hmem, names_plainObject ▸ hname⟩

/-- Two divisions of the symbols of one unit link alike but for the candidates that they divide
differently: every other global comes from an object with the same flags in both builds, and those
that are no candidates come from a trusted one. Neither division may leave the trusted side
empty while the variant side is not. -/
theorem link_frame (listing : SourceUnit → Flags → List Global) (units : List SourceUnit)
    (unit : SourceUnit) (divided : String) (trusted variant : Flags) (objectDir : String)
    (candidates vs ws : List String) (p q : Partition) (name : String) (hmem : unit ∈ units)
    (hkeys : (keysOf units).Nodup) (hunit : (SourceUnit.mk divided).key = unit.key)
    (htwins : Twins (listing unit trusted) (listing unit variant))
    (hp : Partition.of (.symbols divided) candidates vs = .ok p)
    (hq : Partition.of (.symbols divided) candidates ws = .ok q)
    (hpTrusted : p.trusted ≠ [] ∨ p.variant = []) (hqTrusted : q.trusted ≠ [] ∨ q.variant = [])
    (hname : name ∈ (listing unit trusted).map (·.name) ∨ ∀ old, name ≠ promotedName old)
    (hagree : name ∈ candidates → (name ∈ p.variant ↔ name ∈ q.variant)) :
    supplier? (linkedObjects listing units p trusted variant objectDir) name =
        supplier? (linkedObjects listing units q trusted variant objectDir) name ∧
      (name ∉ candidates → name ∈ (listing unit trusted).map (·.name) →
        supplier? (linkedObjects listing units p trusted variant objectDir) name =
          some trusted) := by
  obtain ⟨before, after, rfl⟩ := List.append_of_mem hmem
  have hpApart := Partition.disjoint_of_ok hp
  have hqApart := Partition.disjoint_of_ok hq
  have hpSub := Partition.subset_of_ok hp
  have hqSub := Partition.subset_of_ok hq
  obtain rfl := Partition.eq_of_ok hp
  obtain rfl := Partition.eq_of_ok hq
  have hplain {r : List String} (hr : candidates.filter (· ∉ r) ≠ [] ∨ r = []) (hside : name ∉ r) :
      supplier? (linkedObjects listing (before ++ unit :: after)
          ⟨.symbols divided, r, candidates.filter (· ∉ r)⟩ trusted variant objectDir) name =
        supplier? ((before ++ unit :: after).map (plainObject listing trusted)) name :=
    supplier?_of_not_variant htwins rfl hunit hkeys hr hside hname
  refine ⟨?_, fun hother hlisted => ?_⟩
  · by_cases hpSide : name ∈ vs
    · have hqSide := (hagree (hpSub hpSide)).mp hpSide
      exact supplier?_of_variant htwins hunit hkeys rfl rfl
        (hpTrusted.resolve_right (List.ne_nil_of_mem hpSide))
        (hqTrusted.resolve_right (List.ne_nil_of_mem hqSide)) hpApart hqApart hpSide hqSide hname
    · have hqSide : name ∉ ws := fun h => hpSide ((hagree (hqSub h)).mpr h)
      exact (hplain hpTrusted hpSide).trans (hplain hqTrusted hqSide).symm
  · rw [hplain hpTrusted fun h => hother (hpSub h)]
    exact supplier?_plain _ hmem hlisted

/-- A unit with four globals and one with the entry point. -/
def fourListing (unit : SourceUnit) (_ : Flags) : List Global :=
  if unit.path = "a.cpp" then fourGlobals else [⟨"main", 'T', 0, ".text"⟩]

theorem link_frame_fourGlobals :
    ∃ p q, Partition.of (.symbols "a.cpp") ["f", "g", "tw"] ["f", "tw"] = .ok p ∧
      Partition.of (.symbols "a.cpp") ["f", "g", "tw"] ["f"] = .ok q ∧
      supplier? (linkedObjects fourListing [⟨"a.cpp"⟩, ⟨"main.cpp"⟩] p ⟨"g++", "-O0", []⟩
        ⟨"g++", "-O3", []⟩ "/work/obj") "counter" = some ⟨"g++", "-O0", []⟩ ∧
      supplier? (linkedObjects fourListing [⟨"a.cpp"⟩, ⟨"main.cpp"⟩] p ⟨"g++", "-O0", []⟩
          ⟨"g++", "-O3", []⟩ "/work/obj") "f" =
        supplier? (linkedObjects fourListing [⟨"a.cpp"⟩, ⟨"main.cpp"⟩] q ⟨"g++", "-O0", []⟩
          ⟨"g++", "-O3", []⟩ "/work/obj") "f" := by
  have hp : Partition.of (.symbols "a.cpp") ["f", "g", "tw"] ["f", "tw"] =
      .ok ⟨.symbols "a.cpp", ["f", "tw"], ["g"]⟩ := by decide
  have hq : Partition.of (.symbols "a.cpp") ["f", "g", "tw"] ["f"] =
      .ok ⟨.symbols "a.cpp", ["f"], ["g", "tw"]⟩ := by decide
  have htwins : Twins (fourListing ⟨"a.cpp"⟩ ⟨"g++", "-O0", []⟩)
      (fourListing ⟨"a.cpp"⟩ ⟨"g++", "-O3", []⟩) := ⟨by decide, by decide, fun _ => Iff.rfl⟩
  have hframe (name : String) := link_frame fourListing [⟨"a.cpp"⟩, ⟨"main.cpp"⟩] ⟨"a.cpp"⟩
    "a.cpp" ⟨"g++", "-O0", []⟩ ⟨"g++", "-O3", []⟩ "/work/obj" ["f", "g", "tw"] ["f", "tw"] ["f"]
    _ _ name List.mem_cons_self (by decide) rfl htwins hp hq (.inl (by decide)) (.inl (by decide))
  exact ⟨_, _, hp, hq, (hframe "counter" (.inl (by decide)) (by decide)).2 (by decide) (by decide),
    (hframe "f" (.inl (by decide)) (by decide)).1⟩

/-! ### No symbol on the trusted side -/

theorem findSome?_absent (h : ∀ o ∈ xs, name ∉ o.names) :
    xs.findSome? (Linked.strong? name) = none ∧ xs.findSome? (Linked.any? name) = none :=
  ⟨List.findSome?_eq_none_iff.mpr fun o ho => if_neg fun hn => h o ho (names_of_strongNames hn),
    List.findSome?_eq_none_iff.mpr fun o ho => if_neg (h o ho)⟩

/-- The only object that defines a name supplies it. -/
theorem supplier?_only (hxs : ∀ o ∈ xs, name ∉ o.names) (hv : name ∈ v.names)
    (hys : ∀ o ∈ ys, name ∉ o.names) : supplier? (xs ++ v :: ys) name = some v.flags := by
  have hany : Linked.any? name v = some v.flags := if_pos hv
  rw [supplier?, List.findSome?_append, List.findSome?_append, List.findSome?_cons,
    List.findSome?_cons, (findSome?_absent hxs).1, (findSome?_absent hxs).2,
    (findSome?_absent hys).1, (findSome?_absent hys).2, hany]
  by_cases hstrong : name ∈ strongNames v.definitions <;> simp [Linked.strong?, hstrong]

/-- With every symbol of a unit on the variant side, whatever no other unit defines is supplied by
the variant object, the data too. -/
theorem supplier?_allVariant (hscope : p.scope = .symbols divided)
    (hunit : (SourceUnit.mk divided).key = unit.key)
    (hkeys : (keysOf (before ++ unit :: after)).Nodup) (htrusted : p.trusted = [])
    (hvariant : p.variant ≠ []) (hname : name ∈ (listing unit variant).map (·.name))
    (hothers : ∀ u ∈ before ++ after, name ∉ (listing u trusted).map (·.name)) :
    supplier? (linkedObjects listing (before ++ unit :: after) p trusted variant objectDir) name =
      some variant := by
  have hplain {us : List SourceUnit} (hus : us ⊆ before ++ after) :
      ∀ o ∈ us.map (plainObject listing trusted), name ∉ o.names := by
    intro o ho
    obtain ⟨u, hu, rfl⟩ := List.mem_map.mp ho
    rw [names_plainObject]
    exact hothers u (hus hu)
  rw [linked_divided hscope hunit hkeys, linked_scoped_allVariant htrusted hvariant]
  exact supplier?_only (hplain (List.subset_append_left _ _)) (names_plainObject ▸ hname)
    (hplain (List.subset_append_right _ _))

end Culprit.Toolchain
