import Culprit.Proofs.Partition.Accepted
import Culprit.Proofs.Partition.Canonical
import Culprit.Proofs.Session.Batch
import Culprit.Proofs.Session.Shelf
import Culprit.Proofs.Sha256
import Mathlib.Data.List.Dedup
import Mathlib.Data.List.Perm.Basic

/-!
Series of trials against trials on their own. Whatever is asked of a steady outside, one partition
at a time or several in a batch, each answer is the outcome of its own partition built and run by
itself, and no signature is built or run twice.
-/

namespace Culprit

variable {σ : Type}

/-- What is asked of a series of trials. -/
inductive Call where
  | trial (p : Partition)
  | batch (ps : List Partition)
deriving DecidableEq, Repr

def Call.partitions : Call → List Partition
  | .trial p => [p]
  | .batch ps => ps

namespace Experiment

/-- The outcomes come in the order of the partitions of the call. -/
def answer (x : Experiment σ) : Call → StateM (Session σ) (List Outcome)
  | .trial p => do pure [← x.bench.trial p]
  | .batch ps => x.batch ps

variable {x : Experiment σ} {domain : Partition → Prop} {truth : Partition → Outcome}
  {inv : Track → σ → Prop} {asked : List String} {t : Track} {s : Session σ}

theorem tryIn_eq_truth (hx : x.Steady domain truth inv) {p : Partition} {dir : String} {w : σ}
    (hp : domain p) (hw : inv t w) (hdir : dir ∈ t.directories)
    (hempty : ∀ q ∈ t.products, q.workdir ≠ dir) : (x.tryIn p dir w).1 = truth p := by
  rcases hbuild : (x.build p x.trusted x.variant dir).run w with ⟨f | made, w'⟩
  · refine (congrArg Prod.fst (bind_of hbuild)).trans ?_
    exact (hx.unbuilt hw hp hdir hempty hbuild).1.symm
  · have hw' := hx.stored hw hp hdir hempty hbuild
    refine (congrArg Prod.fst (bind_of hbuild)).trans ?_
    exact (hx.ran (q := ⟨dir, p, made⟩) hw' hp List.mem_cons_self rfl).1

/-- A trial on its own comes to the outcome of its partition. -/
theorem alone_eq_truth (hx : x.Steady domain truth inv) {p : Partition} {site : Site σ}
    (hp : domain p) (hs : inv t site.world) (hhoused : t.Housed) :
    (x.alone p site).1 = truth p := by
  rcases hmake : (x.lab.makeDirectory (directoryLabel p)).runOn site.world with ⟨e | path, w⟩
  · refine (congrArg Prod.fst (bind_of (Site.acquire_error x.lab hmake))).trans ?_
    exact (hx.barred hs hp hmake).1.symm
  · obtain ⟨hfresh, hw⟩ := hx.entered hs hmake
    refine (congrArg Prod.fst (bind_of (Site.acquire_ok x.lab hmake))).trans ?_
    exact tryIn_eq_truth hx hp hw List.mem_cons_self (hhoused.workdir_ne hfresh)

theorem answer_underway (hx : x.Steady domain truth inv) (hsame : SameBySignature domain truth)
    (c : Call) (hc : ∀ p ∈ c.partitions, domain p) (h : Underway domain truth inv asked [] t s) :
    ∃ t' s', x.answer c s = (c.partitions.map truth, s') ∧
      Underway domain truth inv (c.partitions.map (·.signature) ++ asked) [] t' s' := by
  obtain ⟨t', s', heq, h'⟩ := batch_underway hx hsame hc h
  refine ⟨t', s', ?_, h'⟩
  cases c with
  | batch ps => exact heq
  | trial p =>
      have htrial : x.bench.trial p s = (truth p, s') := bind_of heq
      exact bind_of htrial

theorem answers_underway (hx : x.Steady domain truth inv) (hsame : SameBySignature domain truth)
    {calls : List Call} (hcalls : ∀ c ∈ calls, ∀ p ∈ c.partitions, domain p)
    (h : Underway domain truth inv asked [] t s) :
    ∃ t' s', calls.mapM x.answer s = (calls.map fun c => c.partitions.map truth, s') ∧
      Underway domain truth inv ((calls.flatMap (·.partitions)).map (·.signature) ++ asked) [] t'
        s' := by
  induction calls generalizing asked t s with
  | nil => exact ⟨t, s, rfl, h⟩
  | cons c calls ih =>
      obtain ⟨hc, hcalls⟩ := List.forall_mem_cons.mp hcalls
      obtain ⟨t₁, s₁, heq₁, h₁⟩ := answer_underway hx hsame c hc h
      obtain ⟨t₂, s₂, heq₂, h₂⟩ := ih hcalls h₁
      refine ⟨t₂, s₂, ?_, h₂.perm (List.Perm.refl _) ?_⟩
      · rw [List.mapM_cons]
        exact (bind_of heq₁).trans (bind_of heq₂)
      · rw [List.flatMap_cons, List.map_append, List.append_assoc]
        exact List.perm_append_comm_assoc _ _ _

end Experiment

/-- Every signature that was asked for counts once. -/
theorem Underway.executed_eq {domain : Partition → Prop} {truth : Partition → Outcome}
    {inv : Track → σ → Prop} {asked : List String} {t : Track} {s : Session σ}
    (h : Underway domain truth inv asked [] t s) : s.executed = asked.dedup.length := by
  have hmem (g : String) : g ∈ s.signatures ↔ g ∈ asked.dedup := by
    rw [List.mem_dedup]
    refine ⟨fun hg => h.known hg, fun hg => (h.covered g hg).resolve_right ?_⟩
    simp
  have hperm := (List.perm_ext_iff_of_nodup h.distinct asked.nodup_dedup).mpr hmem
  rw [h.counted, ← hperm.length_eq, Session.signatures, List.length_map]
  rfl

/-- However the partitions are distributed over calls, each outcome is that of its partition on its
own. Outside, every signature was built at most once and run at most once, and as many trials were
executed as there are signatures. -/
theorem answers_alone (x : Experiment σ) (calls : List Call) (site : Site σ)
    (domain : Partition → Prop) (truth : Partition → Outcome) (inv : Track → σ → Prop)
    (hx : x.Steady domain truth inv) (hsame : SameBySignature domain truth)
    (hcalls : ∀ c ∈ calls, ∀ p ∈ c.partitions, domain p) (hs : inv .empty site.world) :
    ∃ t s, calls.mapM x.answer (Session.start site) =
        (calls.map fun c => c.partitions.map fun p => (x.alone p site).1, s) ∧
      inv t s.site.world ∧ t.built.Nodup ∧ t.ran.Nodup ∧
      s.executed = ((calls.flatMap (·.partitions)).map (·.signature)).dedup.length := by
  obtain ⟨t, s, heq, h⟩ := Experiment.answers_underway hx hsame hcalls (start_underway hs)
  refine ⟨t, s, ?_, h.world, h.built.1, h.ran.1, ?_⟩
  · rw [heq]
    refine congrArg (·, s) (List.map_congr_left fun c hc => List.map_congr_left fun p hp => ?_)
    refine (Experiment.alone_eq_truth hx (hcalls c hc p hp) hs ?_).symm
    exact fun q hq => absurd hq List.not_mem_nil
  · rw [h.executed_eq, List.append_nil]

/-- The second file does not build with variant flags, and the first one diverges. -/
def oneBroken : Scenario where
  units := [⟨"a.c"⟩, ⟨"b.c"⟩]
  symbols := fun _ => []
  ends := fun p =>
    if "b.c" ∈ p.variant then .error (.reported "b.c does not build")
    else .ok ⟨.code 0, "a", "", 1⟩
  stops := fun _ => false

def firstVariant : Partition := ⟨.units, ["a.c"], ["b.c"]⟩

def secondVariant : Partition := ⟨.units, ["b.c"], ["a.c"]⟩

set_option maxRecDepth 10000 in
theorem signature_firstVariant_ne : firstVariant.signature ≠ secondVariant.signature := by
  rw [Partition.signature, Partition.signature, Sha256.hexOfText_eq, Sha256.hexOfText_eq]
  decide +kernel

theorem answers_alone_oneBroken :
    ∃ s : Session Shelf,
      [Call.batch [secondVariant, firstVariant, secondVariant], .trial firstVariant].mapM
          oneBroken.experiment.answer (.start ⟨.empty, .empty⟩) =
        ([[.error ⟨.build, "b.c does not build"⟩, .ok ⟨1⟩, .error ⟨.build, "b.c does not build"⟩],
          [.ok ⟨1⟩]], s) ∧
      (s.site.world.built.map (·.signature)).Nodup ∧
      (s.site.world.ran.map (·.signature)).Nodup ∧ s.executed = 2 := by
  have hsame : SameBySignature (fun p => p = firstVariant ∨ p = secondVariant)
      (oneBroken.truth oneBroken.experiment) := by
    rintro p q (rfl | rfl) (rfl | rfl) heq
    · rfl
    · exact absurd heq signature_firstVariant_ne
    · exact absurd heq.symm signature_firstVariant_ne
    · rfl
  obtain ⟨t, s, heq, hagrees, hbuilt, hran, hexecuted⟩ := answers_alone oneBroken.experiment
    [.batch [secondVariant, firstVariant, secondVariant], .trial firstVariant] ⟨.empty, .empty⟩
    _ _ _ (Scenario.steady _ .empty rfl rfl fun _ => rfl) hsame (by simp [Call.partitions])
    (oneBroken.agrees_start .empty)
  have hworldBuilt := hagrees.built.trans (List.append_nil _)
  have hworldRan := hagrees.ran.trans (List.append_nil _)
  refine ⟨s, ?_, hworldBuilt ▸ hbuilt, hworldRan ▸ hran, ?_⟩
  · rw [heq]
    refine congrArg (·, s) ?_
    rfl
  · rw [hexecuted]
    have hne := signature_firstVariant_ne
    simp [Call.partitions, hne, hne.symm]

end Culprit

/-!
### What is remembered under a signature

As long as no key holds the beginning of a line and the hash does not collide, a signature stands
for one scope and one division of its candidates, so an outcome is never taken for that of another
division.
-/

namespace Culprit

namespace Partition

/-- Two partitions with one signature are the same, and two divisions of one candidate set that
differ have nothing in common in the memory. The hash need not collide on their texts only. -/
theorem signature_identifies {σ : Type} {p q : Partition} (hp : p.Plain) (hq : q.Plain)
    (hhash : Sha256.hexOfText p.canonical = Sha256.hexOfText q.canonical →
      p.canonical = q.canonical) :
    (p.signature = q.signature ↔ p.Same q) ∧
      ∀ (scope : Scope) (candidates variant variant' : List String),
        of scope candidates variant = .ok p → of scope candidates variant' = .ok q →
        (∃ key, ¬(key ∈ variant ↔ key ∈ variant')) →
          p.signature ≠ q.signature ∧ ∀ (s : Session σ) (o : Outcome),
            (s.remember q.signature o).remembered? p.signature = s.remembered? p.signature := by
  have hiff : p.signature = q.signature ↔ p.Same q :=
    ⟨fun h => same_of_canonical hp hq (hhash h),
      fun h => congrArg Sha256.hexOfText (canonical_congr h)⟩
  refine ⟨hiff, fun scope candidates variant variant' hof hof' ⟨key, hkey⟩ => ?_⟩
  obtain rfl := eq_of_ok hof
  obtain rfl := eq_of_ok hof'
  have hne := mt hiff.mp fun hsame => hkey (hsame.variant key)
  refine ⟨hne, fun s o => ?_⟩
  rw [Session.remembered?_remember, if_neg hne]

theorem signature_identifies_twoFiles :
    (firstVariant.signature ≠ secondVariant.signature ∧
      ∀ (s : Session Shelf) (o : Outcome),
        (s.remember secondVariant.signature o).remembered? firstVariant.signature =
          s.remembered? firstVariant.signature) ∧
      (⟨.symbols "a.c", ["g", "h"], []⟩ : Partition).signature =
        (⟨.symbols "a.c", ["h", "g", "h"], []⟩ : Partition).signature := by
  have hreordered : (⟨.symbols "a.c", ["g", "h"], []⟩ : Partition).Same
      ⟨.symbols "a.c", ["h", "g", "h"], []⟩ :=
    ⟨rfl, fun key => by simp only [List.mem_cons]; tauto, fun _ => Iff.rfl⟩
  refine ⟨(signature_identifies (by decide) (by decide) fun h => ?_).2 .units ["a.c", "b.c"]
    ["a.c"] ["b.c"] rfl rfl ⟨"a.c", by decide⟩, ?_⟩
  · exact absurd h signature_firstVariant_ne
  · exact (signature_identifies (σ := Shelf) (by decide) (by decide)
      fun _ => canonical_congr hreordered).1.mpr hreordered

/-- Where outcomes depend on the sets of keys alone, partitions with one signature come to one
outcome. -/
theorem sameBySignature {domain : Partition → Prop} {truth : Partition → Outcome}
    (hplain : ∀ p, domain p → p.Plain) (hhash : Set.InjOn Sha256.hexOfText (canonical '' domain))
    (htruth : ∀ p q, domain p → domain q → p.Same q → truth p = truth q) :
    SameBySignature domain truth := by
  intro p q hp hq heq
  have htext := hhash (Set.mem_image_of_mem _ hp) (Set.mem_image_of_mem _ hq) heq
  exact htruth p q hp hq (same_of_canonical (hplain p hp) (hplain q hq) htext)

/-- One key that holds a line is enough: either of two divisions gets what is remembered for the
other. -/
theorem signature_forged (scope : Scope) (key : String) :
    (⟨scope, [key], [key ++ "\nt:" ++ key]⟩ : Partition).signature =
      (⟨scope, [key ++ "\nt:" ++ key], [key]⟩ : Partition).signature :=
  congrArg Sha256.hexOfText (canonical_forged scope key)

end Partition

end Culprit
