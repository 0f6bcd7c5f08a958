import Culprit.Proofs.Session.Steady
import Mathlib.Data.List.Nodup
import Mathlib.Data.List.Forall2

/-!
A batch of trials on a steady outside while it is under way. Every signature asked for so far is
either remembered or belongs to one task that is still to be built or run; what is remembered is
right. Each pass keeps this, so in the end every task has the outcome of its own partition, and no
signature was built or run twice.
-/

namespace Culprit

variable {σ : Type}

namespace Progress

/-- To be built or to be run. -/
def isPending : Progress → Bool
  | .waiting => true
  | .built _ _ => true
  | _ => false

def isBuilt : Progress → Bool
  | .built _ _ => true
  | _ => false

def workdir? : Progress → Option String
  | .built w _ => some w.path
  | _ => none

theorem isPending_of_isBuilt {g : Progress} (h : g.isBuilt = true) : g.isPending = true := by
  cases g <;> first | rfl | simp [isBuilt] at h

end Progress

namespace Session

/-- The signatures whose outcomes are remembered. -/
def signatures (s : Session σ) : List String :=
  s.memory.map (·.1)

theorem remembered?_eq_none {s : Session σ} {g : String} :
    s.remembered? g = none ↔ g ∉ s.signatures := by
  rw [remembered?, List.lookup_eq_none_iff, signatures, List.mem_map]
  constructor
  · rintro h ⟨e, he, rfl⟩
    simpa using h e he
  · intro h e he
    simpa using fun heq => h ⟨e, he, heq.symm⟩

theorem mem_signatures {s : Session σ} {g : String} {o : Outcome} (h : s.remembered? g = some o) :
    g ∈ s.signatures := by
  by_contra hnot
  rw [remembered?_eq_none.mpr hnot] at h
  exact absurd h (by simp)

theorem remembered?_remember (s : Session σ) (g g' : String) (o : Outcome) :
    (s.remember g o).remembered? g' = if g' = g then some o else s.remembered? g' := by
  rw [remembered?, remember, List.lookup_cons]
  by_cases heq : g' = g
  · simp [heq]
  · rw [beq_false_of_ne heq, if_neg heq]
    rfl

end Session

/-! ### What the outside still owes to the tasks in hand -/

/-- The outside agrees with a track that has a product for each task that was built. -/
structure Stocked (domain : Partition → Prop) (inv : Track → σ → Prop) (tasks : List Task)
    (t : Track) (s : Session σ) : Prop where
  world : inv t s.site.world
  housed : t.Housed
  tasked : ∀ k ∈ tasks, domain k.partition ∧ k.signature = k.partition.signature
  held : ∀ k ∈ tasks, ∀ w made, k.progress = .built w made →
    w.held = true ∧ ⟨w.path, k.partition, made⟩ ∈ t.products
  rooms : (tasks.filterMap (·.progress.workdir?)).Nodup

namespace Stocked

variable {domain : Partition → Prop} {inv : Track → σ → Prop} {tasks tasks' others : List Task}
  {k : Task} {t t' : Track} {s s' : Session σ}

theorem perm (htasks : tasks.Perm tasks') (h : Stocked domain inv tasks t s) :
    Stocked domain inv tasks' t s where
  world := h.world
  housed := h.housed
  tasked k hk := h.tasked k (htasks.mem_iff.mpr hk)
  held k hk := h.held k (htasks.mem_iff.mpr hk)
  rooms := (htasks.filterMap _).nodup_iff.mp h.rooms

/-- Between two batches no task is in hand. -/
theorem idle (hworld : inv t s.site.world) (hhoused : t.Housed) :
    Stocked domain inv [] t s where
  world := hworld
  housed := hhoused
  tasked _ hk := absurd hk List.not_mem_nil
  held _ hk := absurd hk List.not_mem_nil
  rooms := List.nodup_nil

/-- A task with no directory of its own comes, or takes the place of another one. -/
theorem unbuilt (h : Stocked domain inv others t s) (hdomain : domain k.partition)
    (hsignature : k.signature = k.partition.signature) (hunbuilt : k.progress.isBuilt = false) :
    Stocked domain inv (k :: others) t s where
  world := h.world
  housed := h.housed
  tasked := List.forall_mem_cons.mpr ⟨⟨hdomain, hsignature⟩, h.tasked⟩
  held := by
    refine List.forall_mem_cons.mpr ⟨fun w made hbuilt => ?_, h.held⟩
    simp [hbuilt, Progress.isBuilt] at hunbuilt
  rooms := by
    have hnone : k.progress.workdir? = none := by
      cases hk : k.progress <;> first | rfl | simp [hk, Progress.isBuilt] at hunbuilt
    rw [List.filterMap_cons, hnone]
    exact h.rooms

theorem tail (h : Stocked domain inv (k :: others) t s) : Stocked domain inv others t s where
  world := h.world
  housed := h.housed
  tasked := (List.forall_mem_cons.mp h.tasked).2
  held := (List.forall_mem_cons.mp h.held).2
  rooms := h.rooms.sublist ((List.sublist_cons_self k others).filterMap _)

/-- The first task has been built in a fresh directory. -/
theorem store {site : Site σ} {w : Workspace} {made : Built} {executed : Nat}
    (h : Stocked domain inv (k :: others) t s) (hheld : w.held = true)
    (hfresh : w.path ∉ t.directories)
    (hworld : inv ((t.enter w.path).store ⟨w.path, k.partition, made⟩) site.world) :
    Stocked domain inv ({ k with progress := .built w made } :: others)
      ((t.enter w.path).store ⟨w.path, k.partition, made⟩)
      { s with site := site, executed := executed } where
  world := hworld
  housed := (h.housed.enter w.path).store List.mem_cons_self
  tasked := List.forall_mem_cons.mpr (List.forall_mem_cons.mp h.tasked)
  held := by
    refine List.forall_mem_cons.mpr ⟨fun w' made' hb => ?_, fun k' hk' w' made' hb => ?_⟩
    · obtain ⟨rfl, rfl⟩ : w = w' ∧ made = made' := by simpa using hb
      exact ⟨hheld, List.mem_cons_self⟩
    · obtain ⟨hheld', hmem⟩ := h.tail.held k' hk' w' made' hb
      exact ⟨hheld', List.mem_cons_of_mem _ hmem⟩
  rooms := by
    -- The other directories are there already.
    refine List.nodup_cons.mpr ⟨fun hmem => ?_, h.tail.rooms⟩
    obtain ⟨k', hk', hpath⟩ := List.mem_filterMap.mp hmem
    cases hb : k'.progress with
    | built w' made' =>
        have hsame : w'.path = w.path := by simpa [hb, Progress.workdir?] using hpath
        exact hfresh (hsame ▸ h.housed _ (h.tail.held k' hk' w' made' hb).2)
    | _ => simp [hb, Progress.workdir?] at hpath

/-- The directories of two tasks are not the same. -/
theorem workdir_ne (h : Stocked domain inv (k :: others) t s) {k' : Task} (hk' : k' ∈ others)
    {w w' : Workspace} {made made' : Built} (hbuilt : k.progress = .built w made)
    (hbuilt' : k'.progress = .built w' made') : w'.path ≠ w.path := by
  intro hsame
  have hrooms := h.rooms
  rw [List.filterMap_cons, hbuilt] at hrooms
  refine (List.nodup_cons.mp hrooms).1 (List.mem_filterMap.mpr ⟨k', hk', ?_⟩)
  rw [hbuilt', Progress.workdir?, hsame]

/-- The outside moves on and keeps the products of the tasks. -/
theorem move (h : Stocked domain inv tasks t s) (hworld : inv t' s'.site.world)
    (hhoused : t'.Housed) (hproducts : ∀ k ∈ tasks, ∀ w made, k.progress = .built w made →
      ⟨w.path, k.partition, made⟩ ∈ t'.products) : Stocked domain inv tasks t' s' where
  world := hworld
  housed := hhoused
  tasked := h.tasked
  held k hk w made hbuilt := ⟨(h.held k hk w made hbuilt).1, hproducts k hk w made hbuilt⟩
  rooms := h.rooms

end Stocked

/-! ### What the tasks in hand still owe to the memory -/

/-- Every signature asked for is known or belongs to one task that is still to be built or run. -/
structure Owing (asked : List String) (tasks : List Task) (known : List String) : Prop where
  tasked : ∀ k ∈ tasks, k.signature = k.partition.signature ∧ k.signature ∈ asked
  distinct : known.Nodup
  unknown : ∀ k ∈ tasks, k.progress.isPending = true → k.signature ∉ known
  apart : ((tasks.filter (·.progress.isPending)).map (·.signature)).Nodup
  covered : ∀ g ∈ asked, g ∈ known ∨ ∃ k ∈ tasks, k.progress.isPending = true ∧ k.signature = g

namespace Owing

variable {asked asked' known : List String} {tasks tasks' others : List Task} {k : Task}

theorem idle (hdistinct : known.Nodup) : Owing [] [] known where
  tasked _ hk := absurd hk List.not_mem_nil
  distinct := hdistinct
  unknown _ hk := absurd hk List.not_mem_nil
  apart := List.nodup_nil
  covered _ hg := absurd hg List.not_mem_nil

theorem perm (htasks : tasks.Perm tasks') (hasked : asked.Perm asked')
    (h : Owing asked tasks known) : Owing asked' tasks' known where
  tasked k hk :=
    have ⟨hsignature, hasks⟩ := h.tasked k (htasks.mem_iff.mpr hk)
    ⟨hsignature, hasked.subset hasks⟩
  distinct := h.distinct
  unknown k hk := h.unknown k (htasks.mem_iff.mpr hk)
  apart := ((htasks.filter _).map _).nodup_iff.mp h.apart
  covered g hg := by simpa only [htasks.mem_iff] using h.covered g (hasked.mem_iff.mpr hg)

/-- A task that is not in hand yet. -/
theorem add (h : Owing asked tasks known) (hsignature : k.signature = k.partition.signature)
    (hnew : k.progress.isPending = true → k.signature ∉ known ∧
      ∀ k' ∈ tasks, k'.progress.isPending = true → k'.signature ≠ k.signature)
    (hold : k.progress.isPending = false → k.signature ∈ known ∨
      ∃ k' ∈ tasks, k'.progress.isPending = true ∧ k'.signature = k.signature) :
    Owing (k.signature :: asked) (k :: tasks) known where
  tasked := by
    refine List.forall_mem_cons.mpr ⟨⟨hsignature, List.mem_cons_self⟩, fun k' hk' => ?_⟩
    obtain ⟨hsignature', hasked'⟩ := h.tasked k' hk'
    exact ⟨hsignature', List.mem_cons_of_mem _ hasked'⟩
  distinct := h.distinct
  unknown := List.forall_mem_cons.mpr ⟨fun hp => (hnew hp).1, h.unknown⟩
  apart := by
    rw [List.filter_cons]
    split
    · next hp =>
        refine List.nodup_cons.mpr ⟨fun hmem => ?_, h.apart⟩
        obtain ⟨k', hk', hsame⟩ := List.mem_map.mp hmem
        obtain ⟨hk', hp'⟩ := List.mem_filter.mp hk'
        exact (hnew hp).2 k' hk' hp' hsame
    · exact h.apart
  covered := by
    refine List.forall_mem_cons.mpr ⟨?_, fun g hg => ?_⟩
    · cases hp : k.progress.isPending with
      | true => exact .inr ⟨k, List.mem_cons_self, hp, rfl⟩
      | false =>
          refine (hold hp).imp_right fun ⟨k', hk', hsame⟩ => ⟨k', List.mem_cons_of_mem _ hk', hsame⟩
    · exact (h.covered g hg).imp_right fun ⟨k', hk', hsame⟩ =>
        ⟨k', List.mem_cons_of_mem _ hk', hsame⟩

/-- A task that owes nothing. -/
theorem drop (h : Owing asked (k :: others) known) (hdone : k.progress.isPending = false) :
    Owing asked others known where
  tasked := (List.forall_mem_cons.mp h.tasked).2
  distinct := h.distinct
  unknown := (List.forall_mem_cons.mp h.unknown).2
  apart := by simpa [hdone] using h.apart
  covered g hg := by simpa [hdone] using h.covered g hg

theorem signature_ne (h : Owing asked (k :: others) known) (hpending : k.progress.isPending = true)
    {k' : Task} (hk' : k' ∈ others) (hpending' : k'.progress.isPending = true) :
    k'.signature ≠ k.signature := by
  intro heq
  have hapart := h.apart
  rw [List.filter_cons, if_pos hpending] at hapart
  refine (List.nodup_cons.mp hapart).1 (List.mem_map.mpr ⟨k', ?_, heq⟩)
  exact List.mem_filter.mpr ⟨hk', hpending'⟩

/-- The first task gets on, and still owes what it owed. -/
theorem proceed {g : Progress} (h : Owing asked (k :: others) known)
    (hpending : k.progress.isPending = true) (hpending' : g.isPending = true) :
    Owing asked ({ k with progress := g } :: others) known where
  tasked := List.forall_mem_cons.mpr (List.forall_mem_cons.mp h.tasked)
  distinct := h.distinct
  unknown := by
    have hunknown := List.forall_mem_cons.mp h.unknown
    exact List.forall_mem_cons.mpr ⟨fun _ => hunknown.1 hpending, hunknown.2⟩
  apart := by
    have hapart := h.apart
    rw [List.filter_cons, if_pos hpending] at hapart
    rw [List.filter_cons, if_pos hpending']
    exact hapart
  covered g hg := by
    rcases h.covered g hg with hg | ⟨k', hk', hp, rfl⟩
    · exact .inl hg
    · rcases List.mem_cons.mp hk' with rfl | hk'
      · exact .inr ⟨_, List.mem_cons_self, hpending', rfl⟩
      · exact .inr ⟨k', List.mem_cons_of_mem _ hk', hp, rfl⟩

/-- The first task is over, and its signature is known. -/
theorem settle {o : Outcome} (h : Owing asked (k :: others) known)
    (hpending : k.progress.isPending = true) :
    Owing asked ({ k with progress := .settled o } :: others) (k.signature :: known) where
  tasked := List.forall_mem_cons.mpr (List.forall_mem_cons.mp h.tasked)
  distinct :=
    List.nodup_cons.mpr ⟨(List.forall_mem_cons.mp h.unknown).1 hpending, h.distinct⟩
  unknown := by
    refine List.forall_mem_cons.mpr ⟨fun hp => by simp [Progress.isPending] at hp, ?_⟩
    intro k' hk' hp
    exact List.not_mem_cons_of_ne_of_not_mem (h.signature_ne hpending hk' hp)
      ((List.forall_mem_cons.mp h.unknown).2 k' hk' hp)
  apart := by
    have hapart := h.apart
    rw [List.filter_cons, if_pos hpending] at hapart
    exact (List.nodup_cons.mp hapart).2
  covered g hg := by
    rcases h.covered g hg with hg | ⟨k', hk', hp, rfl⟩
    · exact .inl (List.mem_cons_of_mem _ hg)
    · rcases List.mem_cons.mp hk' with rfl | hk'
      · exact .inl List.mem_cons_self
      · exact .inr ⟨k', List.mem_cons_of_mem _ hk', hp, rfl⟩

end Owing

/-! ### What a batch under way knows -/

/-- Partitions with one signature come to one outcome. -/
def SameBySignature (domain : Partition → Prop) (truth : Partition → Outcome) : Prop :=
  ∀ p q, domain p → domain q → p.signature = q.signature → truth p = truth q

/-- A series of trials while `tasks` of a batch are under way. The signatures in `asked` have been
asked for. -/
structure Underway (domain : Partition → Prop) (truth : Partition → Outcome)
    (inv : Track → σ → Prop) (asked : List String) (tasks : List Task) (t : Track)
    (s : Session σ) : Prop where
  world : inv t s.site.world
  housed : t.Housed
  recalls : ∀ p o, domain p → s.remembered? p.signature = some o → o = truth p
  distinct : s.signatures.Nodup
  known : s.signatures ⊆ asked
  tasked : ∀ k ∈ tasks, domain k.partition ∧ k.signature = k.partition.signature ∧
    k.signature ∈ asked
  settled : ∀ k ∈ tasks, ∀ o, k.progress = .settled o → o = truth k.partition
  unknown : ∀ k ∈ tasks, k.progress.isPending = true → k.signature ∉ s.signatures
  apart : ((tasks.filter (·.progress.isPending)).map (·.signature)).Nodup
  covered : ∀ g ∈ asked, g ∈ s.signatures ∨
    ∃ k ∈ tasks, k.progress.isPending = true ∧ k.signature = g
  held : ∀ k ∈ tasks, ∀ w made, k.progress = .built w made →
    w.held = true ∧ ⟨w.path, k.partition, made⟩ ∈ t.products
  rooms : (tasks.filterMap (·.progress.workdir?)).Nodup
  counted : s.executed = s.memory.length + (tasks.filter (·.progress.isBuilt)).length
  built : t.built.Nodup ∧ ∀ g ∈ t.built, g ∈ s.signatures ∨
    ∃ k ∈ tasks, k.progress.isBuilt = true ∧ k.signature = g
  ran : t.ran.Nodup ∧ t.ran ⊆ s.signatures

namespace Underway

variable {domain : Partition → Prop} {truth : Partition → Outcome} {inv : Track → σ → Prop}
  {asked : List String} {tasks others : List Task} {k : Task} {t t' : Track} {s s' : Session σ}

theorem stocked (h : Underway domain truth inv asked tasks t s) : Stocked domain inv tasks t s where
  world := h.world
  housed := h.housed
  tasked k hk := ⟨(h.tasked k hk).1, (h.tasked k hk).2.1⟩
  held := h.held
  rooms := h.rooms

theorem owing (h : Underway domain truth inv asked tasks t s) : Owing asked tasks s.signatures where
  tasked k hk := (h.tasked k hk).2
  distinct := h.distinct
  unknown := h.unknown
  apart := h.apart
  covered := h.covered

/-! ### The tasks in another order, one more, one less -/

theorem perm {tasks' : List Task} {asked' : List String} (htasks : tasks.Perm tasks')
    (hasked : asked.Perm asked') (h : Underway domain truth inv asked tasks t s) :
    Underway domain truth inv asked' tasks' t s where
  world := h.world
  housed := h.housed
  recalls := h.recalls
  distinct := h.distinct
  known := List.Subset.trans h.known hasked.subset
  tasked k hk :=
    have ⟨hdomain, hsignature, hasks⟩ := h.tasked k (htasks.mem_iff.mpr hk)
    ⟨hdomain, hsignature, hasked.subset hasks⟩
  settled k hk := h.settled k (htasks.mem_iff.mpr hk)
  unknown := (h.owing.perm htasks hasked).unknown
  apart := (h.owing.perm htasks hasked).apart
  covered := (h.owing.perm htasks hasked).covered
  held := (h.stocked.perm htasks).held
  rooms := (h.stocked.perm htasks).rooms
  counted := by rw [h.counted, (htasks.filter _).length_eq]
  built := by simpa only [htasks.mem_iff] using h.built
  ran := h.ran

/-- A task that is not in hand yet. -/
theorem add (h : Underway domain truth inv asked tasks t s) (hdomain : domain k.partition)
    (hsignature : k.signature = k.partition.signature) (hunbuilt : k.progress.isBuilt = false)
    (hsettled : ∀ o, k.progress = .settled o → o = truth k.partition)
    (hnew : k.progress.isPending = true → k.signature ∉ s.signatures ∧
      ∀ k' ∈ tasks, k'.progress.isPending = true → k'.signature ≠ k.signature)
    (hold : k.progress.isPending = false → k.signature ∈ s.signatures ∨
      ∃ k' ∈ tasks, k'.progress.isPending = true ∧ k'.signature = k.signature) :
    Underway domain truth inv (k.signature :: asked) (k :: tasks) t s where
  world := h.world
  housed := h.housed
  recalls := h.recalls
  distinct := h.distinct
  known := List.Subset.trans h.known (List.subset_cons_self _ _)
  tasked := by
    refine List.forall_mem_cons.mpr ⟨⟨hdomain, hsignature, List.mem_cons_self⟩, fun k' hk' => ?_⟩
    obtain ⟨hdomain', hsignature', hasked'⟩ := h.tasked k' hk'
    exact ⟨hdomain', hsignature', List.mem_cons_of_mem _ hasked'⟩
  settled := List.forall_mem_cons.mpr ⟨hsettled, h.settled⟩
  unknown := (h.owing.add hsignature hnew hold).unknown
  apart := (h.owing.add hsignature hnew hold).apart
  covered := (h.owing.add hsignature hnew hold).covered
  held := (h.stocked.unbuilt hdomain hsignature hunbuilt).held
  rooms := (h.stocked.unbuilt hdomain hsignature hunbuilt).rooms
  counted := by
    rw [h.counted, List.filter_cons, hunbuilt]
    rfl
  built := by
    refine ⟨h.built.1, fun g hg => (h.built.2 g hg).imp_right fun ⟨k', hk', hsame⟩ => ?_⟩
    exact ⟨k', List.mem_cons_of_mem _ hk', hsame⟩
  ran := h.ran

/-- A task that has its outcome, or will take it from another one. -/
theorem drop (h : Underway domain truth inv asked (k :: others) t s)
    (hdone : k.progress.isPending = false) : Underway domain truth inv asked others t s where
  world := h.world
  housed := h.housed
  recalls := h.recalls
  distinct := h.distinct
  known := h.known
  tasked := (List.forall_mem_cons.mp h.tasked).2
  settled := (List.forall_mem_cons.mp h.settled).2
  unknown := (h.owing.drop hdone).unknown
  apart := (h.owing.drop hdone).apart
  covered := (h.owing.drop hdone).covered
  held := h.stocked.tail.held
  rooms := h.stocked.tail.rooms
  counted := by
    have hunbuilt : k.progress.isBuilt = false := by
      by_contra hbuilt
      simp [Progress.isPending_of_isBuilt (eq_true_of_ne_false hbuilt)] at hdone
    rw [h.counted, List.filter_cons, hunbuilt]
    rfl
  built := by
    refine ⟨h.built.1, fun g hg => (h.built.2 g hg).imp_right fun ⟨k', hk', hbuilt, hsame⟩ => ?_⟩
    rcases List.mem_cons.mp hk' with rfl | hk'
    · simp [Progress.isPending_of_isBuilt hbuilt] at hdone
    · exact ⟨k', hk', hbuilt, hsame⟩
  ran := h.ran

/-! ### What a trial changes -/

/-- Only the outside has changed, and it still agrees with the track. -/
theorem move {site : Site σ} {trials : List Trial}
    (h : Underway domain truth inv asked tasks t s) (hworld : inv t site.world) :
    Underway domain truth inv asked tasks t { s with site := site, trials := trials } :=
  { h with world := hworld }

/-- Between two batches, directories may come and go. -/
theorem rest {site : Site σ} (h : Underway domain truth inv asked [] t s)
    (hworld : inv t' site.world) (hhoused : t'.Housed) (hbuilt : t'.built = t.built)
    (hran : t'.ran = t.ran) : Underway domain truth inv asked [] t' { s with site := site } :=
  { h with
    world := hworld
    housed := hhoused
    held := fun _ hk => absurd hk List.not_mem_nil
    built := hbuilt ▸ h.built
    ran := hran ▸ h.ran }

theorem not_mem_signatures (h : Underway domain truth inv asked (k :: others) t s)
    (hpending : k.progress.isPending = true) : k.partition.signature ∉ s.signatures := by
  rw [← (h.tasked k List.mem_cons_self).2.1]
  exact h.unknown k List.mem_cons_self hpending

theorem not_mem_built (h : Underway domain truth inv asked (k :: others) t s)
    (hwaiting : k.progress = .waiting) : k.partition.signature ∉ t.built := by
  have hpending : k.progress.isPending = true := by rw [hwaiting]; rfl
  intro hmem
  rcases h.built.2 _ hmem with hmem | ⟨k', hk', hbuilt, heq⟩
  · exact h.not_mem_signatures hpending hmem
  · rcases List.mem_cons.mp hk' with rfl | hk'
    · simp [hwaiting, Progress.isBuilt] at hbuilt
    · rw [← (h.tasked k List.mem_cons_self).2.1] at heq
      exact h.owing.signature_ne hpending hk' (Progress.isPending_of_isBuilt hbuilt) heq

/-- The first task has been built in a fresh directory. -/
theorem store {site : Site σ} {w : Workspace} {made : Built}
    (h : Underway domain truth inv asked (k :: others) t s) (hwaiting : k.progress = .waiting)
    (hheld : w.held = true) (hfresh : w.path ∉ t.directories)
    (hworld : inv ((t.enter w.path).store ⟨w.path, k.partition, made⟩) site.world) :
    Underway domain truth inv asked ({ k with progress := .built w made } :: others)
      ((t.enter w.path).store ⟨w.path, k.partition, made⟩)
      { s with site := site, executed := s.executed + 1 } := by
  have hpending : k.progress.isPending = true := by rw [hwaiting]; rfl
  have hstored : Stocked domain inv ({ k with progress := .built w made } :: others)
      ((t.enter w.path).store ⟨w.path, k.partition, made⟩)
      { s with site := site, executed := s.executed + 1 } :=
    h.stocked.store hheld hfresh hworld
  have howing := h.owing.proceed (g := .built w made) hpending rfl
  constructor
  case world => exact hworld
  case housed => exact hstored.housed
  case recalls => exact h.recalls
  case distinct => exact h.distinct
  case known => exact h.known
  case tasked => exact List.forall_mem_cons.mpr (List.forall_mem_cons.mp h.tasked)
  case settled =>
      refine List.forall_mem_cons.mpr ⟨fun o ho => by simp at ho, ?_⟩
      exact (List.forall_mem_cons.mp h.settled).2
  case unknown => exact howing.unknown
  case apart => exact howing.apart
  case covered => exact howing.covered
  case held => exact hstored.held
  case rooms => exact hstored.rooms
  case counted =>
      rw [h.counted, List.filter_cons, List.filter_cons, hwaiting]
      rfl
  case built =>
      -- A task that waits is the first of its signature.
      refine ⟨List.nodup_cons.mpr ⟨h.not_mem_built hwaiting, h.built.1⟩, ?_⟩
      refine List.forall_mem_cons.mpr ⟨?_, fun g hg => ?_⟩
      · exact .inr ⟨_, List.mem_cons_self, rfl, (h.tasked k List.mem_cons_self).2.1⟩
      · rcases h.built.2 g hg with hg | ⟨k', hk', hbuilt, rfl⟩
        · exact .inl hg
        · rcases List.mem_cons.mp hk' with rfl | hk'
          · simp [hwaiting, Progress.isBuilt] at hbuilt
          · exact .inr ⟨k', List.mem_cons_of_mem _ hk', hbuilt, rfl⟩
  case ran => exact h.ran

/-- The first task gets its outcome, which is remembered. -/
theorem settle (hsame : SameBySignature domain truth) {site : Site σ} {executed : Nat}
    {trials : List Trial} (h : Underway domain truth inv asked (k :: others) t s)
    (hpending : k.progress.isPending = true) (hworld : inv t' site.world) (hhoused : t'.Housed)
    (hcounted : executed = s.memory.length + 1 + (others.filter (·.progress.isBuilt)).length)
    (hproducts : ∀ k' ∈ others, ∀ w made, k'.progress = .built w made →
      ⟨w.path, k'.partition, made⟩ ∈ t'.products)
    (hbuilt : t'.built.Nodup ∧ ∀ g ∈ t'.built, g = k.signature ∨ g ∈ s.signatures ∨
      ∃ k' ∈ others, k'.progress.isBuilt = true ∧ k'.signature = g)
    (hran : t'.ran.Nodup ∧ ∀ g ∈ t'.ran, g = k.signature ∨ g ∈ s.signatures) :
    Underway domain truth inv asked
      ({ k with progress := .settled (truth k.partition) } :: others) t'
      ⟨site, (k.signature, truth k.partition) :: s.memory, executed, trials⟩ := by
  obtain ⟨⟨hdomain, hsignature, hasked⟩, htasked⟩ := List.forall_mem_cons.mp h.tasked
  have howing := h.owing.settle (o := truth k.partition) hpending
  constructor
  case world => exact hworld
  case housed => exact hhoused
  case recalls =>
      intro p o hp ho
      change (s.remember k.signature (truth k.partition)).remembered? p.signature = some o at ho
      rw [Session.remembered?_remember] at ho
      split at ho
      · next heq =>
          -- What is remembered answers for every partition of the signature, so `hsame` is needed.
          obtain rfl : truth k.partition = o := by injection ho
          exact hsame _ _ hdomain hp (hsignature.symm.trans heq.symm)
      · exact h.recalls p o hp ho
  case distinct => exact howing.distinct
  case known => exact List.cons_subset.mpr ⟨hasked, h.known⟩
  case tasked => exact List.forall_mem_cons.mpr ⟨⟨hdomain, hsignature, hasked⟩, htasked⟩
  case settled =>
      refine List.forall_mem_cons.mpr ⟨fun o ho => ?_, (List.forall_mem_cons.mp h.settled).2⟩
      injection ho with ho
      exact ho.symm
  case unknown => exact howing.unknown
  case apart => exact howing.apart
  case covered => exact howing.covered
  case held =>
      refine List.forall_mem_cons.mpr ⟨fun w made hb => by simp at hb, fun k' hk' w made hb => ?_⟩
      exact ⟨((List.forall_mem_cons.mp h.held).2 k' hk' w made hb).1, hproducts k' hk' w made hb⟩
  case rooms => exact h.stocked.tail.rooms
  case counted => exact hcounted
  case built =>
      refine ⟨hbuilt.1, fun g hg => ?_⟩
      rcases hbuilt.2 g hg with rfl | hg | ⟨k', hk', hb⟩
      · exact .inl List.mem_cons_self
      · exact .inl (List.mem_cons_of_mem _ hg)
      · exact .inr ⟨k', List.mem_cons_of_mem _ hk', hb⟩
  case ran => exact ⟨hran.1, fun g hg => List.mem_cons.mpr (hran.2 g hg)⟩

theorem built_from (h : Underway domain truth inv asked (k :: others) t s) {g : String}
    (hg : g ∈ t.built) : g = k.signature ∨ g ∈ s.signatures ∨
      ∃ k' ∈ others, k'.progress.isBuilt = true ∧ k'.signature = g := by
  rcases h.built.2 g hg with hg | ⟨k', hk', hb, heq⟩
  · exact .inr (.inl hg)
  · rcases List.mem_cons.mp hk' with rfl | hk'
    · exact .inl heq.symm
    · exact .inr (.inr ⟨k', hk', hb, heq⟩)

/-- The first task could not be built. -/
theorem fail (hsame : SameBySignature domain truth) {site : Site σ} {trials : List Trial}
    (h : Underway domain truth inv asked (k :: others) t s) (hwaiting : k.progress = .waiting)
    (hworld : inv t' site.world) (hhoused : t'.Housed) (hproducts : t.products ⊆ t'.products)
    (hbuilt : t'.built = t.built ∨ t'.built = k.partition.signature :: t.built)
    (hran : t'.ran = t.ran) :
    Underway domain truth inv asked
      ({ k with progress := .settled (truth k.partition) } :: others) t'
      ⟨site, (k.signature, truth k.partition) :: s.memory, s.executed + 1, trials⟩ := by
  have hpending : k.progress.isPending = true := by rw [hwaiting]; rfl
  refine h.settle hsame hpending hworld hhoused ?_ ?_ ?_ ?_
  · have hunbuilt : k.progress.isBuilt = false := by rw [hwaiting]; rfl
    rw [h.counted, List.filter_cons, hunbuilt]
    exact Nat.add_right_comm _ _ _
  · intro k' hk' w made hb
    exact hproducts ((List.forall_mem_cons.mp h.held).2 k' hk' w made hb).2
  · rcases hbuilt with hbuilt | hbuilt <;> rw [hbuilt]
    · exact ⟨h.built.1, fun g => h.built_from⟩
    · refine ⟨List.nodup_cons.mpr ⟨h.not_mem_built hwaiting, h.built.1⟩, ?_⟩
      refine List.forall_mem_cons.mpr ⟨?_, fun g => h.built_from⟩
      exact .inl (h.tasked k List.mem_cons_self).2.1.symm
  · rw [hran]
    exact ⟨h.ran.1, fun g hg => .inr (h.ran.2 hg)⟩

/-- The first task was built and has now been run. -/
theorem complete (hsame : SameBySignature domain truth) {site : Site σ} {trials : List Trial}
    {w : Workspace} {made : Built} (h : Underway domain truth inv asked (k :: others) t s)
    (hmade : k.progress = .built w made) (hworld : inv t' site.world) (hhoused : t'.Housed)
    (hproducts : ∀ q ∈ t.products, q.workdir ≠ w.path → q ∈ t'.products)
    (hbuilt : t'.built = t.built) (hran : t'.ran = k.partition.signature :: t.ran) :
    Underway domain truth inv asked
      ({ k with progress := .settled (truth k.partition) } :: others) t'
      ⟨site, (k.signature, truth k.partition) :: s.memory, s.executed, trials⟩ := by
  have hpending : k.progress.isPending = true := by rw [hmade]; rfl
  refine h.settle hsame hpending hworld hhoused ?_ ?_ ?_ ?_
  · have hin : k.progress.isBuilt = true := by rw [hmade]; rfl
    rw [h.counted, List.filter_cons, if_pos hin, List.length_cons]
    exact Nat.add_right_comm s.memory.length _ 1
  · intro k' hk' w' made' hb
    have hheld := ((List.forall_mem_cons.mp h.held).2 k' hk' w' made' hb).2
    exact hproducts _ hheld (h.stocked.workdir_ne hk' hmade hb)
  · rw [hbuilt]
    exact ⟨h.built.1, fun g => h.built_from⟩
  · have hnew : k.partition.signature ∉ t.ran :=
      fun hmem => h.not_mem_signatures hpending (h.ran.2 hmem)
    rw [hran]
    refine ⟨List.nodup_cons.mpr ⟨hnew, h.ran.1⟩, List.forall_mem_cons.mpr ⟨?_, ?_⟩⟩
    · exact .inl (h.tasked k List.mem_cons_self).2.1.symm
    · exact fun g hg => .inr (h.ran.2 hg)

end Underway

theorem start_underway {domain : Partition → Prop} {truth : Partition → Outcome}
    {inv : Track → σ → Prop} {site : Site σ} (hs : inv .empty site.world) :
    Underway domain truth inv [] [] .empty (Session.start site) := by
  constructor <;> simp_all [Track.empty, Track.Housed, Session.start, Session.signatures,
    Session.remembered?]

end Culprit
