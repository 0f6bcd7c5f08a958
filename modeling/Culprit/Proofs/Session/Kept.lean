import Culprit.Proofs.Session.Batch
import Culprit.Proofs.Session.Shelf

/-!
What a batch keeps. A property of the world that every action of a lab keeps, and every build of a
partition of the batch, survives the batch. When the property is that a request to stop was made,
this tells when a batch remembers all that it was asked for.
-/

namespace Culprit

variable {σ : Type}

/-! ### Actions that keep a property of the state -/

section Preserves

variable {τ α β ε ε' : Type} {I : τ → Prop}

/-- From a state with the property the action leads to a state with the property. -/
def Preserves (I : τ → Prop) (a : StateM τ α) : Prop :=
  ∀ s, I s → I (a s).2

namespace Preserves

theorem of_eq {a : StateM τ α} {s s' : τ} {r : α} (ha : Preserves I a) (he : a s = (r, s'))
    (hs : I s) : I s' := by
  have := ha s hs
  rwa [he] at this

theorem ret (r : α) : Preserves I (pure r : StateM τ α) :=
  fun _ hs => hs

theorem bind {a : StateM τ α} {f : α → StateM τ β} (ha : Preserves I a)
    (hf : ∀ r, Preserves I (f r)) : Preserves I (a >>= f) :=
  fun s hs => hf _ _ (ha s hs)

theorem mapM {f : α → StateM τ β} {rs : List α} (hf : ∀ r ∈ rs, Preserves I (f r)) :
    Preserves I (rs.mapM f) := by
  induction rs with
  | nil => exact ret _
  | cons r rs ih =>
      obtain ⟨hr, hrs⟩ := List.forall_mem_cons.mp hf
      rw [List.mapM_cons]
      exact bind hr fun _ => bind (ih hrs) fun _ => ret _

theorem bindExcept {a : ExceptT ε (StateM τ) α} {f : α → ExceptT ε (StateM τ) β}
    (ha : Preserves I a.run) (hf : ∀ r, Preserves I (f r).run) : Preserves I (a >>= f).run := by
  rw [ExceptT.run_bind]
  refine bind ha fun r => ?_
  cases r with
  | error e => exact ret _
  | ok r => exact hf r

theorem adapt {a : ExceptT ε (StateM τ) α} (f : ε → ε') (ha : Preserves I a.run) :
    Preserves I (ExceptT.adapt f a).run :=
  fun s hs => ha s hs

theorem lift {a : StateM τ α} (ha : Preserves I a) :
    Preserves I (ExceptT.lift a : ExceptT ε (StateM τ) α).run :=
  bind ha fun _ => ret _

end Preserves

end Preserves

/-- Whatever a lab does besides building keeps `inv`. -/
structure Lab.Keeps (lab : Lab σ) (inv : σ → Prop) : Prop where
  cancelled : Preserves inv lab.cancelled
  runner (call : Invocation) (limit : Nat) : Preserves inv (lab.runner call limit).run
  readText (path : String) : Preserves inv (lab.readText path)
  makeDirectory (label : String) : Preserves inv (lab.makeDirectory label).run
  removeDirectory (path : String) : Preserves inv (lab.removeDirectory path).run
  appendLog (t : Trial) : Preserves inv (lab.appendLog t).run
  observe (t : Trial) : Preserves inv (lab.observe t)

/-- So do the builds of the partitions that satisfy `builds`. -/
structure Experiment.Keeps (x : Experiment σ) (builds : Partition → Prop)
    (inv : σ → Prop) : Prop where
  lab : x.lab.Keeps inv
  build {p : Partition} (dir : String) : builds p →
    Preserves inv (x.build p x.trusted x.variant dir).run

theorem Lab.Keeps.acquire {lab : Lab σ} {inv : σ → Prop} (h : lab.Keeps inv) (label : String) :
    Preserves (fun s : Site σ => inv s.world) (Site.acquire lab label).run := by
  refine Preserves.bindExcept (fun s hs => h.makeDirectory _ s.world hs) fun path => ?_
  exact fun s hs => hs

theorem Lab.Keeps.drop {lab : Lab σ} {inv : σ → Prop} (h : lab.Keeps inv) (w : Workspace) :
    Preserves (fun s : Site σ => inv s.world) (Site.drop lab w) := by
  intro s hs
  cases hheld : w.held with
  | false =>
      rw [Site.drop, Site.release, hheld]
      exact hs
  | true =>
      show inv (Site.drop lab w s).2.world
      rw [Site.world_drop lab s hheld]
      split
      · exact h.removeDirectory w.path s.world hs
      · exact hs

theorem Experiment.Keeps.execute {x : Experiment σ} {builds : Partition → Prop} {inv : σ → Prop}
    (hx : x.Keeps builds inv) (executable dir : String) :
    Preserves inv (x.execute executable x.target dir).run := by
  refine Preserves.bindExcept (Preserves.adapt _ (hx.lab.runner _ _)) fun ended => ?_
  split
  · refine Preserves.bindExcept ?_ fun text => Preserves.ret _
    rw [Setup.outputText]
    split
    · exact Preserves.ret _
    · exact Preserves.adapt _ (hx.lab.readText _)
  · exact Preserves.ret _

/-- The build of a baseline keeps what the other actions and builds with trusted flags keep. -/
theorem Experiment.Keeps.compute {x : Experiment σ} {builds : Partition → Prop} {inv : σ → Prop}
    (hx : x.Keeps builds inv) (hunits : Preserves inv x.lab.pipeline.units.run)
    (hvariant : x.variant = x.trusted)
    (hbuilds : ∀ units : List SourceUnit, builds (.allTrusted .units (keysOf units))) :
    Preserves (fun s : Site σ => inv s.world)
      (Archive.compute x.toSetup x.trusted x.target).run := by
  have hrelease (w : Workspace) :
      Preserves (fun s : Site σ => inv s.world) (Site.release x.lab w) := hx.lab.drop w
  refine Preserves.bindExcept (Preserves.adapt _ fun s hs => hunits s.world hs) fun units => ?_
  refine Preserves.bindExcept (Preserves.adapt _ (hx.lab.acquire _)) fun w => ?_
  refine Preserves.bindExcept (Preserves.lift fun s hs => ?_) fun made => ?_
  · have hbuild := hx.build w.path (hbuilds units)
    rw [hvariant] at hbuild
    refine Preserves.adapt Failure.display (Preserves.bindExcept hbuild fun built => ?_) s.world hs
    exact Preserves.bindExcept (hx.execute _ _) fun _ => Preserves.ret _
  · cases made with
    | error detail =>
        exact Preserves.bindExcept (Preserves.lift (hrelease w)) fun _ => Preserves.ret _
    | ok baseline =>
        refine Preserves.bindExcept (Preserves.lift (hrelease w)) fun released => ?_
        obtain ⟨_ | _, _⟩ := released <;> exact Preserves.ret _

namespace Session

/-- The world satisfies `inv`, or what is remembered satisfies `M`. -/
def Holds (inv : σ → Prop) (M : List (String × Outcome) → Prop) (s : Session σ) : Prop :=
  inv s.site.world ∨ M s.memory

variable {α : Type} {inv : σ → Prop} {M : List (String × Outcome) → Prop}

theorem onSite_holds {a : StateM (Site σ) α} (ha : Preserves (fun s => inv s.world) a) :
    Preserves (Holds inv M) (onSite a) :=
  fun s hs => hs.imp (ha s.site) id

theorem onWorld_holds {a : StateM σ α} (ha : Preserves inv a) :
    Preserves (Holds inv M) (onWorld a) :=
  onSite_holds fun s hs => ha s.world hs

end Session

namespace Experiment

open Session (Holds onSite_holds onWorld_holds)

variable {x : Experiment σ} {builds : Partition → Prop} {inv : σ → Prop}
  {M : List (String × Outcome) → Prop}

/-! ### The passes of a batch -/

theorem record_holds (hx : x.Keeps builds inv) (p : Partition) (o : Outcome)
    (buildMs? runMs? : Option Nat) (cached : Bool) :
    Preserves (Holds inv M) (x.record p o buildMs? runMs? cached) := by
  intro s hs
  rw [record_eq]
  exact hs.imp (fun hw => hx.lab.observe _ _ (hx.lab.appendLog _ _ hw)) id

theorem finish_holds (hx : x.Keeps builds inv) {k : Task}
    (hM : ∀ o m, M m → M ((k.signature, o) :: m)) (o : Outcome)
    (buildMs? runMs? : Option Nat) :
    Preserves (Holds inv M) (x.finish k o buildMs? runMs?) := by
  refine Preserves.bind (onWorld_holds hx.lab.cancelled) fun stop => ?_
  have hrecord := record_holds (M := M) hx k.partition o buildMs? runMs? false
  cases stop with
  | true => exact Preserves.bind hrecord fun _ => Preserves.ret _
  | false =>
      refine Preserves.bind (fun s hs => hs.imp id (hM _ _)) fun _ => ?_
      exact Preserves.bind hrecord fun _ => Preserves.ret _

/-- What recording keeps, the first pass keeps. -/
theorem recallAll_preserves {I : Session σ → Prop}
    (hrecord : ∀ p o, Preserves I (x.record p o none none true)) (seen : List String)
    (ps : List Partition) : Preserves I (x.recallAll seen ps) := by
  induction ps generalizing seen with
  | nil => exact Preserves.ret _
  | cons p rest ih =>
      refine Preserves.bind (fun s hs => hs) fun s => ?_
      cases s.remembered? p.signature with
      | some o =>
          refine Preserves.bind (hrecord p o) fun _ => ?_
          exact Preserves.bind (ih seen) fun _ => Preserves.ret _
      | none =>
          by_cases hseen : p.signature ∈ seen
          · simp only [if_pos hseen]
            exact Preserves.bind (ih _) fun _ => Preserves.ret _
          · simp only [if_neg hseen]
            exact Preserves.bind (ih _) fun _ => Preserves.ret _

/-- What recording keeps, the last pass keeps. -/
theorem settleTask_preserves {I : Session σ → Prop}
    (hrecord : ∀ p o, Preserves I (x.record p o none none true)) (k : Task) :
    Preserves I (x.settleTask k) := by
  rw [settleTask]
  cases hprogress : k.progress with
  | settled o => exact Preserves.ret _
  | _ =>
      refine Preserves.bind (fun s hs => hs) fun s => ?_
      exact Preserves.bind (hrecord k.partition _) fun _ => Preserves.ret _

theorem recallAll_holds (hx : x.Keeps builds inv) (seen : List String) (ps : List Partition) :
    Preserves (Holds inv M) (x.recallAll seen ps) :=
  recallAll_preserves (fun p o => record_holds hx p o none none true) seen ps

theorem buildTask_holds (hx : x.Keeps builds inv) {k : Task} (hk : builds k.partition)
    (hM : ∀ o m, M m → M ((k.signature, o) :: m)) :
    Preserves (Holds inv M) (x.buildTask k) := by
  rw [buildTask]
  cases hprogress : k.progress with
  | waiting =>
      refine Preserves.bind (fun s hs => hs) fun _ => ?_
      refine Preserves.bind (onSite_holds (hx.lab.acquire _)) fun acquired => ?_
      cases acquired with
      | error e => exact finish_holds hx hM _ none none
      | ok w =>
          refine Preserves.bind (onWorld_holds (hx.build _ hk)) fun made => ?_
          cases made with
          | error f =>
              refine Preserves.bind (onSite_holds (hx.lab.drop w)) fun _ => ?_
              exact finish_holds hx hM _ none none
          | ok made => exact Preserves.ret _
  | _ => exact Preserves.ret _

theorem runTask_holds (hx : x.Keeps builds inv) {k : Task}
    (hM : ∀ o m, M m → M ((k.signature, o) :: m)) :
    Preserves (Holds inv M) (x.runTask k) := by
  rw [runTask]
  cases hprogress : k.progress with
  | built w made =>
      refine Preserves.bind (onWorld_holds (hx.execute _ _)) fun ran => ?_
      refine Preserves.bind (onSite_holds (hx.lab.drop w)) fun _ => ?_
      exact finish_holds hx hM _ _ _
  | _ => exact Preserves.ret _

theorem settleTask_holds (hx : x.Keeps builds inv) (k : Task) :
    Preserves (Holds inv M) (x.settleTask k) :=
  settleTask_preserves (fun p o => record_holds hx p o none none true) k

/-- The first pass makes one task for each partition. -/
theorem recallAll_tasks (seen : List String) (ps : List Partition) (s : Session σ) :
    (x.recallAll seen ps s).1.map (fun k => (k.partition, k.signature)) =
      ps.map fun p => (p, p.signature) := by
  induction ps generalizing seen s with
  | nil => rfl
  | cons p rest ih =>
      cases hknown : s.remembered? p.signature with
      | some o =>
          rw [recallAll_known hknown rfl]
          exact congrArg _ (ih _ _)
      | none =>
          by_cases hseen : p.signature ∈ seen
          · rw [recallAll_repeated hknown hseen rfl]
            exact congrArg _ (ih _ _)
          · rw [recallAll_new hknown hseen rfl]
            exact congrArg _ (ih _ _)

theorem batch_holds (hx : x.Keeps builds inv) {ps : List Partition} (hps : ∀ p ∈ ps, builds p)
    (hM : ∀ p ∈ ps, ∀ o m, M m → M ((p.signature, o) :: m)) :
    Preserves (Holds inv M) (x.batch ps) := by
  intro s hs
  have hmade := recallAll_tasks (x := x) [] ps s
  have hrecalled := recallAll_holds hx [] ps s hs
  rcases hrecall : x.recallAll [] ps s with ⟨tasks, s₁⟩
  rw [hrecall] at hmade hrecalled
  have htasks : ∀ k ∈ tasks, builds k.partition ∧
      ∀ o m, M m → M ((k.signature, o) :: m) := by
    intro k hk
    obtain ⟨p, hp, heq⟩ := List.mem_map.mp (hmade ▸ List.mem_map_of_mem hk)
    obtain ⟨hpartition, hsignature⟩ := Prod.mk.inj heq
    exact ⟨hpartition ▸ hps p hp, hsignature ▸ hM p hp⟩
  have hbuilt := Preserves.mapM
    (fun k hk => buildTask_holds hx (htasks k hk).1 (htasks k hk).2) s₁ hrecalled
  have hbuiltTasks := forall_mem_mapM (f := x.buildTask)
    (P := fun k => ∀ o m, M m → M ((k.signature, o) :: m))
    (Q := fun k => ∀ o m, M m → M ((k.signature, o) :: m))
    (fun k s hk => by rwa [(buildTask_fst k s).2.1]) (fun k hk => (htasks k hk).2) s₁
  rcases hbuild : tasks.mapM x.buildTask s₁ with ⟨built, s₂⟩
  rw [hbuild] at hbuilt hbuiltTasks
  rw [batch, bind_of hrecall, bind_of hbuild]
  refine Preserves.bind (Preserves.mapM fun k hk => runTask_holds hx (hbuiltTasks k hk))
    (fun ran => ?_) s₂ hbuilt
  exact Preserves.mapM fun k _ => settleTask_holds hx k

/-- A property of the world that builds and the other actions keep survives a batch. -/
theorem batch_keeps (hx : x.Keeps builds inv) {ps : List Partition} (hps : ∀ p ∈ ps, builds p)
    {s : Session σ} (hs : inv s.site.world) : inv (x.batch ps s).2.site.world := by
  have hbatch := batch_holds (M := fun _ => False) hx hps (fun _ _ _ _ => id) s (.inl hs)
  exact hbatch.resolve_right id

theorem keeps_false (x : Experiment σ) : x.Keeps (fun _ => True) fun _ => False where
  lab := ⟨fun _ h => h.elim, fun _ _ _ h => h.elim, fun _ _ h => h.elim, fun _ _ h => h.elim,
    fun _ _ h => h.elim, fun _ _ h => h.elim, fun _ _ h => h.elim⟩
  build _ _ _ h := h.elim

/-- What is remembered after a batch was remembered before or asked for. -/
theorem signatures_batch (x : Experiment σ) (ps : List Partition) (s : Session σ) :
    (x.batch ps s).2.signatures ⊆ ps.map (·.signature) ++ s.signatures := by
  have hbatch := batch_holds (keeps_false x) (fun _ _ => trivial)
    (M := fun m => m.map (·.1) ⊆ ps.map (·.signature) ++ s.signatures)
    (fun p hp o m hm => List.cons_subset.mpr
      ⟨List.mem_append_left _ (List.mem_map_of_mem hp), hm⟩) s
    (.inr (List.subset_append_right _ _))
  exact hbatch.resolve_left id

/-! ### The outcomes of a batch -/

theorem length_mapM {τ β γ : Type} (f : β → StateM τ γ) (rs : List β) (s : τ) :
    (rs.mapM f s).1.length = rs.length := by
  induction rs generalizing s with
  | nil => rfl
  | cons r rs ih =>
      rw [List.mapM_cons]
      exact congrArg (· + 1) (ih _)

theorem length_batch (ps : List Partition) (s : Session σ) :
    (x.batch ps s).1.length = ps.length := by
  have htasks := congrArg List.length (recallAll_tasks (x := x) [] ps s)
  rw [List.length_map, List.length_map] at htasks
  rw [← htasks, ← length_mapM x.buildTask, ← length_mapM x.runTask, ← length_mapM x.settleTask]
  rfl

end Experiment

/-! ### Requests to stop -/

/-- Once a request to stop was made it stays, and a look tells whether there is one by then. -/
structure Experiment.Latched (x : Experiment σ) (fired : σ → Prop) : Prop where
  keeps : x.Keeps (fun _ => True) fired
  seen {w : σ} : (x.lab.cancelled w).1 = true ↔ fired (x.lab.cancelled w).2

namespace Experiment

open Session (Holds)

variable {x : Experiment σ} {fired : σ → Prop} {k : Task}

/-- There was a request to stop, or the signature is remembered. -/
abbrev Remembers (fired : σ → Prop) (g : String) : Session σ → Prop :=
  Holds fired fun m => g ∈ m.map (·.1)

theorem finish_remembers (hx : x.Latched fired) (o : Outcome) (buildMs? runMs? : Option Nat)
    (s : Session σ) : Remembers fired k.signature (x.finish k o buildMs? runMs? s).2 := by
  rcases hlook : x.lab.cancelled s.site.world with ⟨stop, w⟩
  have hrecord := record_holds (M := fun m => k.signature ∈ m.map (·.1)) hx.keeps
    k.partition o buildMs? runMs? false
  rw [finish, bind_of (Session.onWorld_eq hlook)]
  cases stop with
  | true =>
      -- Nothing is remembered here, but the request is there.
      have hfired : fired w := by simpa [hlook] using hx.seen (w := s.site.world)
      exact hrecord { s with site.world := w } (.inl hfired)
  | false =>
      refine hrecord (({ s with site.world := w } : Session σ).remember k.signature o) (.inr ?_)
      exact List.mem_cons_self

/-- A task that waits is built, or it is over and remembered. -/
theorem buildTask_remembers (hx : x.Latched fired) (hk : k.progress = .waiting) (s : Session σ) :
    Remembers fired k.signature (x.buildTask k s).2 ∨
      (x.buildTask k s).1.progress.isBuilt = true ∧
        (x.buildTask k s).1.signature = k.signature := by
  have hturn := buildTask_turn x k s
  generalize x.buildTask k s = r at hturn ⊢
  cases hturn with
  | other hother => exact absurd hk hother
  | barred | unbuilt => exact .inl (finish_remembers hx _ _ _ _)
  | built => exact .inr ⟨rfl, rfl⟩

theorem runTask_remembers (hx : x.Latched fired) (hk : k.progress.isBuilt = true)
    (s : Session σ) : Remembers fired k.signature (x.runTask k s).2 := by
  cases hbuilt : k.progress with
  | built w made =>
      rw [runTask_built hbuilt rfl]
      exact finish_remembers hx _ _ _ _
  | _ => simp [hbuilt, Progress.isBuilt] at hk

theorem recallAll_waiting (seen : List String) {ps : List Partition} {p : Partition} (hp : p ∈ ps)
    (s : Session σ) : p.signature ∈ s.signatures ∨ p.signature ∈ seen ∨
      ∃ k ∈ (x.recallAll seen ps s).1, k.progress = .waiting ∧ k.signature = p.signature := by
  induction ps generalizing seen s with
  | nil => exact absurd hp List.not_mem_nil
  | cons q rest ih =>
      cases hknown : s.remembered? q.signature with
      | some o =>
          rcases List.mem_cons.mp hp with rfl | hp
          · exact .inl (Session.mem_signatures hknown)
          · rw [recallAll_known hknown rfl]
            rcases ih seen hp (x.record q o none none true s).2 with h | h | ⟨k, hk, h⟩
            · exact .inl h
            · exact .inr (.inl h)
            · exact .inr (.inr ⟨k, List.mem_cons_of_mem _ hk, h⟩)
      | none =>
          by_cases hseen : q.signature ∈ seen
          · rcases List.mem_cons.mp hp with rfl | hp
            · exact .inr (.inl hseen)
            · rw [recallAll_repeated hknown hseen rfl]
              refine (ih seen hp _).imp id (Or.imp id ?_)
              exact fun ⟨k, hk, h⟩ => ⟨k, List.mem_cons_of_mem _ hk, h⟩
          · rw [recallAll_new hknown hseen rfl]
            have hhead : q.signature = p.signature → p.signature ∈ seen ∨
                ∃ k ∈ (⟨q, q.signature, .waiting⟩ : Task) ::
                  (x.recallAll (q.signature :: seen) rest s).1,
                  k.progress = .waiting ∧ k.signature = p.signature :=
              fun heq => .inr ⟨_, List.mem_cons_self, rfl, heq⟩
            rcases List.mem_cons.mp hp with rfl | hp
            · exact .inr (hhead rfl)
            · rcases ih (q.signature :: seen) hp s with h | h | ⟨k, hk, h⟩
              · exact .inl h
              · rcases List.mem_cons.mp h with heq | h
                · exact .inr (hhead heq.symm)
                · exact .inr (.inl h)
              · exact .inr (.inr ⟨k, List.mem_cons_of_mem _ hk, h⟩)

/-- What one action of a pass brings about is there after the pass. -/
theorem mapM_reaches {τ β γ : Type} {I : τ → Prop} {Q : γ → Prop} {f : β → StateM τ γ}
    {rs : List β} {r : β} (hr : r ∈ rs) (hf : ∀ r, Preserves I (f r))
    (hreach : ∀ s, I (f r s).2 ∨ Q (f r s).1) (s : τ) :
    I (rs.mapM f s).2 ∨ ∃ r' ∈ (rs.mapM f s).1, Q r' := by
  induction rs generalizing s with
  | nil => exact absurd hr List.not_mem_nil
  | cons r' rs ih =>
      rw [List.mapM_cons]
      rcases List.mem_cons.mp hr with rfl | hr
      · refine (hreach s).imp (fun h => ?_) fun h => ⟨_, List.mem_cons_self, h⟩
        exact Preserves.mapM (fun r _ => hf r) _ h
      · refine (ih hr (f r' s).2).imp id ?_
        exact fun ⟨r', hr', h⟩ => ⟨r', List.mem_cons_of_mem _ hr', h⟩

/-- Unless there was a request to stop, everything that was asked for is remembered. -/
theorem batch_remembers (hx : x.Latched fired) {ps : List Partition} {p : Partition} (hp : p ∈ ps)
    (s : Session σ) : Remembers fired p.signature (x.batch ps s).2 := by
  have hM : ∀ (e : String × Outcome) m, p.signature ∈ m.map (·.1) →
      p.signature ∈ (e :: m).map (·.1) := fun _ _ => List.mem_cons_of_mem _
  have hbuilds := fun k : Task =>
    buildTask_holds (k := k) hx.keeps trivial fun _ => hM _
  have hruns := fun k : Task => runTask_holds (k := k) hx.keeps fun _ => hM _
  have hsettles := fun ks : List Task => Preserves.mapM fun k (_ : k ∈ ks) =>
    settleTask_holds (M := fun m => p.signature ∈ m.map (·.1)) hx.keeps k
  rcases recallAll_waiting (x := x) [] hp s with hknown | hseen | ⟨k, hk, hwaiting, hsignature⟩
  · exact batch_holds hx.keeps (fun _ _ => trivial) (fun _ _ _ => hM _) s (.inr hknown)
  · exact absurd hseen List.not_mem_nil
  · rcases hrecall : x.recallAll [] ps s with ⟨tasks, s₁⟩
    rw [hrecall] at hk
    have hbuilt := mapM_reaches
      (Q := fun k' => k'.progress.isBuilt = true ∧ k'.signature = p.signature) hk hbuilds
      (fun s => hsignature ▸ buildTask_remembers hx hwaiting s) s₁
    rcases hbuild : tasks.mapM x.buildTask s₁ with ⟨built, s₂⟩
    rw [hbuild] at hbuilt
    rw [batch, bind_of hrecall, bind_of hbuild]
    -- The task is over after the first of the two passes, or it is built and the second ends it.
    rcases hbuilt with hdone | ⟨k', hk', hisBuilt, hsignature'⟩
    · exact Preserves.bind (Preserves.mapM fun k _ => hruns k) hsettles s₂ hdone
    · have hran := mapM_reaches (Q := fun _ => False) hk' hruns
        (fun s => .inl (hsignature' ▸ runTask_remembers hx hisBuilt s)) s₂
      rcases hran with hdone | ⟨_, _, hnone⟩
      · exact hsettles _ _ hdone
      · exact hnone.elim

end Experiment

namespace Scenario

variable {c : Scenario} {x : Experiment Shelf}

theorem built_build (q : BuildRequest) (w : Shelf) :
    ((c.build q).runOn w).2.built = q.partition :: w.built := by
  show (c.build q w).2.built = q.partition :: w.built
  rw [Scenario.build]
  simp only [ExceptT.mk]
  split
  · rfl
  · split <;> rfl

theorem built_runner (call : Invocation) (limit : Nat) (w : Shelf) :
    ((c.runner call limit).runOn w).2.built = w.built := by
  show (c.runner call limit w).2.built = w.built
  rw [Scenario.runner]
  simp only [ExceptT.mk]
  split <;> rfl

/-- On a shelf only builds change what was built. -/
theorem keeps (hlab : x.lab = c.lab) (builds : Partition → Prop) (inv : List Partition → Prop)
    (hbuilds : ∀ p ps, builds p → inv ps → inv (p :: ps)) :
    x.Keeps builds fun w => inv w.built where
  lab := by
    rw [hlab]
    refine ⟨fun _ h => h, fun call limit w h => ?_, fun _ _ h => h, fun _ _ h => h, fun _ _ h => h,
      fun _ _ h => h, fun _ _ h => h⟩
    exact (built_runner (c := c) call limit w).symm ▸ h
  build {p} dir hp w h := by
    have hbuilt : ((x.build p x.trusted x.variant dir).run w).2.built = p :: w.built := by
      rw [Setup.build, hlab]
      exact built_build _ w
    show inv ((x.build p x.trusted x.variant dir).run w).2.built
    rw [hbuilt]
    exact hbuilds p w.built hp h

end Scenario

end Culprit
