import Culprit.Search

/-!
What a search can rely on about the bench where it tries its partitions. Every property is stated
for the worlds with a given invariant, so that it can hold of a bench that remembers outcomes as
long as what it remembers is right. Two runs are in step when a relation of their states is kept by
every action and the results of each action are related too. What the two have in common is said
once, by the relation; where they branch, they branch alike.
-/

namespace Culprit

theorem bind_of {τ α β : Type} {a : StateM τ α} {f : α → StateM τ β} {s s' : τ} {r : α}
    (h : a s = (r, s')) : (a >>= f) s = f r s' := by
  show f (a s).1 (a s).2 = f r s'
  rw [h]

namespace Attempt

variable {σ α β : Type}

/-- The result of an attempt that starts in `s`, and the state it leaves. -/
def runOn (a : Attempt σ α) (s : σ) : Except Error α × σ :=
  a.run s

@[simp] theorem runOn_pure (x : α) (s : σ) : runOn (pure x) s = (.ok x, s) := rfl

theorem runOn_lift {x : StateM σ α} {s s' : σ} {r : α} (h : x s = (r, s')) :
    runOn (ExceptT.lift x) s = (.ok r, s') := by
  show ((.ok (x s).1 : Except Error α), (x s).2) = (.ok r, s')
  rw [h]

@[simp] theorem runOn_lift_bind (x : StateM σ α) (f : α → Attempt σ β) (s : σ) :
    runOn (ExceptT.lift x >>= f) s = runOn (f (x s).1) (x s).2 := rfl

@[simp] theorem runOn_of_ok_bind (x : α) (f : α → Attempt σ β) (s : σ) :
    runOn (of (.ok x) >>= f) s = runOn (f x) s := rfl

theorem runOn_bind (a : Attempt σ α) (f : α → Attempt σ β) (s : σ) :
    runOn (a >>= f) s = match runOn a s with
      | (.ok x, s') => runOn (f x) s'
      | (.error e, s') => (.error e, s') := by
  show (a >>= f) s = match a s with
    | (.ok x, s') => f x s'
    | (.error e, s') => (.error e, s')
  simp only [bind, ExceptT.bind, ExceptT.mk, StateT.bind]
  cases a s with
  | mk r s' => cases r <;> rfl

theorem runOn_discard (a : Attempt σ α) (s : σ) :
    runOn (discard a) s = ((runOn a s).1.map fun _ => (), (runOn a s).2) := by
  refine (runOn_bind a (fun _ => pure ()) s).trans ?_
  rcases runOn a s with ⟨e | r, s'⟩ <;> rfl

end Attempt

namespace Bench

variable {τ : Type} {b : Bench τ} {inv : τ → Prop} {s s' : τ}

/-- What the bench does keeps the world within `inv`. -/
structure Keeps (b : Bench τ) (inv : τ → Prop) : Prop where
  cancelled {s : τ} : inv s → inv (b.cancelled s).2
  batch {s : τ} (ps : List Partition) : inv s → inv (b.batch ps s).2

/-- A request to stop is never withdrawn. -/
structure Latched (b : Bench τ) (inv : τ → Prop) : Prop extends Keeps b inv where
  latched {s : τ} : inv s → (b.cancelled s).1 = true →
    (b.cancelled (b.cancelled s).2).1 = true

/-- No request to stop ever comes. -/
structure Uncancelled (b : Bench τ) (inv : τ → Prop) : Prop extends Keeps b inv where
  going {s : τ} : inv s → (b.cancelled s).1 = false

/-- No request to stop comes, and `oracle` tells the outcome of every partition. -/
structure Follows (b : Bench τ) (inv : τ → Prop) (oracle : Partition → Outcome) : Prop
    extends Uncancelled b inv where
  answers {s : τ} (ps : List Partition) : inv s → (b.batch ps s).1 = ps.map oracle

theorem Keeps.of_cancelled {stop : Bool} (hb : b.Keeps inv) (hs : inv s)
    (he : b.cancelled s = (stop, s')) : inv s' := by
  have := hb.cancelled hs
  rwa [he] at this

theorem Keeps.of_batch {ps : List Partition} {os : List Outcome} (hb : b.Keeps inv) (hs : inv s)
    (he : b.batch ps s = (os, s')) : inv s' := by
  have := hb.batch ps hs
  rwa [he] at this

theorem Latched.again (hb : b.Latched inv) (hs : inv s) (he : b.cancelled s = (true, s')) :
    ∃ s'', b.cancelled s' = (true, s'') := by
  have := hb.latched hs (by rw [he])
  rw [he] at this
  exact ⟨_, Prod.ext this rfl⟩

theorem Uncancelled.not_stop (hb : b.Uncancelled inv) (hs : inv s) :
    b.cancelled s ≠ (true, s') := by
  intro he
  have := hb.going hs
  simp [he] at this

theorem Uncancelled.latched (hb : b.Uncancelled inv) : b.Latched inv where
  toKeeps := hb.toKeeps
  latched := fun hs hstop => by simp [hb.going hs] at hstop

theorem Follows.outcomes {oracle : Partition → Outcome} {ps : List Partition} {os : List Outcome}
    (hb : b.Follows inv oracle) (hs : inv s) (he : b.batch ps s = (os, s')) :
    os = ps.map oracle := by
  have := hb.answers ps hs
  rwa [he] at this

/-- The bench without a memory that answers by `oracle` and never stops. -/
def ofOracle (oracle : Partition → Outcome) : Bench Unit where
  cancelled := pure false
  batch := fun ps => pure (ps.map oracle)

theorem ofOracle_follows (oracle : Partition → Outcome) :
    (ofOracle oracle).Follows (fun _ => True) oracle where
  cancelled := fun _ => trivial
  batch := fun _ _ => trivial
  going := fun _ => rfl
  answers := fun _ _ => rfl

/-- The bench that answers by `oracle` and stops after a number of looks at the request. -/
def stopAfter (oracle : Partition → Outcome) : Bench Nat where
  cancelled := fun looks => (looks == 0, looks - 1)
  batch := fun ps => pure (ps.map oracle)

theorem stopAfter_latched (oracle : Partition → Outcome) :
    (stopAfter oracle).Latched fun _ => True where
  cancelled := fun _ => trivial
  batch := fun _ _ => trivial
  latched := fun {looks} _ hstop => by
    obtain rfl : looks = 0 := by simpa [stopAfter] using hstop
    rfl

end Bench

variable {σ σ' α α' β β' : Type}

/-- From related states the two actions come to related results and to related states. -/
def InStep (rel : σ → σ' → Prop) (same : α → α' → Prop) (a : StateM σ α) (a' : StateM σ' α') :
    Prop :=
  ∀ s s', rel s s' → same (a s).1 (a' s').1 ∧ rel (a s).2 (a' s').2

/-- Both fail with one error, or both come to related results. -/
inductive Alike (same : α → α' → Prop) : Except Error α → Except Error α' → Prop
  | ok {r : α} {r' : α'} (h : same r r') : Alike same (.ok r) (.ok r')
  | error (fault : Error) : Alike same (.error fault) (.error fault)

variable {rel : σ → σ' → Prop} {same : α → α' → Prop} {same₂ : β → β' → Prop}

namespace InStep

theorem ret {r : α} {r' : α'} (h : same r r') : InStep rel same (pure r) (pure r') :=
  fun _ _ hs => ⟨h, hs⟩

theorem bind {a : StateM σ α} {a' : StateM σ' α'} {f : α → StateM σ β} {f' : α' → StateM σ' β'}
    (ha : InStep rel same a a') (hf : ∀ r r', same r r' → InStep rel same₂ (f r) (f' r')) :
    InStep rel same₂ (a >>= f) (a' >>= f') := by
  intro s s' hs
  obtain ⟨hr, hs₁⟩ := ha s s' hs
  exact hf _ _ hr _ _ hs₁

end InStep

/-- Two actions that can fail, and fail alike. -/
def Attempt.InStep (rel : σ → σ' → Prop) (same : α → α' → Prop) (a : Attempt σ α)
    (a' : Attempt σ' α') : Prop :=
  Culprit.InStep rel (Alike same) a.runOn a'.runOn

namespace Attempt.InStep

theorem ret {r : α} {r' : α'} (h : same r r') :
    Attempt.InStep rel same (pure r) (pure r') :=
  Culprit.InStep.ret (.ok h)

theorem lift {a : StateM σ α} {a' : StateM σ' α'} (h : Culprit.InStep rel same a a') :
    Attempt.InStep rel same (ExceptT.lift a) (ExceptT.lift a') := by
  intro s s' hs
  obtain ⟨hr, hs₁⟩ := h s s' hs
  exact ⟨.ok hr, hs₁⟩

/-- A result that both runs compute; of a good one something more is known. -/
theorem of {r : Except Error α} (good : α → Prop) (h : ∀ a, r = .ok a → good a) :
    Attempt.InStep rel (fun a a' => a = a' ∧ good a) (of r) (of r) := by
  intro s s' hs
  cases r with
  | error fault => exact ⟨.error fault, hs⟩
  | ok a => exact ⟨.ok ⟨rfl, h a rfl⟩, hs⟩

theorem bind {a : Attempt σ α} {a' : Attempt σ' α'} {f : α → Attempt σ β} {f' : α' → Attempt σ' β'}
    (ha : Attempt.InStep rel same a a')
    (hf : ∀ r r', same r r' → Attempt.InStep rel same₂ (f r) (f' r')) :
    Attempt.InStep rel same₂ (a >>= f) (a' >>= f') := by
  intro s s' hs
  obtain ⟨hr, hs₁⟩ := ha s s' hs
  rw [runOn_bind, runOn_bind]
  rcases hrun : a.runOn s with ⟨r, s₁⟩
  rcases hrun' : a'.runOn s' with ⟨r', s₁'⟩
  rw [hrun, hrun'] at hr hs₁
  cases hr with
  | error fault => exact ⟨.error fault, hs₁⟩
  | ok hsame => exact hf _ _ hsame _ _ hs₁

end Attempt.InStep

end Culprit
