import Culprit.Proofs.Session.Kept

/-!
What every step of a batch upholds. A batch looks for a request to stop, uses directories, builds
and runs; it counts the builds, remembers outcomes and makes records. A condition on the session
that lasts through each of these lasts through the batch. On the way every outcome is a good one, if
failures, judgements and what is remembered are.
-/

namespace Culprit

variable {σ : Type}

namespace Experiment

/-- Each step of a batch keeps `I`, and what is remembered or recorded is `good`. -/
structure Upholds (x : Experiment σ) (good : Outcome → Prop) (I : Session σ → Prop) : Prop where
  cancelled : Preserves I (Session.onWorld x.lab.cancelled)
  acquire (label : String) : Preserves I (Session.onSite (Site.acquire x.lab label).run)
  drop (w : Workspace) : Preserves I (Session.onSite (Site.drop x.lab w))
  build (p : Partition) (dir : String) :
    Preserves I (Session.onWorld (x.build p x.trusted x.variant dir).run)
  execute (executable dir : String) :
    Preserves I (Session.onWorld (x.execute executable x.target dir).run)
  count {s : Session σ} : I s → I { s with executed := s.executed + 1 }
  remember {s : Session σ} (g : String) {o : Outcome} : good o → I s → I (s.remember g o)
  record (p : Partition) {o : Outcome} (buildMs? runMs? : Option Nat) (cached : Bool) :
    good o → Preserves I (x.record p o buildMs? runMs? cached)
  failure (f : Failure) : good (.error f)
  judged (ran : Except Failure (String × Nat)) : good (x.judge ran).1
  recalled {s : Session σ} {g : String} {o : Outcome} : I s → s.remembered? g = some o → good o

namespace Upholds

variable {x : Experiment σ} {good : Outcome → Prop} {I : Session σ → Prop}

theorem finish (h : x.Upholds good I) (k : Task) {o : Outcome} (ho : good o)
    (buildMs? runMs? : Option Nat) : Preserves I (x.finish k o buildMs? runMs?) := by
  refine Preserves.bind h.cancelled fun stop => ?_
  have hrecord := h.record k.partition buildMs? runMs? false ho
  cases stop with
  | true => exact Preserves.bind hrecord fun _ => Preserves.ret _
  | false =>
      refine Preserves.bind (fun s hs => h.remember k.signature ho hs) fun _ => ?_
      exact Preserves.bind hrecord fun _ => Preserves.ret _

theorem recallAll (h : x.Upholds good I) (seen : List String) (ps : List Partition) :
    Preserves I (x.recallAll seen ps) := by
  intro s hs
  induction ps generalizing seen s with
  | nil => exact hs
  | cons p rest ih =>
      cases hknown : s.remembered? p.signature with
      | some o =>
          rw [recallAll_known hknown rfl]
          exact ih seen _ (h.record p none none true (h.recalled hs hknown) s hs)
      | none =>
          by_cases hseen : p.signature ∈ seen
          · rw [recallAll_repeated hknown hseen rfl]
            exact ih seen s hs
          · rw [recallAll_new hknown hseen rfl]
            exact ih _ s hs

theorem buildTask (h : x.Upholds good I) (k : Task) : Preserves I (x.buildTask k) := by
  rw [Experiment.buildTask]
  cases hprogress : k.progress with
  | waiting =>
      refine Preserves.bind (fun s hs => h.count hs) fun _ => ?_
      refine Preserves.bind (h.acquire _) fun acquired => ?_
      cases acquired with
      | error e => exact h.finish k (h.failure _) none none
      | ok w =>
          refine Preserves.bind (h.build _ _) fun made => ?_
          cases made with
          | error f =>
              exact Preserves.bind (h.drop w) fun _ => h.finish k (h.failure f) none none
          | ok made => exact Preserves.ret _
  | _ => exact Preserves.ret _

theorem runTask (h : x.Upholds good I) (k : Task) : Preserves I (x.runTask k) := by
  rw [Experiment.runTask]
  cases hprogress : k.progress with
  | built w made =>
      refine Preserves.bind (h.execute _ _) fun ran => ?_
      exact Preserves.bind (h.drop w) fun _ => h.finish k (h.judged ran) _ _
  | _ => exact Preserves.ret _

theorem settleTask (h : x.Upholds good I) (k : Task) : Preserves I (x.settleTask k) := by
  intro s hs
  by_cases hk : ∃ r, k.progress = .settled r
  · obtain ⟨r, hk⟩ := hk
    rwa [settleTask_settled hk]
  · rw [settleTask_other fun r hr => hk ⟨r, hr⟩]
    refine h.record k.partition none none true ?_ s hs
    cases hknown : s.remembered? k.signature with
    | none => exact h.failure _
    | some o => exact h.recalled hs hknown

/-- What every step of a batch upholds the batch upholds. -/
theorem batch (h : x.Upholds good I) (ps : List Partition) : Preserves I (x.batch ps) := by
  refine Preserves.bind (h.recallAll [] ps) fun tasks => ?_
  refine Preserves.bind (Preserves.mapM fun k _ => h.buildTask k) fun built => ?_
  refine Preserves.bind (Preserves.mapM fun k _ => h.runTask k) fun ran => ?_
  exact Preserves.mapM fun k _ => h.settleTask k

end Upholds

end Experiment

end Culprit
