import Culprit.Proofs.Bisection.Endings
import Culprit.Proofs.Session.Lodging

/-!
The directories of a bisection. It ends with as many in use as it began with, whether or not it
comes to a report. On the way it has no more of its own at one time than the halves of a set, or
the members of a set that are tried one at a time.
-/

namespace Culprit

variable {σ : Type} {inv : Multiset String → σ → Prop} {base : Ledger} {room : Nat}

/-! ### The baseline -/

namespace Archive

variable {x : Setup σ} {held : Multiset String}

theorem found_spares {β : Type} {view : σ → β} (h : x.lab.Spares view) (trusted : Flags)
    (target : Target) (units : List SourceUnit) (dir : String) (w : σ) :
    view ((found x trusted target units dir).run w).2 = view w := by
  have hkeeps : Preserves (fun w' => view w' = view w) (found x trusted target units dir).run := by
    refine Preserves.adapt _ (Preserves.bindExcept ?_ fun built => ?_)
    · exact fun w' hw => (x.build_spares h _ _ _ _ w').trans hw
    · refine Preserves.bindExcept ?_ fun _ => Preserves.ret _
      exact fun w' hw => (x.execute_spares h _ _ _ w').trans hw
  exact hkeeps w rfl

/-- The build of a baseline gives its directory back. -/
theorem compute_lodged (hlab : x.lab.Houses inv) (hroom : held.card < room) (trusted : Flags)
    (target : Target) :
    Preserves (Site.Lodged inv base room held) (compute x trusted target).run := by
  intro s h
  rcases hlist : x.lab.pipeline.units.runOn s.world with ⟨listed, w⟩
  have hlisted : s.Lodged inv base room held → inv held w := by
    intro h
    have hunits := congrFun (hlab.spares.units s.world) held
    rw [hlist] at hunits
    exact hunits.mpr h.world
  cases listed with
  | error fault =>
      have hnone : (ExceptT.adapt Error.message (Site.attempt x.lab.pipeline.units)).run s =
          (.error fault.message, { s with world := w }) :=
        run_adapt_of Error.message (Site.lift_eq (a := x.lab.pipeline.units.result) hlist)
      rw [compute, run_bind_error hnone]
      exact h.move (hlisted h)
  | ok units =>
      rcases hmake : (x.lab.makeDirectory (foundingLabel target)).runOn w with ⟨fault | path, w₁⟩
      · rw [compute_barred hlist hmake]
        exact h.move (hlab.barred (hlisted h) hmake)
      · have hentered := h.enter hroom (hlab.made (hlisted h) hmake)
        have hspares := found_spares hlab.spares trusted target units path w₁
        rcases hfound : (found x trusted target units path).run w₁ with ⟨detail | b, w₂⟩ <;>
          rw [hfound] at hspares
        · have hran := hentered.move ((congrFun hspares _).mpr hentered.world)
          rw [compute_lost hlist hmake hfound]
          exact hran.drop hlab (w := { path := path }) rfl
        · have hran := hentered.move ((congrFun hspares _).mpr hentered.world)
          rw [compute_found hlist hmake hfound]
          exact hran.drop hlab (w := { path := path }) rfl

/-- The directories of an archive, as its site has them. -/
def Lodged (inv : Multiset String → σ → Prop) (base : Ledger) (room : Nat) (s : Archive σ) : Prop :=
  s.site.Lodged inv base room 0

theorem onSite_lodged {α : Type} {a : StateM (Site σ) α}
    (ha : Preserves (Site.Lodged inv base room 0) a) :
    Preserves (Lodged inv base room) (onSite a) :=
  fun s h => ha s.site h

theorem establish_lodged (hlab : x.lab.Houses inv) (hroom : 0 < room) (trusted : Flags)
    (target : Target) : Preserves (Lodged inv base room) (establish x trusted target).run := by
  have hcompute : Preserves (Lodged inv base room) (onSite (compute x trusted target).run) :=
    onSite_lodged (compute_lodged hlab hroom trusted target)
  have hlook : Preserves (Lodged inv base room) (onSite (Site.lift x.lab.cancelled)) :=
    onSite_lodged (Site.lift_lodged hlab.spares.cancelled)
  have hwrite (f : Baselines → Baselines) : Preserves (Lodged inv base room) (modifyBaselines f) :=
    fun s h => h
  have hdecide : Preserves (Lodged inv base room) (decide x trusted target) := by
    refine Preserves.bind (fun s h => h) fun s => ?_
    split
    · exact Preserves.ret _
    · refine Preserves.bind (hwrite _) fun _ => Preserves.bind hcompute fun v => ?_
      refine Preserves.bind hlook fun stop => ?_
      split
      · exact Preserves.ret _
      · exact Preserves.bind (hwrite _) fun _ => Preserves.ret _
  refine Preserves.bindExcept (Preserves.lift (hwrite _)) fun _ => ?_
  refine Preserves.bindExcept (Preserves.lift hdecide) fun v => ?_
  cases v <;> exact Preserves.ret _

end Archive

/-! ### The phases -/

namespace Engine

variable {e : Engine σ}

theorem listSymbols_lodged {x : Experiment σ} (hlab : e.lab.Houses inv) (hroom : 0 < room)
    (unit : SourceUnit) :
    Preserves (Session.Lodged inv base room 0) (e.listSymbols x unit) := by
  refine Preserves.bind (Session.onSite_lodged ?_) fun _ => Preserves.ret _
  exact Site.within_lodged hlab _ (fun dir w => hlab.spares.symbols unit e.trusted dir _ w) hroom

theorem admits_lodged (hlab : e.lab.Houses inv) (hroom : 2 ≤ room) (q : Request)
    (baseline : Baseline) :
    e.Admits (e.experiment q baseline) room (Session.Lodged inv base room 0) where
  bench :=
    { cancelled := fun {s} h => Session.onWorld_lodged hlab.spares.cancelled s h
      batch := fun {s _} hps h =>
        Experiment.batch_lodged (x := e.experiment q baseline) hlab hps s h
      answered := Experiment.length_batch }
  listed unit := listSymbols_lodged hlab (Nat.zero_lt_of_lt hroom) unit
  roomy := hroom

/-- The phases give back what they take, and have room enough if there is room for each set whose
members they tried one at a time. -/
theorem phases_lodged (hlab : e.lab.Houses inv) (hroom : 2 ≤ room) (q : Request)
    (baseline : Baseline) (units : List SourceUnit) (r : Report) {s : Session σ}
    (h : s.Lodged inv base room 0)
    (hfit : ∀ r' s', (e.phases (e.experiment q baseline) units r).runOn s = (.ok r', s') →
      Interaction.Fit room r'.interactions) :
    ((e.phases (e.experiment q baseline) units r).runOn s).2.Lodged inv base room 0 := by
  by_cases hkeys : (keysOf units).Nodup
  · obtain ⟨suspects, r', s', hphases, -, -, hlasts⟩ :=
      phases_lasts (admits_lodged hlab hroom q baseline) hkeys r s
    rw [hphases]
    exact hlasts.lasts (hfit r' s' hphases) h
  · -- Units that cannot be told apart end the phases before their first trial.
    obtain ⟨fault, hphases⟩ := e.phases_repeated (e.experiment q baseline) hkeys r s
    rwa [hphases]

/-! ### The bisection -/

theorem prepare_lodged (hlab : e.lab.Houses inv) (hroom : 0 < room) (q : Request) :
    Preserves (Archive.Lodged inv base room) (e.prepare q).run := by
  refine Preserves.bindExcept (Preserves.lift (Archive.onSite_lodged
    (Site.lift_lodged hlab.spares.now))) fun now => ?_
  refine Preserves.bindExcept ?_ fun units => ?_
  · refine Preserves.bindExcept (Archive.onSite_lodged (Site.lift_lodged hlab.spares.units)) ?_
    intro units
    split <;> exact Preserves.ret _
  · exact Preserves.bindExcept (Archive.establish_lodged hlab hroom e.trusted q.target)
      fun _ => Preserves.ret _

/-- A bisection gives back what it takes, and has room enough if there is room for two directories
and for each set whose members it tried one at a time. -/
theorem bisect_lodged (hlab : e.lab.Houses inv) (hroom : 2 ≤ room) (q : Request) {s : Archive σ}
    (h : s.Lodged inv base room)
    (hfit : ∀ r s', (e.bisect q).runOn s = (.ok r, s') → Interaction.Fit room r.interactions) :
    ((e.bisect q).runOn s).2.Lodged inv base room := by
  have hprepared := prepare_lodged hlab (Nat.zero_lt_of_lt hroom) q s h
  rcases hprepare : (e.prepare q).runOn s with ⟨fault | ⟨now, units, baseline⟩, s₁⟩
  · rw [show (e.prepare q).run s = _ from hprepare] at hprepared
    rw [runOn_bisect_refusal hprepare]
    exact hprepared
  · rw [show (e.prepare q).run s = _ from hprepare] at hprepared
    have hlodged := phases_lodged (s := .start s₁.site) hlab hroom q baseline units (e.blank q now)
      hprepared
    rcases hphases : (e.phases (e.experiment q baseline) units (e.blank q now)).runOn
      (.start s₁.site) with ⟨fault | r, session⟩ <;> rw [hphases] at hlodged
    · rw [runOn_bisect_error hprepare hphases]
      exact hlodged nofun
    · have hrun := runOn_bisect hprepare hphases rfl
      have hroomy := hfit _ _ hrun
      have hsession := hlodged fun r' s' heq => by
        cases heq
        exact hroomy
      rw [hrun]
      exact Site.lift_lodged hlab.spares.cancelled session.site hsession

end Engine

end Culprit
