import Culprit.Proofs.Session.Batch

/-!
What the build of a baseline comes to. Outside, its directory is made, the partition with trusted
flags for every unit is built and run there, and the directory is given back. Where each of these
actions answers in one way, whatever state it is in, so does the build.
-/

namespace Culprit

variable {σ : Type}

/-! ### Actions that can fail, one after the other -/

section Runs

variable {τ ε ε' α β : Type} {a : ExceptT ε (StateM τ) α} {s s' : τ}

theorem run_adapt_of {r : Except ε α} (f : ε → ε') (h : a.run s = (r, s')) :
    (ExceptT.adapt f a).run s = (r.mapError f, s') := by
  show (match a.run s with | (r, s') => (r.mapError f, s')) = _
  rw [h]

theorem run_lift_of {b : StateM τ β} {r : β} (h : b s = (r, s')) :
    (ExceptT.lift b : ExceptT ε (StateM τ) β).run s = (.ok r, s') := by
  show ((.ok (b s).1 : Except ε β), (b s).2) = (.ok r, s')
  rw [h]

theorem run_bind_ok {r : α} (h : a.run s = (.ok r, s')) (f : α → ExceptT ε (StateM τ) β) :
    (a >>= f).run s = (f r).run s' := by
  rw [ExceptT.run_bind]
  exact bind_of h

theorem run_bind_error {fault : ε} (h : a.run s = (.error fault, s'))
    (f : α → ExceptT ε (StateM τ) β) : (a >>= f).run s = (.error fault, s') := by
  rw [ExceptT.run_bind]
  exact bind_of h

end Runs

/-! ### What the outside answers -/

/-- The start of the name of the directory in which a baseline is built. -/
def foundingLabel (target : Target) : String :=
  Workspace.cleanLabel ("truth-" ++ target.precision) ++ "-"

/-- What an attempt to give back a directory comes to. -/
def Lab.removal (lab : Lab σ) (dir : String) (w : σ) : Except Error Unit :=
  if lab.deletes then ((lab.removeDirectory dir).runOn w).1 else .ok ()

/-- What happens outside for the baseline of a target comes to `output`: the text to compare with,
or what `blur` leaves of the reason why there is none. -/
structure Setup.Founds (x : Setup σ) (trusted : Flags) (target : Target) (units : List SourceUnit)
    (blur : String → String) (output : Except String String) (inv : Track → σ → Prop) : Prop where
  entered {t : Track} {w w' : σ} {path : String} : inv t w →
    (x.lab.makeDirectory (foundingLabel target)).runOn w = (.ok path, w') →
    path ∉ t.directories ∧ inv (t.enter path) w'
  barred {t : Track} {w w' : σ} {fault : Error} : inv t w →
    (x.lab.makeDirectory (foundingLabel target)).runOn w = (.error fault, w') →
    output = .error (blur fault.message) ∧ inv t w'
  stored {t : Track} {w w' : σ} {dir : String} {made : Built} : inv t w → dir ∈ t.directories →
    (∀ q ∈ t.products, q.workdir ≠ dir) →
    (x.build (.allTrusted .units (keysOf units)) trusted trusted dir).run w = (.ok made, w') →
    inv (t.store ⟨dir, .allTrusted .units (keysOf units), made⟩) w'
  unbuilt {t : Track} {w w' : σ} {dir : String} {f : Failure} : inv t w → dir ∈ t.directories →
    (∀ q ∈ t.products, q.workdir ≠ dir) →
    (x.build (.allTrusted .units (keysOf units)) trusted trusted dir).run w = (.error f, w') →
    output = .error (blur f.display) ∧ inv (t.attempt (.allTrusted .units (keysOf units))) w'
  failed {t : Track} {w w' : σ} {dir : String} {made : Built} {f : Failure} : inv t w →
    ⟨dir, .allTrusted .units (keysOf units), made⟩ ∈ t.products →
    (x.execute made.executable target dir).run w = (.error f, w') →
    output = .error (blur f.display) ∧ inv (t.run (.allTrusted .units (keysOf units))) w'
  printed {t : Track} {w w' : σ} {dir : String} {made : Built} {text : String} {ms : Nat} :
    inv t w → ⟨dir, .allTrusted .units (keysOf units), made⟩ ∈ t.products →
    (x.execute made.executable target dir).run w = (.ok (text, ms), w') →
    output = ((x.lab.removal dir w').mapError (blur ∘ Error.message)).map (fun _ => text) ∧
      inv (t.run (.allTrusted .units (keysOf units))) w'
  left {t : Track} {w : σ} {dir : String} : inv t w → dir ∈ t.directories →
    inv (t.leave dir) ((x.lab.removeDirectory dir).runOn w).2

namespace Archive

variable {x : Setup σ} {trusted : Flags} {target : Target} {units : List SourceUnit}
  {blur : String → String} {output : Except String String} {inv : Track → σ → Prop}

theorem release_fst (lab : Lab σ) (path : String) (s : Site σ) :
    (Site.release lab { path := path } s).1.1 = lab.removal path s.world := by
  cases hdeletes : lab.deletes
  · simp [Site.release, Lab.removal, hdeletes]
    rfl
  · simp [Site.release, Lab.removal, hdeletes]
    rfl

/-- The build and the run in the directory of the baseline. -/
def found (x : Setup σ) (trusted : Flags) (target : Target) (units : List SourceUnit)
    (dir : String) : ExceptT String (StateM σ) Baseline :=
  ExceptT.adapt Failure.display do
    let built ← x.build (.allTrusted .units (keysOf units)) trusted trusted dir
    let (output, runMs) ← x.execute built.executable target dir
    pure { target := target, flags := trusted, output := output, buildMs := built.ms,
           runMs := runMs : Baseline }

section Steps

variable {s : Site σ} {w w₁ w₂ : σ} {path : String}

theorem runOn_units (hlist : x.lab.pipeline.units.runOn s.world = (.ok units, w)) :
    (ExceptT.adapt Error.message (Site.attempt x.lab.pipeline.units)).run s =
      (.ok units, { s with world := w }) :=
  run_adapt_of _ (Site.lift_eq (a := x.lab.pipeline.units.result) hlist)

variable (hlist : x.lab.pipeline.units.runOn s.world = (.ok units, w))

include hlist

theorem compute_barred {fault : Error}
    (hmake : (x.lab.makeDirectory (foundingLabel target)).runOn w = (.error fault, w₁)) :
    (compute x trusted target).run s = (.error fault.message, { s with world := w₁ }) := by
  have hacquire : (Site.acquire x.lab ("truth-" ++ target.precision)).runOn { s with world := w } =
      (.error fault, { s with world := w₁ }) := Site.acquire_error x.lab hmake
  rw [compute, run_bind_ok (runOn_units hlist)]
  exact run_bind_error (run_adapt_of Error.message hacquire) _

theorem compute_lost {detail : String}
    (hmake : (x.lab.makeDirectory (foundingLabel target)).runOn w = (.ok path, w₁))
    (hfound : (found x trusted target units path).run w₁ = (.error detail, w₂)) :
    (compute x trusted target).run s =
      (.error detail, (Site.drop x.lab { path := path } ⟨w₂, s.ledger.enter⟩).2) := by
  have hacquire : (Site.acquire x.lab ("truth-" ++ target.precision)).runOn { s with world := w } =
      (.ok { path := path }, ⟨w₁, s.ledger.enter⟩) := Site.acquire_ok x.lab hmake
  have hmade : Site.lift (found x trusted target units path).run ⟨w₁, s.ledger.enter⟩ =
      (.error detail, ⟨w₂, s.ledger.enter⟩) := Site.lift_eq hfound
  rw [compute, run_bind_ok (runOn_units hlist)]
  refine (run_bind_ok (run_adapt_of Error.message hacquire) _).trans ?_
  refine (run_bind_ok (run_lift_of hmade) _).trans ?_
  rfl

theorem compute_found {b : Baseline}
    (hmake : (x.lab.makeDirectory (foundingLabel target)).runOn w = (.ok path, w₁))
    (hfound : (found x trusted target units path).run w₁ = (.ok b, w₂)) :
    (compute x trusted target).run s =
      (((x.lab.removal path w₂).mapError Error.message).map fun _ => b,
        (Site.drop x.lab { path := path } ⟨w₂, s.ledger.enter⟩).2) := by
  have hacquire : (Site.acquire x.lab ("truth-" ++ target.precision)).runOn { s with world := w } =
      (.ok { path := path }, ⟨w₁, s.ledger.enter⟩) := Site.acquire_ok x.lab hmake
  have hmade : Site.lift (found x trusted target units path).run ⟨w₁, s.ledger.enter⟩ =
      (.ok b, ⟨w₂, s.ledger.enter⟩) := Site.lift_eq hfound
  rw [compute, run_bind_ok (runOn_units hlist)]
  refine (run_bind_ok (run_adapt_of Error.message hacquire) _).trans ?_
  refine (run_bind_ok (run_lift_of hmade) _).trans ?_
  rcases hrelease : Site.release x.lab { path := path } ⟨w₂, s.ledger.enter⟩ with
    ⟨⟨released, left⟩, site⟩
  have hreleased := release_fst x.lab path ⟨w₂, s.ledger.enter⟩
  have hsite : (Site.drop x.lab { path := path } ⟨w₂, s.ledger.enter⟩).2 = site := by
    show (Site.release x.lab { path := path } ⟨w₂, s.ledger.enter⟩).2 = site
    rw [hrelease]
  rw [hrelease] at hreleased
  rw [← show released = x.lab.removal path w₂ from hreleased, hsite]
  refine (run_bind_ok (run_lift_of hrelease) _).trans ?_
  cases released <;> rfl

end Steps

theorem found_unbuilt {w w₁ : σ} {path : String} {f : Failure}
    (hbuild : (x.build (.allTrusted .units (keysOf units)) trusted trusted path).run w =
      (.error f, w₁)) :
    (found x trusted target units path).run w = (.error f.display, w₁) :=
  run_adapt_of Failure.display (run_bind_error hbuild _)

theorem found_ran {w w₁ w₂ : σ} {path : String} {made : Built}
    {ran : Except Failure (String × Nat)}
    (hbuild : (x.build (.allTrusted .units (keysOf units)) trusted trusted path).run w =
      (.ok made, w₁)) (hrun : (x.execute made.executable target path).run w₁ = (ran, w₂)) :
    (found x trusted target units path).run w =
      ((ran.map fun p => ⟨target, trusted, p.1, made.ms, p.2⟩).mapError Failure.display, w₂) := by
  refine run_adapt_of Failure.display ((run_bind_ok hbuild _).trans ?_)
  cases ran with
  | error f => exact run_bind_error hrun _
  | ok p => exact run_bind_ok hrun _

/-- The verdict on a target is known up to the times, and the reason why there is no baseline up to
what `blur` leaves of it. -/
theorem compute_output (hx : x.Founds trusted target units blur output inv) {t : Track} {s : Site σ}
    {w : σ} (hlist : x.lab.pipeline.units.runOn s.world = (.ok units, w)) (hw : inv t w)
    (hhoused : t.Housed) : ∃ v buildMs runMs s' t',
      (compute x trusted target).run s = (v, s') ∧
      v.mapError blur = output.map (fun text => ⟨target, trusted, text, buildMs, runMs⟩) ∧
      inv t' s'.world ∧ t'.Housed := by
  rcases hmake : (x.lab.makeDirectory (foundingLabel target)).runOn w with ⟨fault | path, w₁⟩
  · obtain ⟨rfl, hw₁⟩ := hx.barred hw hmake
    exact ⟨_, 0, 0, _, t, compute_barred hlist hmake, rfl, hw₁, hhoused⟩
  obtain ⟨hfresh, hw₁⟩ := hx.entered hw hmake
  have hempty := hhoused.workdir_ne hfresh
  have hentered := hhoused.enter path
  -- The directory is given back at the end, whatever happened in it.
  have hdrop {t₂ : Track} {w₂ : σ} (hw₂ : inv t₂ w₂) (hmem : path ∈ t₂.directories)
      (hhoused₂ : t₂.Housed) :
      ∃ t', inv t' (Site.drop x.lab { path := path } ⟨w₂, s.ledger.enter⟩).2.world ∧
        t'.Housed := by
    obtain ⟨t', hdropped, hhoused', -⟩ := Experiment.drop_tracked (fun hs hmem => hx.left hs hmem)
      { path := path } ⟨w₂, s.ledger.enter⟩ rfl hmem hw₂ hhoused₂
    exact ⟨t', hdropped, hhoused'⟩
  rcases hbuild : (x.build (.allTrusted .units (keysOf units)) trusted trusted path).run w₁ with
    ⟨f | made, w₂⟩
  · obtain ⟨rfl, hw₂⟩ := hx.unbuilt hw₁ List.mem_cons_self hempty hbuild
    obtain ⟨t', hdropped, hhoused'⟩ := hdrop hw₂ List.mem_cons_self hentered
    exact ⟨_, 0, 0, _, t', compute_lost hlist hmake (found_unbuilt hbuild), rfl, hdropped, hhoused'⟩
  have hw₂ := hx.stored hw₁ List.mem_cons_self hempty hbuild
  have hstored := hentered.store (q := ⟨path, .allTrusted .units (keysOf units), made⟩)
    List.mem_cons_self
  rcases hrun : (x.execute made.executable target path).run w₂ with ⟨f | ⟨text, ms⟩, w₃⟩
  · obtain ⟨rfl, hw₃⟩ := hx.failed hw₂ List.mem_cons_self hrun
    obtain ⟨t', hdropped, hhoused'⟩ := hdrop hw₃ List.mem_cons_self hstored
    exact ⟨_, 0, 0, _, t', compute_lost hlist hmake (found_ran hbuild hrun), rfl, hdropped,
      hhoused'⟩
  · obtain ⟨rfl, hw₃⟩ := hx.printed hw₂ List.mem_cons_self hrun
    obtain ⟨t', hdropped, hhoused'⟩ := hdrop hw₃ List.mem_cons_self hstored
    refine ⟨_, made.ms, ms, _, t', compute_found hlist hmake (found_ran hbuild hrun), ?_,
      hdropped, hhoused'⟩
    dsimp only
    cases x.lab.removal path w₃ <;> rfl

end Archive

end Culprit
