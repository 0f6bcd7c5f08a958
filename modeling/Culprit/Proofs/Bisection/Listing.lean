import Culprit.Proofs.Session.Batch
import Culprit.Proofs.Session.Shelf

/-!
The symbols of a unit between two batches. Of the listed symbols the first of each name is kept;
the listing has a directory of its own, which is gone before the next trial.
-/

namespace Culprit

variable {σ : Type}

namespace LinkSymbol

theorem nodup_distinct (seen : List String) (symbols : List LinkSymbol) :
    ((distinct seen symbols).map (·.name)).Nodup ∧
      ∀ s ∈ distinct seen symbols, s.name ∉ seen := by
  induction symbols generalizing seen with
  | nil => exact ⟨List.nodup_nil, fun s hs => absurd hs List.not_mem_nil⟩
  | cons s rest ih =>
      rw [distinct]
      split
      · exact ih seen
      · next hnew =>
          obtain ⟨hnodup, hunseen⟩ := ih (s.name :: seen)
          refine ⟨List.nodup_cons.mpr ⟨fun hmem => ?_, hnodup⟩, ?_⟩
          · obtain ⟨s', hs', hsame⟩ := List.mem_map.mp hmem
            exact hunseen s' hs' (hsame ▸ List.mem_cons_self)
          · exact List.forall_mem_cons.mpr
              ⟨hnew, fun s' hs' hmem => hunseen s' hs' (List.mem_cons_of_mem _ hmem)⟩

/-- Of the symbols of one name the first stays. -/
theorem find?_distinct {seen : List String} {name : String} (hnew : name ∉ seen)
    (symbols : List LinkSymbol) :
    (distinct seen symbols).find? (·.name = name) = symbols.find? (·.name = name) := by
  induction symbols generalizing seen with
  | nil => rfl
  | cons s rest ih =>
      rw [distinct]
      split
      · next hseen =>
          have hne : s.name ≠ name := fun heq => hnew (heq ▸ hseen)
          rw [ih hnew, List.find?_cons_of_neg (by simpa using hne)]
      · by_cases hname : s.name = name
        · rw [List.find?_cons_of_pos (by simpa using hname),
            List.find?_cons_of_pos (by simpa using hname)]
        · rw [List.find?_cons_of_neg (by simpa using hname),
            List.find?_cons_of_neg (by simpa using hname)]
          exact ih (List.not_mem_cons_of_ne_of_not_mem (Ne.symm hname) hnew)

theorem mem_names_distinct {symbols : List LinkSymbol} {name : String}
    (h : name ∈ symbols.map (·.name)) : name ∈ (distinct [] symbols).map (·.name) := by
  obtain ⟨s, hs, rfl⟩ := List.mem_map.mp h
  have hfind : (distinct [] symbols).find? (·.name = s.name) = symbols.find? (·.name = s.name) :=
    find?_distinct List.not_mem_nil symbols
  cases hfound : symbols.find? (·.name = s.name) with
  | none => simpa using List.find?_eq_none.mp hfound s hs
  | some s' =>
      rw [hfound] at hfind
      have hname : s'.name = s.name := by simpa using List.find?_some hfound
      exact List.mem_map.mpr ⟨s', List.mem_of_find?_eq_some hfind, hname⟩

end LinkSymbol

/-! ### Listing on a steady outside -/

namespace Site

variable {lab : Lab σ} {path : String} {s : Site σ} {w₁ w₂ : σ}

theorem drop_eq_release (w : Workspace) (s : Site σ) :
    drop lab w s = ((), (release lab w s).2) := rfl

theorem release_fst (hremoved : ((lab.removeDirectory path).runOn s.world).1 = .ok ()) :
    (release lab { path := path } s).1.1 = .ok () := by
  cases hdel : lab.deletes
  · simp [release, hdel]
    rfl
  · simp [release, hdel]
    exact hremoved

theorem within_ok {α : Type} (label : String) (body : String → Attempt σ α) {a : α}
    (hmake : (lab.makeDirectory (Workspace.cleanLabel label ++ "-")).runOn s.world =
      (.ok path, w₁))
    (hbody : (body path).runOn w₁ = (.ok a, w₂))
    (hremoved : ((lab.removeDirectory path).runOn w₂).1 = .ok ()) :
    (within lab label body).runOn s =
      (.ok a, (drop lab { path := path } ⟨w₂, s.ledger.enter⟩).2) := by
  have hdone : lift (body path).result ⟨w₁, s.ledger.enter⟩ = (.ok a, ⟨w₂, s.ledger.enter⟩) :=
    lift_eq hbody
  have hreleased := release_fst (s := ⟨w₂, s.ledger.enter⟩) hremoved
  rw [drop_eq_release]
  rcases hrelease : release lab { path := path } ⟨w₂, s.ledger.enter⟩ with ⟨⟨released, w⟩, site⟩
  obtain rfl : released = .ok () := by rw [← hreleased, hrelease]
  rw [within, Attempt.runOn_bind, acquire_ok lab hmake]
  simp only [Attempt.runOn_lift_bind, hdone, hrelease]
  rfl

end Site

/-- The symbols of a unit can be listed in any fresh directory. -/
structure Engine.Lists (e : Engine σ) (inv : Track → σ → Prop) (unit : SourceUnit)
    (symbols : List LinkSymbol) : Prop where
  made {t : Track} {w : σ} : inv t w → ∃ path w', (e.lab.makeDirectory
    (Workspace.cleanLabel ("symbols-" ++ unit.objectStem) ++ "-")).runOn w = (.ok path, w')
  listed {t : Track} {w : σ} {dir : String} : inv t w → dir ∈ t.directories →
    (∀ q ∈ t.products, q.workdir ≠ dir) → ∃ w',
      (e.lab.pipeline.symbols unit e.trusted dir e.buildTimeout).runOn w = (.ok symbols, w') ∧
      inv t w'
  removed {t : Track} {w : σ} {dir : String} : inv t w → dir ∈ t.directories →
    ((e.lab.removeDirectory dir).runOn w).1 = .ok ()

/-- A series of trials between two batches. -/
def Session.Idle (domain : Partition → Prop) (truth : Partition → Outcome)
    (inv : Track → σ → Prop) (s : Session σ) : Prop :=
  ∃ asked t, Underway domain truth inv asked [] t s

variable {e : Engine σ} {x : Experiment σ} {domain : Partition → Prop}
  {truth : Partition → Outcome} {inv : Track → σ → Prop} {s : Session σ}

/-- The directory of a listing comes and goes. -/
theorem runOn_within_symbols (hx : x.Steady domain truth inv) (hlab : x.lab = e.lab)
    {unit : SourceUnit} {symbols : List LinkSymbol} (hlists : e.Lists inv unit symbols) {t : Track}
    {s : Site σ} (hs : inv t s.world) (hhoused : t.Housed) :
    ∃ t' s', (Site.within e.lab ("symbols-" ++ unit.objectStem) fun workdir =>
        e.lab.pipeline.symbols unit e.trusted workdir e.buildTimeout).runOn s =
          (.ok symbols, s') ∧
      inv t' s'.world ∧ t'.Housed ∧ t'.built = t.built ∧ t'.ran = t.ran := by
  obtain ⟨path, w₁, hmake⟩ := hlists.made hs
  obtain ⟨hfresh, hw₁⟩ := hx.entered hs (hlab ▸ hmake)
  obtain ⟨w₂, hlisted, hw₂⟩ :=
    hlists.listed hw₁ List.mem_cons_self (hhoused.workdir_ne hfresh)
  have hremoved := hlists.removed hw₂ List.mem_cons_self
  obtain ⟨t', hw₃, hhoused', hbuilt, hran, -⟩ := Experiment.drop_steady (t := t.enter path) hx
    { path := path } ⟨w₂, s.ledger.enter⟩ rfl List.mem_cons_self hw₂ (hhoused.enter path)
  exact ⟨t', _, Site.within_ok ("symbols-" ++ unit.objectStem) _ hmake hlisted hremoved,
    hlab ▸ hw₃, hhoused', hbuilt, hran⟩

theorem listSymbols_idle (hx : x.Steady domain truth inv) (hlab : x.lab = e.lab)
    (htimeout : x.buildTimeout = e.buildTimeout) {unit : SourceUnit} {symbols : List LinkSymbol}
    (hlists : e.Lists inv unit symbols) (hs : s.Idle domain truth inv) :
    ∃ s', e.listSymbols x unit s = (.ok (LinkSymbol.distinct [] symbols), s') ∧
      s'.Idle domain truth inv := by
  obtain ⟨asked, t, h⟩ := hs
  obtain ⟨t', site, hwithin, hworld, hhoused, hbuilt, hran⟩ :=
    runOn_within_symbols hx hlab hlists h.world h.housed
  rw [← htimeout] at hwithin
  exact ⟨_, bind_of (Session.onSite_eq hwithin), asked, t', h.rest hworld hhoused hbuilt hran⟩

theorem Scenario.lists (c : Scenario) (start : Shelf) (unit : SourceUnit) :
    c.engine.Lists (c.Agrees start) unit (c.symbols unit) where
  made {_ w} _ := ⟨_, _, Scenario.makeDirectory_eq _ w⟩
  listed {_ w _} hw _ _ := ⟨w, rfl, hw⟩
  removed _ _ := rfl

end Culprit
