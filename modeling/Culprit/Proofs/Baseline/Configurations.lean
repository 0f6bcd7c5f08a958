import Culprit.Proofs.Session.Shelf
import Mathlib.Logic.Basic

/-!
Whose baseline is handed out. Slots are found by a text made of the flags, the precision and the
test, so a baseline was made for some inquiry with the same text; it is the right one whenever
these texts tell the configurations apart that were asked for.
-/

namespace Culprit

variable {σ : Type}

/-! ### Actions that come to a result -/

section Results

variable {τ α β ε ε' : Type} {s t : τ}

theorem ok_of_bind {a : ExceptT ε (StateM τ) α} {f : α → ExceptT ε (StateM τ) β} {r : β}
    (h : (a >>= f).run s = (.ok r, t)) :
    ∃ x s', a.run s = (.ok x, s') ∧ (f x).run s' = (.ok r, t) := by
  rw [ExceptT.run_bind] at h
  rcases ha : a.run s with ⟨e | x, s'⟩
  · rw [bind_of ha] at h
    cases h
  · rw [bind_of ha] at h
    exact ⟨x, s', rfl, h⟩

theorem ok_of_adapt {a : ExceptT ε (StateM τ) α} {f : ε → ε'} {x : α}
    (h : (ExceptT.adapt f a).run s = (.ok x, t)) : a.run s = (.ok x, t) := by
  have h' : (match a.run s with | (r, s') => (Except.mapError f r, s')) = (.ok x, t) := h
  rcases ha : a.run s with ⟨e | y, s'⟩ <;> rw [ha] at h' <;> cases h'
  rfl

theorem ok_of_lift {a : StateM τ α} {x : α}
    (h : (ExceptT.lift a : ExceptT ε (StateM τ) α).run s = (.ok x, t)) : a s = (x, t) := by
  have h' : ((.ok (a s).1 : Except ε α), (a s).2) = (.ok x, t) := h
  obtain ⟨hx, ht⟩ := Prod.mk.inj h'
  exact Prod.ext (Except.ok.inj hx) ht

/-- What was done outside, without the ledger. -/
theorem world_of_lift {a : StateM τ α} {x : α} {s t : Site τ} (h : Site.lift a s = (x, t)) :
    a s.world = (x, t.world) := by
  obtain ⟨hx, ht⟩ := Prod.mk.inj h
  exact Prod.ext hx (congrArg Site.world ht)

end Results

/-! ### The text of a configuration -/

theorem append_bar_inj {cs ds xs ys : List Char} (hcs : '|' ∉ cs) (hds : '|' ∉ ds)
    (h : cs ++ '|' :: xs = ds ++ '|' :: ys) : cs = ds ∧ xs = ys := by
  rcases List.append_eq_append_iff.mp h with ⟨more, rfl, hrest⟩ | ⟨more, rfl, hrest⟩
  · cases more with
    | nil => exact ⟨(List.append_nil cs).symm, (List.cons_eq_cons.mp hrest).2⟩
    | cons c more =>
        obtain ⟨rfl, -⟩ := List.cons_eq_cons.mp hrest
        simp at hds
  · cases more with
    | nil => exact ⟨List.append_nil ds, (List.cons_eq_cons.mp hrest).2.symm⟩
    | cons c more =>
        obtain ⟨rfl, -⟩ := List.cons_eq_cons.mp hrest
        simp at hcs

/-- Without a bar in flags and precisions the text tells what the flags look like, and the
target. -/
theorem Baselines.key_inj {flags flags' : Flags} {target target' : Target}
    (hflags : '|' ∉ flags.display.toList) (hflags' : '|' ∉ flags'.display.toList)
    (hprecision : '|' ∉ target.precision.toList) (hprecision' : '|' ∉ target'.precision.toList)
    (h : key flags target = key flags' target') :
    flags.display = flags'.display ∧ target = target' := by
  have htext := congrArg String.toList h
  simp only [key, String.toList_append, List.append_assoc] at htext
  obtain ⟨hshown, htext⟩ := append_bar_inj hflags hflags' htext
  obtain ⟨hprecise, htest⟩ := append_bar_inj hprecision hprecision' htext
  exact ⟨String.toList_inj.mp hshown,
    congrArg₂ Target.mk (String.toList_inj.mp htest) (String.toList_inj.mp hprecise)⟩

/-- A bar can belong to the precision as well as to the test. -/
theorem Baselines.key_moved (flags : Flags) (before between after : String) :
    key flags ⟨after, before ++ "|" ++ between⟩ = key flags ⟨between ++ "|" ++ after, before⟩ := by
  simp only [key, String.append_assoc]

/-! ### Where a baseline comes from -/

/-- What is asked of an archive. -/
structure Inquiry (σ : Type) where
  setup : Setup σ
  trusted : Flags
  target : Target

def Inquiry.key (q : Inquiry σ) : String :=
  Baselines.key q.trusted q.target

/-- All units were built with the flags of the baseline, and what was built was run for its target
in the directory of the build; that gave its output. -/
def Baseline.Made (x : Setup σ) (b : Baseline) : Prop :=
  ∃ (units : List SourceUnit) (dir : String) (made : Built) (w w₁ w₂ w₃ w₄ : σ),
    x.lab.pipeline.units.runOn w = (.ok units, w₁) ∧
    (x.build (.allTrusted .units (keysOf units)) b.flags b.flags dir).run w₂ = (.ok made, w₃) ∧
    (x.execute made.executable b.target dir).run w₃ = (.ok (b.output, b.runMs), w₄) ∧
    made.ms = b.buildMs

/-- The verdict was reached for this inquiry. -/
def Inquiry.Reaches (q : Inquiry σ) (v : Verdict) : Prop :=
  ∃ site, ((Archive.compute q.setup q.trusted q.target).run site).1 = v

/-- The baseline is for the very configuration that was asked for. -/
structure Inquiry.Owns (q : Inquiry σ) (b : Baseline) : Prop where
  flags : b.flags = q.trusted
  target : b.target = q.target
  made : b.Made q.setup

theorem compute_ok {x : Setup σ} {trusted : Flags} {target : Target} {site site' : Site σ}
    {b : Baseline} (h : (Archive.compute x trusted target).run site = (.ok b, site')) :
    b.flags = trusted ∧ b.target = target ∧ b.Made x := by
  rw [Archive.compute] at h
  obtain ⟨units, s₁, hunits, h⟩ := ok_of_bind h
  obtain ⟨w, s₂, -, h⟩ := ok_of_bind h
  obtain ⟨made, s₃, hmade, h⟩ := ok_of_bind h
  cases made with
  | error detail =>
      obtain ⟨_, _, -, h⟩ := ok_of_bind h
      cases h
  | ok b' =>
      obtain ⟨⟨released, w'⟩, s₄, -, h⟩ := ok_of_bind h
      cases released with
      | error e => cases h
      | ok _ =>
          obtain rfl : b' = b := Except.ok.inj (Prod.mk.inj h).1
          obtain ⟨built, w₃, hbuild, hrun⟩ :=
            ok_of_bind (ok_of_adapt (world_of_lift (ok_of_lift hmade)))
          obtain ⟨⟨output, ms⟩, w₄, hexecute, hpure⟩ := ok_of_bind hrun
          obtain rfl := Except.ok.inj (Prod.mk.inj hpure).1
          exact ⟨rfl, rfl, ⟨units, w.path, built, site.world, s₁.world, s₂.world, w₃, w₄,
            world_of_lift (ok_of_adapt hunits), hbuild, hexecute, rfl⟩⟩

/-! ### Slots -/

namespace Baselines

variable {asked : List (Inquiry σ)} {b : Baselines}

/-- Every verdict was reached for an inquiry with the text of its slot. -/
def Justified (asked : List (Inquiry σ)) (b : Baselines) : Prop :=
  ∀ key v, (key, some v) ∈ b.slots → ∃ q ∈ asked, q.key = key ∧ q.Reaches v

theorem Justified.empty : Justified asked Baselines.empty :=
  fun _ _ hslot => absurd hslot List.not_mem_nil

theorem Justified.ask (h : b.Justified asked) (q : Inquiry σ) : b.Justified (q :: asked) := by
  intro key v hslot
  obtain ⟨q', hq', hreached⟩ := h key v hslot
  exact ⟨q', List.mem_cons_of_mem _ hq', hreached⟩

theorem Justified.reserve (h : b.Justified asked) (key : String) :
    (b.reserve key).Justified asked := by
  rw [Baselines.reserve]
  split
  · exact h
  · intro key' v hslot
    rcases List.mem_append.mp hslot with hslot | hslot
    · exact h key' v hslot
    · simp at hslot

theorem Justified.store (h : b.Justified asked) {q : Inquiry σ} {v : Verdict} (hq : q ∈ asked)
    (hv : q.Reaches v) : (b.store q.key v).Justified asked := by
  intro key v' hslot
  obtain ⟨⟨key', old⟩, hold, heq⟩ := List.mem_map.mp hslot
  split at heq
  · next hkey =>
      obtain ⟨rfl, hv'⟩ := Prod.mk.inj heq
      obtain rfl := Option.some.inj hv'
      exact ⟨q, hq, hkey.symm, hv⟩
  · obtain ⟨rfl, rfl⟩ := Prod.mk.inj heq
    exact h key' v' hold

theorem mem_slots_of_slot? {key : String} {v : Option Verdict} (h : b.slot? key = some v) :
    (key, v) ∈ b.slots := by
  obtain ⟨before, after, heq, -⟩ := List.lookup_eq_some_iff.mp h
  rw [heq]
  exact List.mem_append_right _ List.mem_cons_self

theorem slot?_of_cached {flags : Flags} {target : Target} {baseline : Baseline}
    (h : b.cached flags target = some baseline) :
    b.slot? (key flags target) = some (some (.ok baseline)) := by
  rw [cached] at h
  split at h
  · next hslot => rw [hslot, Option.some.inj h]
  · cases h

end Baselines

/-! ### One request -/

namespace Archive

variable {s : Archive σ} {q : Inquiry σ}

theorem onSite_eq {α : Type} {a : StateM (Site σ) α} {r : α} {site : Site σ}
    (h : a s.site = (r, site)) : onSite a s = (r, { s with site := site }) := by
  rw [onSite, h]

/-- What is left of the archive after a look at the request to stop. -/
def keep (s : Archive σ) (q : Inquiry σ) (v : Verdict) (stop : Bool) : Archive σ :=
  if stop then s else { s with baselines := s.baselines.store q.key v }

theorem decide_known {v : Verdict} (h : s.baselines.slot? q.key = some (some v)) :
    decide q.setup q.trusted q.target s = (v, s) := by
  rw [decide]
  refine (bind_of (rfl : (get : StateM (Archive σ) _) s = (s, s))).trans ?_
  rw [← Inquiry.key, h]
  rfl

theorem decide_new {v : Verdict} {site : Site σ} {stop : Bool} {w : σ}
    (h : ∀ v, s.baselines.slot? q.key ≠ some (some v))
    (hran : (compute q.setup q.trusted q.target).run s.site = (v, site))
    (hlook : q.setup.lab.cancelled site.world = (stop, w)) :
    decide q.setup q.trusted q.target s =
      (v, keep ⟨{ site with world := w }, s.baselines.countBuild⟩ q v stop) := by
  rw [decide]
  refine (bind_of (rfl : (get : StateM (Archive σ) _) s = (s, s))).trans ?_
  rw [← Inquiry.key]
  rcases hslot : s.baselines.slot? q.key with _ | _ | v'
  case some.some => exact absurd hslot (h v')
  -- Without a slot and with an empty one alike.
  all_goals
    refine (bind_of (rfl : modifyBaselines Baselines.countBuild s =
      ((), { s with baselines := s.baselines.countBuild }))).trans ?_
    refine (bind_of (onSite_eq (s := ⟨s.site, s.baselines.countBuild⟩) hran)).trans ?_
    refine (bind_of (onSite_eq (Site.lift_eq hlook))).trans ?_
    cases stop <;> rfl

variable {asked : List (Inquiry σ)}

/-- A verdict was reached for an inquiry with the same text. -/
theorem decide_justified (h : s.baselines.Justified asked) (hq : q ∈ asked) :
    (∃ q' ∈ asked, q'.key = q.key ∧ q'.Reaches (decide q.setup q.trusted q.target s).1) ∧
      (decide q.setup q.trusted q.target s).2.baselines.Justified asked := by
  by_cases hknown : ∃ v, s.baselines.slot? q.key = some (some v)
  · obtain ⟨v, hslot⟩ := hknown
    rw [decide_known hslot]
    exact ⟨h q.key v (Baselines.mem_slots_of_slot? hslot), h⟩
  · rcases hran : (compute q.setup q.trusted q.target).run s.site with ⟨v, site⟩
    rcases hlook : q.setup.lab.cancelled site.world with ⟨stop, w⟩
    have hreached : q.Reaches v := ⟨s.site, congrArg Prod.fst hran⟩
    rw [decide_new (not_exists.mp hknown) hran hlook]
    refine ⟨⟨q, hq, rfl, hreached⟩, ?_⟩
    cases stop with
    | true => exact h
    | false => exact Baselines.Justified.store (b := s.baselines.countBuild) h hq hreached

theorem establish_eq {v : Verdict} {s₁ : Archive σ}
    (h : decide q.setup q.trusted q.target { s with baselines := s.baselines.reserve q.key } =
      (v, s₁)) :
    (establish q.setup q.trusted q.target).runOn s =
      (v.mapError (.baseline (q.target.display ++ " with " ++ q.trusted.display)), s₁) := by
  rw [establish, Attempt.runOn_lift_bind, Attempt.runOn_lift_bind]
  have hreserved : (modifyBaselines (·.reserve q.key) s).2 =
    { s with baselines := s.baselines.reserve q.key } := rfl
  rw [← Inquiry.key, hreserved, h]
  cases v <;> rfl

theorem establish_justified (h : s.baselines.Justified asked) (hq : q ∈ asked) :
    (∀ b s', (establish q.setup q.trusted q.target).runOn s = (.ok b, s') →
      ∃ q' ∈ asked, q'.key = q.key ∧ q'.Reaches (.ok b)) ∧
      ((establish q.setup q.trusted q.target).runOn s).2.baselines.Justified asked := by
  obtain ⟨hreached, hkept⟩ := decide_justified
    (s := { s with baselines := s.baselines.reserve q.key }) (h.reserve q.key) hq
  rw [establish_eq (Prod.eta _).symm]
  refine ⟨fun b s' heq => ?_, hkept⟩
  cases hv : (decide q.setup q.trusted q.target
    { s with baselines := s.baselines.reserve q.key }).1 with
  | ok b' =>
      rw [hv] at heq hreached
      obtain rfl := Except.ok.inj (Prod.mk.inj heq).1
      exact hreached
  | error detail =>
      rw [hv] at heq
      cases (Prod.mk.inj heq).1

end Archive

/-! ### Series of requests -/

/-- What an archive can be like after these inquiries, the last one first. Between two of them
anything may happen outside. -/
inductive History : List (Inquiry σ) → Archive σ → Prop
  | start (site : Site σ) : History [] ⟨site, .empty⟩
  | meanwhile {asked : List (Inquiry σ)} {s : Archive σ} (site : Site σ) :
      History asked s → History asked { s with site := site }
  | establish {asked : List (Inquiry σ)} {s : Archive σ} (q : Inquiry σ) : History asked s →
      History (q :: asked) ((Archive.establish q.setup q.trusted q.target).runOn s).2

variable {asked : List (Inquiry σ)} {s : Archive σ}

theorem History.justified (h : History asked s) : s.baselines.Justified asked := by
  induction h with
  | start site => exact Baselines.Justified.empty
  | meanwhile site _ ih => exact ih
  | establish q _ ih => exact (Archive.establish_justified (ih.ask q) List.mem_cons_self).2

theorem Inquiry.Reaches.owns {q : Inquiry σ} {b : Baseline} (h : q.Reaches (.ok b)) :
    q.Owns b := by
  obtain ⟨site, hrun⟩ := h
  obtain ⟨hflags, htarget, hmade⟩ := compute_ok (Prod.ext hrun rfl)
  exact ⟨hflags, htarget, hmade⟩

/-- A baseline that is handed out or looked up belongs to some inquiry with the text of the one at
hand. -/
theorem History.owned (h : History asked s) (q : Inquiry σ) :
    (∀ b s', (Archive.establish q.setup q.trusted q.target).runOn s = (.ok b, s') →
      ∃ q' ∈ q :: asked, q'.key = q.key ∧ q'.Owns b) ∧
    ∀ b, s.baselines.cached q.trusted q.target = some b →
      ∃ q' ∈ asked, q'.key = q.key ∧ q'.Owns b := by
  refine ⟨fun b s' heq => ?_, fun b hcached => ?_⟩
  · obtain ⟨q', hq', hkey, hreached⟩ :=
      (Archive.establish_justified (h.justified.ask q) List.mem_cons_self).1 b s' heq
    exact ⟨q', hq', hkey, hreached.owns⟩
  · obtain ⟨q', hq', hkey, hreached⟩ := h.justified q.key (.ok b)
      (Baselines.mem_slots_of_slot? (Baselines.slot?_of_cached hcached))
    exact ⟨q', hq', hkey, hreached.owns⟩

/-- When no other configuration with the same text was asked for, a baseline that is handed out or
looked up is the one of the configuration at hand: all units were built with exactly these flags,
and the output is that of a run for exactly this test and precision. -/
theorem establish_own (h : History asked s) (q : Inquiry σ)
    (hapart : ∀ q' ∈ asked, q'.key = q.key → q'.trusted = q.trusted ∧ q'.target = q.target) :
    (∀ b s', (Archive.establish q.setup q.trusted q.target).runOn s = (.ok b, s') →
      b.flags = q.trusted ∧ b.target = q.target ∧ ∃ q' ∈ q :: asked, b.Made q'.setup) ∧
    ∀ b, s.baselines.cached q.trusted q.target = some b →
      b.flags = q.trusted ∧ b.target = q.target ∧ ∃ q' ∈ asked, b.Made q'.setup := by
  obtain ⟨hestablished, hcached⟩ := h.owned q
  refine ⟨fun b s' heq => ?_, fun b heq => ?_⟩
  · obtain ⟨q', hq', hkey, howns⟩ := hestablished b s' heq
    obtain ⟨htrusted, htarget⟩ : q'.trusted = q.trusted ∧ q'.target = q.target := by
      rcases List.mem_cons.mp hq' with rfl | hq'
      · exact ⟨rfl, rfl⟩
      · exact hapart q' hq' hkey
    exact ⟨howns.flags.trans htrusted, howns.target.trans htarget, q', hq', howns.made⟩
  · obtain ⟨q', hq', hkey, howns⟩ := hcached b heq
    obtain ⟨htrusted, htarget⟩ := hapart q' hq' hkey
    exact ⟨howns.flags.trans htrusted, howns.target.trans htarget, q', hq', howns.made⟩

/-- One file, whose test prints an x. -/
def oneTest : Scenario where
  units := [⟨"a.c"⟩]
  symbols := fun _ => []
  ends := fun _ => .ok ⟨.code 0, "x", "", 1⟩
  stops := fun _ => false

/-- An inquiry about the file with the flags that the scenario trusts. -/
def Inquiry.about (test precision : String) : Inquiry Shelf :=
  ⟨oneTest.experiment.toSetup, oneTest.experiment.trusted, ⟨test, precision⟩⟩

/-- After an inquiry about the test t with double precision. -/
def afterFirst : Archive Shelf :=
  ((Archive.establish oneTest.experiment.toSetup oneTest.experiment.trusted
    ⟨"t", "double"⟩).runOn ⟨⟨.empty, .empty⟩, .empty⟩).2

theorem establish_own_secondTest :
    ∃ b s', (Archive.establish oneTest.experiment.toSetup oneTest.experiment.trusted
        ⟨"t", "float"⟩).runOn afterFirst = (.ok b, s') ∧
      b.flags = oneTest.experiment.trusted ∧ b.target = ⟨"t", "float"⟩ ∧ b.output = "x" := by
  have hhistory : History [Inquiry.about "t" "double"] afterFirst :=
    History.establish (.about "t" "double") (.start ⟨Shelf.empty, .empty⟩)
  have hapart : ∀ q' ∈ [Inquiry.about "t" "double"], q'.key = (Inquiry.about "t" "float").key →
      q'.trusted = (Inquiry.about "t" "float").trusted ∧
        q'.target = (Inquiry.about "t" "float").target := by
    intro q' hq' hkey
    obtain rfl := List.mem_singleton.mp hq'
    exact ⟨rfl, (Baselines.key_inj (by decide) (by decide) (by decide) (by decide) hkey).2⟩
  obtain ⟨hflags, htarget, -⟩ :=
    (establish_own hhistory (.about "t" "float") hapart).1 _ _ rfl
  exact ⟨_, _, rfl, hflags, htarget, rfl⟩

/-- Where a bar moves from the precision to the test, the baseline of another test is handed out. -/
theorem establish_moved :
    let first := (Archive.establish oneTest.experiment.toSetup oneTest.experiment.trusted
      ⟨"c", "a|b"⟩).runOn ⟨⟨.empty, .empty⟩, .empty⟩
    ((Archive.establish oneTest.experiment.toSetup oneTest.experiment.trusted
      ⟨"b|c", "a"⟩).runOn first.2).1.map (·.target) = .ok ⟨"c", "a|b"⟩ := by
  rfl

end Culprit
