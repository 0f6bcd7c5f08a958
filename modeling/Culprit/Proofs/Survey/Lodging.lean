import Culprit.Proofs.Bisection.Lodging
import Culprit.Proofs.Survey.Serial
import Culprit.Proofs.Workspace.Yard

/-!
The directories of a survey. However a row ends, it has given back what it took; so a survey ends
with as many in use as it began with and, where directories are removed, with those that were there
before. When rows are bisected at the same time, what one of them sees of this is changed by the
others alone.
-/

namespace Culprit

variable {σ β : Type} {inv : Multiset String → σ → Prop} {n : Nat}

/-! ### Room for a bisection -/

namespace Interaction

/-- Room for the two halves of a set, and for each set whose members were tried one at a time. -/
def room (is : List Interaction) : Nat :=
  is.foldr (fun i room => max i.members.length room) 2

theorem two_le_room (is : List Interaction) : 2 ≤ room is := by
  induction is with
  | nil => exact Nat.le_refl 2
  | cons i is ih => exact ih.trans (Nat.le_max_right _ _)

theorem fit_room (is : List Interaction) : Fit (room is) is := by
  induction is with
  | nil => exact fun i hi => absurd hi List.not_mem_nil
  | cons i is ih =>
      refine List.forall_mem_cons.mpr ⟨Nat.le_max_left _ _, fun j hj => ?_⟩
      exact (ih j hj).trans (Nat.le_max_right _ _)

end Interaction

namespace Engine

/-- The room that a bisection takes, by what it comes to. -/
def room : Except Error Report → Nat
  | .ok r => Interaction.room r.interactions
  | .error _ => 2

theorem two_le_room (done : Except Error Report) : 2 ≤ room done := by
  cases done with
  | ok r => exact Interaction.two_le_room r.interactions
  | error fault => exact Nat.le_refl 2

theorem fit_room {done : Except Error Report} {r : Report} (h : done = .ok r) :
    Interaction.Fit (room done) r.interactions := by
  subst h
  exact Interaction.fit_room r.interactions

end Engine

/-! ### Sites where nothing is left behind -/

/-- So many directories are in use, and outside it is as if none of them were. -/
structure Site.Vacant (inv : Multiset String → σ → Prop) (n : Nat) (s : Site σ) : Prop where
  world : inv 0 s.world
  active : s.ledger.active = n

namespace Site

theorem Lodged.vacant {base : Ledger} {room : Nat} {s : Site σ} (h : s.Lodged inv base room 0) :
    s.Vacant inv base.active :=
  ⟨h.world, h.active⟩

/-- What gives back all that it takes, whatever was in use before. -/
theorem vacant_of_lodged {α : Type} {a : StateM (Site σ) α} (room : Nat)
    (ha : ∀ base, Preserves (Lodged inv base room 0) a) : Preserves (Vacant inv n) a := by
  intro s h
  rw [← h.active]
  exact (ha s.ledger s (.start h.world)).vacant

theorem lift_vacant {α : Type} {a : StateM σ α}
    (ha : ∀ w, (fun held => inv held (a w).2) = fun held => inv held w) :
    Preserves (Vacant inv n) (lift a) :=
  vacant_of_lodged 0 fun _ => lift_lodged ha

end Site

/-- With no directories in use but those that were before, `what` shows what it showed before. -/
def Lab.Balances (lab : Lab σ) (what : Site σ → β) : Prop :=
  ∀ s : Site σ, ∃ inv, lab.Houses inv ∧ inv 0 s.world ∧
    ∀ s' : Site σ, s'.Vacant inv s.ledger.active → what s' = what s

namespace Lab

variable {lab : Lab σ}

theorem balances_active (lab : Lab σ) : lab.Balances fun s => s.ledger.active :=
  fun _ => ⟨_, lab.houses_true, trivial, fun _ h => h.active⟩

theorem Furnishes.balances {dirs : σ → Set String} (h : lab.Furnishes dirs)
    (hdeletes : lab.deletes = true)
    (hremoves : ∀ path w, path ∈ dirs w → ((lab.removeDirectory path).runOn w).1 = .ok ()) :
    lab.Balances fun s => dirs s.world := by
  intro s
  have hnone (before : Set String) : before ∪ {d | d ∈ (0 : Multiset String)} = before := by simp
  refine ⟨_, h.houses hdeletes hremoves (dirs s.world), ?_, fun s' h' => ?_⟩
  · exact ⟨(hnone _).symm, fun d hd => absurd hd (Multiset.notMem_zero d), Multiset.nodup_zero⟩
  · exact h'.world.there.trans (hnone _)

/-- What gives back all that it takes changes nothing of it. -/
theorem Balances.eq {what : Site σ → β} (h : lab.Balances what) {s s' : Site σ}
    (hs : ∀ inv n, lab.Houses inv → s.Vacant inv n → s'.Vacant inv n) : what s' = what s := by
  obtain ⟨inv, hhouses, hbefore, hsame⟩ := h s
  exact hsame s' (hs inv _ hhouses ⟨hbefore, rfl⟩)

end Lab

/-! ### Bisections -/

namespace Engine

variable {e : Engine σ}

theorem phases_vacant (hlab : e.lab.Houses inv) {q : Request} {baseline : Baseline}
    {units : List SourceUnit} {r : Report} {s : Site σ} {done : Except Error Report}
    {session : Session σ} (h : s.Vacant inv n)
    (hphases : (e.phases (e.experiment q baseline) units r).runOn (.start s) = (done, session)) :
    session.site.Vacant inv n := by
  have hstart : (Session.start s).Lodged inv s.ledger (room done) 0 := .start h.world
  have hlodged := phases_lodged hlab (two_le_room done) q baseline units r hstart
    fun r' s' heq => by
      rw [hphases] at heq
      exact fit_room (congrArg Prod.fst heq)
  rw [hphases] at hlodged
  rw [← h.active]
  exact hlodged.vacant

/-- A bisection has at most this many directories of its own at one time. -/
theorem bisect_room (hlab : e.lab.Houses inv) (q : Request) {s : Archive σ}
    (h : inv 0 s.site.world) : ((e.bisect q).runOn s).2.Lodged inv s.site.ledger
      (room ((e.bisect q).runOn s).1) :=
  bisect_lodged hlab (two_le_room _) q (.start h) fun _ _ heq => fit_room (congrArg Prod.fst heq)

theorem bisect_vacant (hlab : e.lab.Houses inv) (q : Request) :
    Preserves (fun s => s.site.Vacant inv n) (e.bisect q).run := by
  intro s h
  have hlodged := e.bisect_room hlab q h.world
  rw [← h.active]
  exact hlodged.vacant

end Engine

namespace Survey

variable {e : Engine σ} {o : SurveyOptions} {rows : List ResultRow}

/-! ### Rows -/

theorem prepare_vacant (hlab : e.lab.Houses inv) (row : ResultRow) :
    Preserves (Site.Vacant inv n) (prepare e o row) := by
  have hlook := Site.lift_vacant (n := n) hlab.spares.cancelled
  have hnow := Site.lift_vacant (n := n) hlab.spares.now
  have hunits := Site.lift_vacant (n := n) hlab.spares.units
  have hread : Preserves (Site.Vacant inv n) (get : StateM (Site σ) (Site σ)) := fun s h => h
  refine Preserves.bind hlook fun stop => Preserves.bind hread fun _ => Preserves.bind hnow ?_
  intro now
  split
  · exact Preserves.ret _
  · refine Preserves.bind hunits fun listed => ?_
    split
    · exact Preserves.ret _
    · exact Preserves.bind hread fun _ => Preserves.bind hnow fun _ => Preserves.ret _

theorem Concludes.vacant {row : ResultRow} {now : String} {units : List SourceUnit} {v : Verdict}
    {r : Report} {site last site' : Site σ} (hlab : e.lab.Houses inv)
    (h : Concludes e o row now units site v r last site') (hsite : site.Vacant inv n) :
    site'.Vacant inv n := by
  cases h with
  | refused hlater => exact (Site.lift_vacant hlab.spares.now).of_eq (Site.lift_eq hlater) hsite
  | report hphases hlook =>
      have hdone := Engine.phases_vacant hlab hsite hphases
      exact (Site.lift_vacant hlab.spares.cancelled).of_eq (Site.lift_eq hlook) hdone
  | fault hphases hlater =>
      have hdone := Engine.phases_vacant hlab hsite hphases
      exact (Site.lift_vacant hlab.spares.now).of_eq (Site.lift_eq hlater) hdone

theorem bisectRow_vacant (hlab : e.lab.Houses inv) (row : ResultRow) :
    Preserves (fun s => s.site.Vacant inv n) (bisectRow e o row) := by
  have honSite {α : Type} {a : StateM (Site σ) α} (ha : Preserves (Site.Vacant inv n) a) :
      Preserves (fun s : Archive σ => s.site.Vacant inv n) (Archive.onSite a) := fun s h => ha _ h
  have hlook := honSite (Site.lift_vacant hlab.spares.cancelled)
  have hnow := honSite (Site.lift_vacant hlab.spares.now)
  refine Preserves.bind hlook fun stop => ?_
  split
  · exact Preserves.bind hnow fun _ => Preserves.ret _
  · refine Preserves.bind (Engine.bisect_vacant hlab (request o row)) fun done => ?_
    cases done with
    | ok r => exact Preserves.ret _
    | error fault => exact Preserves.bind hnow fun _ => Preserves.ret _

theorem Act.vacant {job : ResultRow × Nat} {f f' : Floor σ} (hlab : e.lab.Houses inv)
    (h : Act e o rows job f f') (hview : (f.station job.2).view.Vacant inv n) :
    (f'.station job.2).view.Vacant inv n := by
  cases h with
  | prepare haway hprepare =>
      rw [Floor.put_self]
      exact (prepare_vacant hlab job.1).of_eq hprepare hview
  | leave hbuilding hran hlook =>
      have hcompute : Preserves (Site.Vacant inv n) (Archive.compute (inquiry e o job.1).setup
          (inquiry e o job.1).trusted (inquiry e o job.1).target).run :=
        Site.vacant_of_lodged 1 fun _ => Archive.compute_lodged hlab Nat.one_pos _ _
      have hbuilt := hcompute.of_eq hran hview
      rw [Floor.put_self]
      exact (Site.lift_vacant hlab.spares.cancelled).of_eq (Site.lift_eq hlook) hbuilt
  | conclude hasking hverdict hconclude =>
      rw [Floor.put_self]
      exact (concludes hconclude).vacant hlab hview
  | _ =>
      rw [Floor.put_self]
      exact hview

/-! ### Whole surveys -/

/-- What the others can make of what `what` shows. -/
def Elsewhere (may : Bearing σ → Site σ → Site σ → Prop) (what : Site σ → β) (shown shown' : β) :
    Prop :=
  ∃ b view view', may b view view' ∧ what view = shown ∧ what view' = shown'

/-- Whatever runs, and however it ends, what `what` shows is the same as before. When rows are
bisected at the same time, no action of a row changes it, whatever the others have in use then, and
it is the others alone who change what a row sees of it. -/
structure Restores (e : Engine σ) (o : SurveyOptions) (rows : List ResultRow)
    (what : Site σ → β) : Prop where
  bisect (q : Request) (s : Archive σ) : what ((e.bisect q).runOn s).2.site = what s.site
  moment (s : Archive σ) (schedule : List Nat) :
    what (moment e o rows s schedule).state.site = what s.site
  run (s : Archive σ) : what (run e o rows s).2.site = what s.site
  act {job : ResultRow × Nat} {f f' : Floor σ} : Act e o rows job f f' →
    what (f'.station job.2).view = what (f.station job.2).view
  overlap {archive : Archive σ} {may : Bearing σ → Site σ → Site σ → Prop} {p : Crew σ} :
    Steps e o rows may (opening e o rows archive) p → ∀ k : Nat,
      Relation.ReflTransGen (Elsewhere may what) (what archive.site)
        (what (p.state.station k).view)

theorem moment_vacant (hlab : e.lab.Houses inv) {s : Archive σ} (h : s.site.Vacant inv n)
    (schedule : List Nat) : (moment e o rows s schedule).state.site.Vacant inv n :=
  (Pool.accounts_start s).state_run (I := fun s => s.site.Vacant inv n) (steadfast_shift e o)
    (labelled_shift e o) (fun job _ s hs => bisectRow_vacant hlab job.1 s hs) schedule h

theorem run_vacant (hlab : e.lab.Houses inv) :
    Preserves (fun s => s.site.Vacant inv n) (run e o rows) :=
  fun _ h => Site.lift_vacant hlab.spares.now _ (moment_vacant hlab h _)

/-- Only the others change what a row sees. -/
theorem overlap_of_balances {what : Site σ → β} (h : e.lab.Balances what) {archive : Archive σ}
    {may : Bearing σ → Site σ → Site σ → Prop} {p : Crew σ}
    (hsteps : Steps e o rows may (opening e o rows archive) p) :
    ∀ k : Nat, Relation.ReflTransGen (Elsewhere may what) (what archive.site)
      (what (p.state.station k).view) := by
  -- A move of the others is one link of the chain; an action of the row itself adds none.
  refine floor_steps (fun f => ∀ k, Relation.ReflTransGen (Elsewhere may what) (what archive.site)
    (what (f.station k).view)) (accounts_opening e o rows archive) (fun _ => .refl)
    (fun f k view hf hmay k' => ?_) (fun job f f' _ hf hact k => ?_) hsteps
  · by_cases hk : k' = k
    · subst hk
      rw [Floor.put_self]
      exact (hf k').tail ⟨_, _, _, hmay, rfl, rfl⟩
    · rw [Floor.put_other _ _ _ _ hk]
      exact hf k'
  · by_cases hk : k = job.2
    · subst hk
      rw [h.eq fun _ _ hlab hview => hact.vacant hlab hview]
      exact hf job.2
    · obtain ⟨B, b, view, rfl, -⟩ := hact.puts
      rw [Floor.put_other _ _ _ _ hk]
      exact hf k

theorem restores_of_balances {what : Site σ → β} (h : e.lab.Balances what) (o : SurveyOptions)
    (rows : List ResultRow) : Restores e o rows what where
  bisect q s := h.eq fun _ _ hlab hs => Engine.bisect_vacant hlab q s hs
  moment _ schedule := h.eq fun _ _ hlab hs => moment_vacant hlab hs schedule
  run s := h.eq fun _ _ hlab hs => run_vacant hlab s hs
  act hact := h.eq fun _ _ hlab hview => hact.vacant hlab hview
  overlap := overlap_of_balances h

/-- However many hold directories on one ledger and however their steps interleave, the ledger tells
how many are in use, the return of each is counted once, and the peak is the most that ever were in
use. A bisection and a survey give back all that they take, whatever fails in them, and a bisection
takes at most two at a time, or as many as the largest set whose members it tried one at a time.
Where directories are removed when they are given back, there are in the end those that there were
at the start. -/
theorem directories_returned (e : Engine σ) (o : SurveyOptions) (rows : List ResultRow) :
    (∀ labels world acts,
      let y := (Yard.opening labels world).run e.lab acts
      y.site.ledger.active = y.tenures.countP (·.inUse) ∧
        y.returned.Nodup ∧
        (∀ i, i ∈ y.returned ↔ ∃ t, y.tenures[i]? = some t ∧ t.isReturned = true) ∧
        ((∀ t ∈ y.tenures, t.told? = none) →
          IsGreatest ((Yard.opening labels world).reached e.lab acts) y.site.ledger.peak)) ∧
    Restores e o rows (fun s => s.ledger.active) ∧
    (∀ q (s : Archive σ), ((e.bisect q).runOn s).2.site.ledger.peak ≤
      max s.site.ledger.peak
        (s.site.ledger.active + Engine.room ((e.bisect q).runOn s).1)) ∧
    (∀ dirs : σ → Set String, e.lab.Furnishes dirs → e.lab.deletes = true →
      (∀ path w, path ∈ dirs w → ((e.lab.removeDirectory path).runOn w).1 = .ok ()) →
      Restores e o rows fun s => dirs s.world) := by
  refine ⟨Yard.run_counts e.lab, ?_, fun q s => ?_, fun dirs hdirs hdeletes hremoves => ?_⟩
  · exact restores_of_balances e.lab.balances_active o rows
  · exact (Engine.bisect_room e.lab.houses_true q (s := s) trivial).peak
  · exact restores_of_balances (hdirs.balances hdeletes hremoves) o rows

/-! ### A shelf whose directories come and go -/

/-- A shelf, and the directories that are there. -/
structure Hall where
  shelf : Shelf
  there : List String

namespace Hall

def onShelf {α : Type} (a : StateM Shelf α) : StateM Hall α := fun s =>
  let (r, shelf) := a s.shelf
  (r, { s with shelf := shelf })

def attempt {α : Type} (a : Attempt Shelf α) : Attempt Hall α :=
  ExceptT.mk (onShelf a.result)

/-- The lab of a scenario, with directories that are made and removed. -/
def lab (c : Scenario) : Lab Hall where
  cancelled := onShelf c.lab.cancelled
  pipeline :=
    { name := c.lab.pipeline.name
      units := attempt c.lab.pipeline.units
      symbols := fun u flags dir timeout => attempt (c.lab.pipeline.symbols u flags dir timeout)
      build := fun q => attempt (c.lab.pipeline.build q)
      compilerOf := c.lab.pipeline.compilerOf }
  runner := fun call limit => attempt (c.lab.runner call limit)
  comparator := c.lab.comparator
  readText := fun path => onShelf (c.lab.readText path)
  makeDirectory := fun _ => ExceptT.mk fun s =>
    let path := Scenario.directory s.shelf.directories
    let shelf := { s.shelf with directories := s.shelf.directories + 1 }
    if path ∈ s.there then (.error (.reported "there is one already"), { s with shelf := shelf })
    else (.ok path, ⟨shelf, path :: s.there⟩)
  removeDirectory := fun path => ExceptT.mk fun s =>
    (.ok (), { s with there := s.there.filter (· ≠ path) })
  deletes := true
  appendLog := fun t => attempt (c.lab.appendLog t)
  observe := fun t => onShelf (c.lab.observe t)
  now := onShelf c.lab.now
  cwd := c.lab.cwd

def engine (c : Scenario) : Engine Hall where
  lab := lab c
  run := .standard
  trusted := c.engine.trusted
  buildTimeout := 0
  verify := true
  symbols := true

theorem furnishes (c : Scenario) : (lab c).Furnishes fun w => {d | d ∈ w.there} where
  spares := by constructor <;> intros <;> rfl
  made {w w' label path} hmake := by
    have hmake' : (if Scenario.directory w.shelf.directories ∈ w.there then _ else _) = _ := hmake
    split at hmake'
    · cases hmake'
    · next hfresh =>
        cases hmake'
        refine ⟨hfresh, ?_⟩
        ext d
        simp
  barred {w w' label fault} hmake := by
    have hmake' : (if Scenario.directory w.shelf.directories ∈ w.there then _ else _) = _ := hmake
    split at hmake'
    · cases hmake'
      rfl
    · cases hmake'
  removed {w w' path} hremove := by
    cases hremove
    ext d
    simp

end Hall

/-- Only the baseline can be built. -/
def unbuilt : Scenario where
  units := [⟨"a.c"⟩, ⟨"b.c"⟩]
  symbols := fun _ => []
  ends := fun p =>
    if p.variant = [] then .ok ⟨.code 0, "", "", 1⟩ else .error (.reported "no build")
  stops := fun _ => false

/-- There is a directory already. -/
def lobby : Archive Hall := ⟨⟨⟨.empty, ["kept"]⟩, .empty⟩, .empty⟩

/-- Each of the two flagged rows takes a directory for its baseline and one for a trial that cannot
be built. -/
theorem directories_returned_unbuilt :
    Restores (Hall.engine unbuilt) twoAtATime threeRows (fun s => {d | d ∈ s.world.there}) ∧
      (run (Hall.engine unbuilt) twoAtATime threeRows lobby).2.site.ledger = ⟨4, 0, 1⟩ := by
  obtain ⟨-, -, -, hdirectories⟩ := directories_returned (Hall.engine unbuilt) twoAtATime threeRows
  exact ⟨hdirectories _ (Hall.furnishes unbuilt) rfl fun _ _ _ => rfl, by decide +kernel⟩

end Survey

end Culprit
