import Culprit.Proofs.Survey.Entries
import Culprit.Proofs.Survey.Stages
import Mathlib.Algebra.GroupWithZero.Nat

/-!
A survey whose rows are bisected at the same time. What the workers share is the list of rows, the
baselines and the report; each of them sees the outside in its own way, and what the others do to
it in the meantime is left open. Between the actions of one row, those of other rows come in any
order: its start, its call for a baseline in the steps of such calls, its phases, and its end.
-/

namespace Culprit

variable {σ : Type}

namespace Survey

/-! ### Rows at the same time -/

/-- Where a row is, and the outside as its worker sees it. -/
structure Station (σ : Type) where
  bearing : Bearing σ
  view : Site σ

/-- What the workers share, with one station for each position of a row. -/
structure Floor (σ : Type) where
  baselines : Baselines
  station : Nat → Station σ

namespace Floor

/-- New baselines, and another place for the row at `k`. -/
def put (f : Floor σ) (k : Nat) (baselines : Baselines) (bearing : Bearing σ) (view : Site σ) :
    Floor σ :=
  ⟨baselines, Function.update f.station k ⟨bearing, view⟩⟩

/-- Nobody holds the slot. -/
def Free (e : Engine σ) (o : SurveyOptions) (rows : List ResultRow) (f : Floor σ) (key : String) :
    Prop :=
  ∀ job ∈ flaggedRows rows, (inquiry e o job.1).key = key → ¬(f.station job.2).bearing.Builds

section Put

variable (f : Floor σ) {k k' : Nat} (B B' : Baselines) (b b' : Bearing σ) (view view' : Site σ)

@[simp] theorem put_self : (f.put k B b view).station k = ⟨b, view⟩ :=
  Function.update_self ..

theorem put_other (h : k' ≠ k) : (f.put k B b view).station k' = f.station k' :=
  Function.update_of_ne h ..

theorem put_put : (f.put k B b view).put k B' b' view' = f.put k B' b' view' := by
  simp [put]

end Put

end Floor

section Actions

variable (e : Engine σ) (o : SurveyOptions) (rows : List ResultRow) (job : ResultRow × Nat)
  (f : Floor σ)

/-- One action of the worker that has this row. -/
inductive Act : Floor σ → Prop
  | prepare {b : Bearing σ} {view : Site σ} : (f.station job.2).bearing = .away →
      prepare e o job.1 (f.station job.2).view = (b, view) →
      Act (f.put job.2 f.baselines b view)
  | reserve {now : String} {units : List SourceUnit} :
      (f.station job.2).bearing = .asking now units .called →
      Act (f.put job.2 (f.baselines.reserve (inquiry e o job.1).key) (.asking now units .waiting)
        (f.station job.2).view)
  | answer {now : String} {units : List SourceUnit} {v : Verdict} :
      (f.station job.2).bearing = .asking now units .waiting →
      f.Free e o rows (inquiry e o job.1).key →
      f.baselines.slot? (inquiry e o job.1).key = some (some v) →
      Act (f.put job.2 f.baselines (.asking now units (.given v)) (f.station job.2).view)
  | enter {now : String} {units : List SourceUnit} :
      (f.station job.2).bearing = .asking now units .waiting →
      f.Free e o rows (inquiry e o job.1).key →
      (∀ v, f.baselines.slot? (inquiry e o job.1).key ≠ some (some v)) →
      Act (f.put job.2 f.baselines.countBuild (.asking now units .building)
        (f.station job.2).view)
  | leave {now : String} {units : List SourceUnit} {v : Verdict} {view : Site σ} {stop : Bool}
      {w : σ} : (f.station job.2).bearing = .asking now units .building →
      (Archive.compute (inquiry e o job.1).setup (inquiry e o job.1).trusted
        (inquiry e o job.1).target).run (f.station job.2).view = (v, view) →
      e.lab.cancelled view.world = (stop, w) →
      Act (f.put job.2 (if stop then f.baselines else f.baselines.store (inquiry e o job.1).key v)
        (.asking now units (.built v !stop)) { view with world := w })
  | conclude {now : String} {units : List SourceUnit} {visit : Visit} {v : Verdict} {r : Report}
      {last view : Site σ} : (f.station job.2).bearing = .asking now units visit →
      visit.verdict? = some v →
      conclude e o job.1 now units v (f.station job.2).view = ((r, last), view) →
      Act (f.put job.2 f.baselines (.ended r last) view)

end Actions

/-- The workers of a survey. -/
abbrev Crew (σ : Type) := Pool (ResultRow × Nat) (Floor σ) SurveyEntry

/-- A worker whose row is over has its entry. -/
def handover : Shift (ResultRow × Nat) (Floor σ) SurveyEntry where
  work job f := (⟨job.2, job.1, (f.station job.2).bearing.report⟩, f)
  stop := pure false
  fails _ := false

/-- One step of the survey. Others move the outside as `may` allows for a row at that point; a
worker acts on its row, or takes a turn, which ends with the row when this is over. -/
inductive Step (e : Engine σ) (o : SurveyOptions) (rows : List ResultRow)
    (may : Bearing σ → Site σ → Site σ → Prop) (p : Crew σ) : Crew σ → Prop
  | drift (k : Nat) (view : Site σ) :
      may (p.state.station k).bearing (p.state.station k).view view →
      Step e o rows may p
        { p with state := p.state.put k p.state.baselines (p.state.station k).bearing view }
  | act {w : Nat} {job : ResultRow × Nat} {floor : Floor σ} :
      p.workers[w]? = some (.working job) → Act e o rows job p.state floor →
      Step e o rows may p { p with state := floor }
  | turn (w : Nat) : (∀ job, p.workers[w]? = some (.working job) →
        ∃ r last, (p.state.station job.2).bearing = .ended r last) →
      Step e o rows may p (p.step handover (flaggedRows rows) w)

/-- Any interleaving. -/
abbrev Steps (e : Engine σ) (o : SurveyOptions) (rows : List ResultRow)
    (may : Bearing σ → Site σ → Site σ → Prop) : Crew σ → Crew σ → Prop :=
  Relation.ReflTransGen (Step e o rows may)

/-- Before the first step. -/
def opening (e : Engine σ) (o : SurveyOptions) (rows : List ResultRow) (archive : Archive σ) :
    Crew σ :=
  .start (o.workers e.run.reentrant (flaggedRows rows).length)
    ⟨archive.baselines, fun _ => ⟨.away, archive.site⟩⟩

section Runs

variable {e : Engine σ} {o : SurveyOptions} {rows : List ResultRow} {archive : Archive σ}
  {may : Bearing σ → Site σ → Site σ → Prop} {p p' : Crew σ} {f f' : Floor σ}
  {job : ResultRow × Nat} {w : Nat}

theorem steadfast_handover : (handover : Shift _ (Floor σ) _).Steadfast :=
  ⟨fun _ => rfl, fun _ => rfl⟩

theorem labelled_handover : (handover : Shift _ (Floor σ) _).Labelled label :=
  fun _ _ => rfl

/-- The workers of a survey account for the rows that were taken. -/
abbrev Accounts (e : Engine σ) (o : SurveyOptions) (rows : List ResultRow) (p : Crew σ) : Prop :=
  Pool.Accounts label (flaggedRows rows) (o.workers e.run.reentrant (flaggedRows rows).length) p

theorem accounts_move (h : Accounts e o rows p) (floor : Floor σ) :
    Accounts e o rows { p with state := floor } :=
  ⟨h.failed, h.crew, h.taken, h.gone⟩

theorem accounts_step (h : Accounts e o rows p) (hstep : Step e o rows may p p') :
    Accounts e o rows p' := by
  cases hstep with
  | drift k view _ => exact accounts_move h _
  | act _ _ => exact accounts_move h _
  | turn w _ => exact h.turn labelled_handover (Pool.turn_step steadfast_handover h.failed)

theorem accounts_steps (h : Accounts e o rows p) (hsteps : Steps e o rows may p p') :
    Accounts e o rows p' := by
  induction hsteps with
  | refl => exact h
  | tail _ hstep ih => exact accounts_step ih hstep

theorem accounts_opening (e : Engine σ) (o : SurveyOptions) (rows : List ResultRow)
    (archive : Archive σ) : Accounts e o rows (opening e o rows archive) :=
  Pool.accounts_start _

theorem eq_of_position {job job' : ResultRow × Nat} (hjob : job ∈ flaggedRows rows)
    (hjob' : job' ∈ flaggedRows rows) (h : job.2 = job'.2) : job = job' := by
  obtain ⟨row, k⟩ := job
  obtain ⟨row', k'⟩ := job'
  obtain rfl : k = k' := h
  have hsame := (mem_flaggedRows.mp hjob).1.symm.trans (mem_flaggedRows.mp hjob').1
  rw [Option.some.inj hsame]

/-- Turns leave the floor as it is. -/
theorem state_turn {jobs : List (ResultRow × Nat)} (h : Pool.Turn handover jobs p w p') :
    p'.state = p.state := by
  cases h with
  | work hw hwork => exact (Prod.mk.inj hwork).2.symm
  | _ => rfl

theorem turn_handover (h : Accounts e o rows p) (w : Nat) :
    Pool.Turn handover (flaggedRows rows) p w (p.step handover (flaggedRows rows) w) :=
  Pool.turn_step steadfast_handover h.failed

/-- What the actions on the rows and the moves of the others keep holds of the floor. -/
theorem floor_steps (inv : Floor σ → Prop) (h : Accounts e o rows p) (hfloor : inv p.state)
    (hdrift : ∀ f k view, inv f → may (f.station k).bearing (f.station k).view view →
      inv (f.put k f.baselines (f.station k).bearing view))
    (hact : ∀ job f f', job ∈ flaggedRows rows → inv f → Act e o rows job f f' → inv f')
    (hsteps : Steps e o rows may p p') : inv p'.state := by
  induction hsteps with
  | refl => exact hfloor
  | tail hsteps hstep ih =>
      have haccounts := accounts_steps h hsteps
      cases hstep with
      | drift k view hmay => exact hdrift _ k view ih hmay
      | act hw hact' => exact hact _ _ _ (haccounts.mem_of_working hw) ih hact'
      | turn w _ => rwa [state_turn (turn_handover haccounts w)]

/-- A worker that is ready takes the next row. -/
theorem steps_fetch (hfailed : p.failed = false) (hw : p.workers[w]? = some .ready)
    (hjob : (flaggedRows rows)[p.next]? = some job) :
    Steps e o rows may p ({ p with next := p.next + 1 }.setWorker w (.working job)) := by
  have hcleared : (p.setWorker w .cleared).workers[w]? = some .cleared := by
    rw [Pool.getElem?_setWorker hw, if_pos rfl]
  have hlook : p.step handover (flaggedRows rows) w = p.setWorker w .cleared := by
    rw [Pool.step, hw]
    exact Pool.look_eq steadfast_handover hfailed
  have htake : (p.setWorker w .cleared).step handover (flaggedRows rows) w =
      { p with next := p.next + 1 }.setWorker w (.working job) := by
    rw [Pool.step, hcleared]
    simp only [Pool.take, Pool.setWorker, hjob, List.set_set]
  have hfirst : Step e o rows may p (p.step handover (flaggedRows rows) w) :=
    .turn w fun job' hjob' => by rw [hw] at hjob'; cases hjob'
  have hsecond : Step e o rows may (p.setWorker w .cleared)
      ((p.setWorker w .cleared).step handover (flaggedRows rows) w) :=
    .turn w fun job' hjob' => by rw [hcleared] at hjob'; cases hjob'
  exact .tail (.single (hlook ▸ hfirst)) (htake ▸ hsecond)


/-! ### What a row comes to is its entry -/

theorem Act.puts (h : Act e o rows job f f') : ∃ B b view,
    f' = f.put job.2 B b view ∧ b.rank < (f.station job.2).bearing.rank := by
  cases h with
  | prepare haway hprepare =>
      refine ⟨_, _, _, rfl, ?_⟩
      rw [haway]
      cases prepares hprepare <;> simp [Bearing.rank, Visit.rank]
  | reserve hcalled => exact ⟨_, _, _, rfl, by simp [hcalled, Bearing.rank, Visit.rank]⟩
  | answer hwaiting hfree hfound =>
      exact ⟨_, _, _, rfl, by simp [hwaiting, Bearing.rank, Visit.rank]⟩
  | enter hwaiting hfree hempty =>
      exact ⟨_, _, _, rfl, by simp [hwaiting, Bearing.rank, Visit.rank]⟩
  | leave hbuilding hran hlook =>
      exact ⟨_, _, _, rfl, by simp [hbuilding, Bearing.rank, Visit.rank]⟩
  | conclude hasking hverdict hconclude =>
      exact ⟨_, _, _, rfl, by simp [hasking, Bearing.rank]⟩

/-- A row that is over stays so. -/
theorem Act.ended (h : Act e o rows job f f') {k : Nat} {r : Report} {last : Site σ}
    (hk : (f.station k).bearing = .ended r last) : f'.station k = f.station k := by
  obtain ⟨B, b, view, rfl, hless⟩ := h.puts
  have hne : k ≠ job.2 := by
    rintro rfl
    rw [hk] at hless
    exact absurd hless (Nat.not_lt_zero _)
  rw [Floor.put_other _ _ _ _ hne]

theorem ended_steps (h : Accounts e o rows p) {k : Nat} {r : Report} {last : Site σ}
    (hk : (p.state.station k).bearing = .ended r last) (hsteps : Steps e o rows may p p') :
    (p'.state.station k).bearing = .ended r last := by
  refine floor_steps (fun f => (f.station k).bearing = .ended r last) h hk
    (fun f k' view hf _ => ?_) (fun job f f' _ hf hact => by rw [hact.ended hf, hf]) hsteps
  by_cases hk' : k = k'
  · rw [← hk', Floor.put_self, hf]
  · rw [Floor.put_other _ _ _ _ hk', hf]

/-- The entry tells what its row came to. -/
def Told (f : Floor σ) (x : SurveyEntry) : Prop :=
  ∃ last, (f.station x.index).bearing = .ended x.report last

theorem told_step (haccounts : Accounts e o rows p) (h : Pool.Traces (Told p.state) p)
    (hstep : Step e o rows may p p') : Pool.Traces (Told p'.state) p' := by
  have hmono {f' : Floor σ} (hf : ∀ x, Told p.state x → Told f' x) :
      Pool.Traces (Told f') { p with state := f' } :=
    ⟨fun x hx => hf x (h.results x hx), fun u x hu => hf x (h.carried u x hu)⟩
  cases hstep with
  | drift k view _ =>
      refine hmono fun x hx => hx.imp fun last hlast => ?_
      by_cases hk : x.index = k
      · rw [← hk, Floor.put_self]
        exact hlast
      · rw [Floor.put_other _ _ _ _ hk]
        exact hlast
  | act hw hact =>
      exact hmono fun x hx => hx.imp fun last hlast => (congrArg _ (hact.ended hlast)).trans hlast
  | turn w hover =>
      have hturn := turn_handover haccounts w
      rw [state_turn hturn]
      refine h.turn (fun job hw => ?_) hturn
      obtain ⟨r, last, hlast⟩ := hover job hw
      refine ⟨last, ?_⟩
      show (p.state.station job.2).bearing = .ended (p.state.station job.2).bearing.report last
      rw [hlast]
      rfl

theorem told_steps (haccounts : Accounts e o rows p) (h : Pool.Traces (Told p.state) p)
    (hsteps : Steps e o rows may p p') : Pool.Traces (Told p'.state) p' := by
  induction hsteps with
  | refl => exact h
  | tail hsteps hstep ih => exact told_step (accounts_steps haccounts hsteps) ih hstep

theorem told_opening (e : Engine σ) (o : SurveyOptions) (rows : List ResultRow)
    (archive : Archive σ) :
    Pool.Traces (Told (opening e o rows archive).state) (opening e o rows archive) := by
  refine ⟨fun x hx => absurd hx List.not_mem_nil, fun u x hu => ?_⟩
  have hmem := List.mem_of_getElem? hu
  cases (List.mem_replicate.mp hmem).2

/-- When all workers are gone, each flagged row has its entry. -/
theorem complete_steps (hsteps : Steps e o rows may (opening e o rows archive) p) (hover : p.Over)
    (now : String) : Complete rows (collect e rows now p.results) ∧
      ∀ x ∈ (collect e rows now p.results).entries, Told p.state x := by
  have haccounts := accounts_steps (accounts_opening e o rows archive) hsteps
  have htold := told_steps (accounts_opening e o rows archive) (told_opening e o rows archive)
    hsteps
  exact ⟨complete_collect (haccounts.perm_of_over (workers_pos o _ _) hover),
    fun x hx => htold.results x (mem_entries_collect.mp hx)⟩

/-! ### Every survey can come to its end -/

/-- Whoever holds the slot of a baseline is at work. -/
def Attended (rows : List ResultRow) (p : Crew σ) : Prop :=
  ∀ job ∈ flaggedRows rows, (p.state.station job.2).bearing.Builds →
    ∃ u : Nat, p.workers[u]? = some (.working job)

theorem attended_step (haccounts : Accounts e o rows p) (h : Attended rows p)
    (hstep : Step e o rows may p p') : Attended rows p' := by
  cases hstep with
  | drift k view _ =>
      intro job hjob hbuilds
      refine h job hjob ?_
      by_cases hk : job.2 = k
      · rw [← hk, Floor.put_self] at hbuilds
        exact hbuilds
      · rw [Floor.put_other _ _ _ _ hk] at hbuilds
        exact hbuilds
  | @act w job floor hw hact =>
      intro job' hjob' hbuilds
      obtain ⟨B, b, view, rfl, -⟩ := hact.puts
      by_cases hk : job'.2 = job.2
      · obtain rfl := eq_of_position hjob' (haccounts.mem_of_working hw) hk
        exact ⟨w, hw⟩
      · rw [Floor.put_other _ _ _ _ hk] at hbuilds
        exact h job' hjob' hbuilds
  | turn w hover =>
      have hturn := turn_handover haccounts w
      intro job hjob hbuilds
      rw [state_turn hturn] at hbuilds
      obtain ⟨u, hu⟩ := h job hjob hbuilds
      have hne : u ≠ w := by
        rintro rfl
        obtain ⟨r, last, hlast⟩ := hover job hu
        obtain ⟨now, units, hasking⟩ := hbuilds
        rw [hlast] at hasking
        cases hasking
      exact ⟨u, (hturn.workers_other hne).trans hu⟩

theorem attended_steps (haccounts : Accounts e o rows p) (h : Attended rows p)
    (hsteps : Steps e o rows may p p') : Attended rows p' := by
  induction hsteps with
  | refl => exact h
  | tail hsteps hstep ih => exact attended_step (accounts_steps haccounts hsteps) ih hstep

/-- What is still to do, at most. -/
def burden (rows : List ResultRow) (p : Crew σ) : Nat :=
  ((List.range p.workers.length).map (Pool.rank (flaggedRows rows) p)).sum +
    ((flaggedRows rows).map fun job => (p.state.station job.2).bearing.rank).sum

theorem burden_act (hjob : job ∈ flaggedRows rows) (h : Act e o rows job p.state f') :
    burden rows { p with state := f' } < burden rows p := by
  obtain ⟨B, b, view, rfl, hless⟩ := h.puts
  refine Nat.add_lt_add_left (List.sum_lt_sum _ _ (fun job' _ => ?_) ⟨job, hjob, ?_⟩) _
  · by_cases hk : job'.2 = job.2
    · rw [hk, Floor.put_self]
      exact hless.le
    · rw [Floor.put_other _ _ _ _ hk]
  · rw [Floor.put_self]
    exact hless

theorem burden_turn (haccounts : Accounts e o rows p) {x : Worker (ResultRow × Nat) SurveyEntry}
    (hw : p.workers[w]? = some x) (hx : x ≠ .gone) :
    burden rows (p.step handover (flaggedRows rows) w) < burden rows p := by
  have hturn := turn_handover haccounts w
  have hcrew : (p.step handover (flaggedRows rows) w).workers.length = p.workers.length :=
    (haccounts.turn labelled_handover hturn).crew.trans haccounts.crew.symm
  have hpositive : 0 < Pool.rank (flaggedRows rows) p w := by
    rw [Pool.rank, hw]
    exact Nat.pos_of_ne_zero fun hzero => hx (Worker.eq_gone_of_rank hzero)
  have hlt := (List.getElem?_eq_some_iff.mp hw).1
  rw [burden, burden, hcrew, state_turn hturn]
  refine Nat.add_lt_add_right
    (List.sum_lt_sum _ _ (fun u _ => ?_) ⟨w, List.mem_range.mpr hlt, ?_⟩) _
  · exact (hturn.rank_le u).trans (Nat.sub_le _ _)
  · have hless := hturn.rank_le w
    rw [if_pos rfl] at hless
    omega

/-- While some worker is not gone, one of them can go on. -/
theorem progress (haccounts : Accounts e o rows p) (h : Attended rows p) :
    p.Over ∨ ∃ p', Step e o rows may p p' ∧ burden rows p' < burden rows p := by
  by_cases hover : p.Over
  · exact .inl hover
  obtain ⟨x, hx⟩ := not_forall.mp hover
  obtain ⟨hmem, hgone⟩ := Classical.not_imp.mp hx
  obtain ⟨w, hlt, hget⟩ := List.getElem_of_mem hmem
  have hw : p.workers[w]? = some x := by rw [List.getElem?_eq_getElem hlt, hget]
  refine .inr ?_
  have hacts {u : Nat} {job : ResultRow × Nat} {floor : Floor σ}
      (hu : p.workers[u]? = some (.working job)) (hact : Act e o rows job p.state floor) :
      ∃ p', Step e o rows may p p' ∧ burden rows p' < burden rows p :=
    ⟨_, .act hu hact, burden_act (haccounts.mem_of_working hu) hact⟩
  by_cases hbuilding : ∃ job ∈ flaggedRows rows, (p.state.station job.2).bearing.Builds
  · obtain ⟨job, hjob, hbuilds⟩ := hbuilding
    obtain ⟨u, hu⟩ := h job hjob hbuilds
    obtain ⟨now, units, hasking⟩ := hbuilds
    exact hacts hu (.leave hasking rfl rfl)
  have hfree (key : String) : p.state.Free e o rows key :=
    fun job hjob _ hbuilds => hbuilding ⟨job, hjob, hbuilds⟩
  by_cases hworking : ∃ job, x = .working job ∧
      ¬∃ r last, (p.state.station job.2).bearing = .ended r last
  · obtain ⟨job, rfl, hnot⟩ := hworking
    cases hb : (p.state.station job.2).bearing with
    | away => exact hacts hw (.prepare hb rfl)
    | ended r last => exact absurd ⟨r, last, hb⟩ hnot
    | asking now units visit =>
        cases visit with
        | called => exact hacts hw (.reserve hb)
        | waiting =>
            by_cases hfound : ∃ v,
                p.state.baselines.slot? (inquiry e o job.1).key = some (some v)
            · obtain ⟨v, hv⟩ := hfound
              exact hacts hw (.answer hb (hfree _) hv)
            · exact hacts hw (.enter hb (hfree _) (not_exists.mp hfound))
        | building => exact hacts hw (.leave hb rfl rfl)
        | given v => exact hacts hw (.conclude hb rfl rfl)
        | built v kept => exact hacts hw (.conclude hb rfl rfl)
  · refine ⟨_, .turn w fun job hjob => ?_, burden_turn haccounts hw hgone⟩
    rw [hw] at hjob
    exact not_not.mp fun hnot => hworking ⟨job, Option.some.inj hjob, hnot⟩

theorem completes (haccounts : Accounts e o rows p) (h : Attended rows p) :
    ∃ p', Steps e o rows may p p' ∧ p'.Over := by
  induction hburden : burden rows p using Nat.strong_induction_on generalizing p with
  | _ n ih =>
      rcases progress haccounts h with hover | ⟨p₁, hstep, hless⟩
      · exact ⟨p, .refl, hover⟩
      · obtain ⟨p', hsteps, hover⟩ := ih _ (hburden ▸ hless) (accounts_step haccounts hstep)
          (attended_step haccounts h hstep) rfl
        exact ⟨p', .head hstep hsteps, hover⟩

/-- Wherever a survey has come to, it can come to its end. -/
theorem completes_opening (hsteps : Steps e o rows may (opening e o rows archive) p) :
    ∃ p', Steps e o rows may p p' ∧ p'.Over := by
  have hstart := accounts_opening e o rows archive
  have hattended : Attended rows (opening e o rows archive) := by
    rintro job - ⟨now, units, hbuilds⟩
    cases hbuilds
  exact completes (accounts_steps hstart hsteps) (attended_steps hstart hattended hsteps)

end Runs

end Survey

end Culprit
