import Culprit.Survey
import Culprit.Proofs.Session.Shelf
import Culprit.Proofs.Survey.Pool
import Mathlib.Data.List.Sort

/-!
A survey with workers that take their steps in whatever order. There is one entry for each flagged
row and none for another one, the entries come in the order of the rows, and what becomes of one
row is nothing to the entries of the others.
-/

namespace Culprit

/-! ### Rows that are flagged -/

theorem mem_flaggedRows {rows : List ResultRow} {row : ResultRow} {i : Nat} :
    (row, i) ∈ flaggedRows rows ↔ rows[i]? = some row ∧ row.isFlagged = true := by
  rw [flaggedRows, List.mem_filter, List.mem_zipIdx_iff_getElem?]

theorem pairwise_flaggedRows (rows : List ResultRow) :
    (flaggedRows rows).Pairwise fun j j' => j.2 < j'.2 := by
  have hpositions : (rows.zipIdx.map Prod.snd).Pairwise (· < ·) := by
    rw [List.zipIdx_map_snd]
    exact List.pairwise_lt_range'
  exact (List.pairwise_map.mp hpositions).filter _

theorem length_flaggedRows_le (rows : List ResultRow) :
    (flaggedRows rows).length ≤ rows.length := by
  refine (List.length_filter_le _ _).trans_eq ?_
  rw [List.length_zipIdx]

namespace Survey

variable {σ σ' : Type}

/-- The row of an entry with its position. -/
def label (x : SurveyEntry) : ResultRow × Nat :=
  (x.row, x.index)

theorem steadfast_shift (e : Engine σ) (o : SurveyOptions) : (shift e o).Steadfast :=
  ⟨fun _ => rfl, fun _ => rfl⟩

theorem labelled_shift (e : Engine σ) (o : SurveyOptions) : (shift e o).Labelled label :=
  fun _ _ => rfl

theorem workers_pos (o : SurveyOptions) (reentrant : Bool) (pending : Nat) :
    0 < o.workers reentrant pending := by
  rw [SurveyOptions.workers]
  split <;> omega

theorem workers_le_one (o : SurveyOptions) (pending : Nat) : o.workers false pending ≤ 1 :=
  Nat.min_le_left _ _

/-- The pool after its workers have taken these steps. -/
def moment (e : Engine σ) (o : SurveyOptions) (rows : List ResultRow) (archive : Archive σ)
    (schedule : List Nat) : Pool (ResultRow × Nat) (Archive σ) SurveyEntry :=
  Pool.run (shift e o) (flaggedRows rows) schedule
    (Pool.start (o.workers e.run.reentrant (flaggedRows rows).length) archive)

/-- One entry for each flagged row, in their order, and no other one. -/
structure Complete (rows : List ResultRow) (r : SurveyReport) : Prop where
  own : ∀ x ∈ r.entries, rows[x.index]? = some x.row ∧ x.row.isFlagged = true
  each : ∀ i row, rows[i]? = some row → row.isFlagged = true →
    ∃! x, x ∈ r.entries ∧ x.index = i
  ordered : r.entries.Pairwise fun x y => x.index < y.index
  total : r.rowsTotal = rows.length ∧ r.rowsTotal = r.rowsSkipped + r.entries.length

variable {e : Engine σ} {o : SurveyOptions} {rows : List ResultRow} {archive : Archive σ}

theorem mem_entries_collect {now : String} {xs : List SurveyEntry} {x : SurveyEntry} :
    x ∈ (collect e rows now xs).entries ↔ x ∈ xs :=
  List.mem_mergeSort

theorem perm_entries_collect (now : String) (xs : List SurveyEntry) :
    (collect e rows now xs).entries.Perm xs :=
  List.mergeSort_perm _ _

/-- Entries for exactly the flagged rows make a complete report, in whatever order they came. -/
theorem complete_collect {now : String} {xs : List SurveyEntry}
    (h : (xs.map label).Perm (flaggedRows rows)) : Complete rows (collect e rows now xs) := by
  have hentries : (collect e rows now xs).entries.Perm xs := perm_entries_collect now xs
  have hperm := (hentries.map label).trans h
  have hnodup : ((collect e rows now xs).entries.map (·.index)).Nodup := by
    have hpositions : ((flaggedRows rows).map Prod.snd).Nodup :=
      List.pairwise_map.mpr ((pairwise_flaggedRows rows).imp Nat.ne_of_lt)
    have hindices := (hperm.map Prod.snd).nodup_iff.mpr hpositions
    rwa [List.map_map] at hindices
  have hordered : (collect e rows now xs).entries.Pairwise fun x y => x.index < y.index := by
    have hsorted : (collect e rows now xs).entries.Pairwise fun x y => x.index ≤ y.index := by
      refine (List.pairwise_mergeSort ?_ ?_ xs).imp of_decide_eq_true
      · simpa using fun _ _ _ => Nat.le_trans
      · simpa using fun _ _ => Nat.le_total _ _
    exact (hsorted.and (List.pairwise_map.mp hnodup)).imp fun h => Nat.lt_of_le_of_ne h.1 h.2
  refine ⟨fun x hx => ?_, fun i row hrow hflagged => ?_, hordered, rfl, ?_⟩
  · exact mem_flaggedRows.mp (hperm.mem_iff.mp (List.mem_map_of_mem hx))
  · obtain ⟨x, hx, heq⟩ := List.mem_map.mp
      (hperm.mem_iff.mpr (mem_flaggedRows.mpr ⟨hrow, hflagged⟩))
    have hindex : x.index = i := congrArg Prod.snd heq
    refine ⟨x, ⟨hx, hindex⟩, fun y ⟨hy, hi⟩ => ?_⟩
    exact List.inj_on_of_nodup_map hnodup hy hx (hi.trans hindex.symm)
  · have hlength := hperm.length_eq
    rw [List.length_map] at hlength
    rw [hlength]
    exact (Nat.sub_add_cancel (length_flaggedRows_le rows)).symm

theorem Complete.labels {r : SurveyReport} (h : Complete rows r) :
    r.entries.map label = flaggedRows rows := by
  have hordered : (r.entries.map label).Pairwise fun j j' => j.2 < j'.2 :=
    List.pairwise_map.mpr h.ordered
  have hnodup {js : List (ResultRow × Nat)} (hjs : js.Pairwise fun j j' => j.2 < j'.2) :
      js.Nodup :=
    hjs.imp fun hless heq => Nat.ne_of_lt hless (congrArg Prod.snd heq)
  have hperm : (r.entries.map label).Perm (flaggedRows rows) := by
    refine (List.perm_ext_iff_of_nodup (hnodup hordered)
      (hnodup (pairwise_flaggedRows rows))).mpr fun ⟨row, i⟩ => ⟨fun hmem => ?_, fun hmem => ?_⟩
    · obtain ⟨x, hx, heq⟩ := List.mem_map.mp hmem
      exact heq ▸ mem_flaggedRows.mpr (h.own x hx)
    · obtain ⟨hrow, hflagged⟩ := mem_flaggedRows.mp hmem
      obtain ⟨x, ⟨hx, rfl⟩, -⟩ := h.each i row hrow hflagged
      obtain rfl : x.row = row := Option.some.inj ((h.own x hx).1.symm.trans hrow)
      exact List.mem_map_of_mem hx
  exact hperm.eq_of_pairwise (fun j j' _ _ hless hless' => absurd hless (Nat.lt_asymm hless'))
    hordered (pairwise_flaggedRows rows)

theorem accounts_moment (schedule : List Nat) :
    Pool.Accounts label (flaggedRows rows) (o.workers e.run.reentrant (flaggedRows rows).length)
      (moment e o rows archive schedule) :=
  (Pool.accounts_start archive).run (steadfast_shift e o) (labelled_shift e o) schedule

/-- Survey with one worker after the other. -/
theorem run_eq (e : Engine σ) (o : SurveyOptions) (rows : List ResultRow) (archive : Archive σ) :
    ∃ now, (run e o rows archive).1 = collect e rows now
      (moment e o rows archive (Pool.inTurn (o.workers e.run.reentrant (flaggedRows rows).length)
        (flaggedRows rows).length)).results :=
  ⟨_, rfl⟩

/-- The entries of two surveys whose rows but one come to the same. -/
def SameBut (k : Nat) (x x' : SurveyEntry) : Prop :=
  x.index = x'.index ∧ (x.index ≠ k → x = x')

theorem lockstep_moment {e' : Engine σ'} {archive' : Archive σ'}
    {alike : Archive σ → Archive σ' → Prop} {k : Nat}
    (hreentrant : e'.run.reentrant = e.run.reentrant) (harchive : alike archive archive')
    (hrows : ∀ j ∈ flaggedRows rows, ∀ s s', alike s s' →
      (j.2 ≠ k → (bisectRow e o j.1 s).1 = (bisectRow e' o j.1 s').1) ∧
      alike (bisectRow e o j.1 s).2 (bisectRow e' o j.1 s').2) (schedule : List Nat) :
    Pool.Lockstep (flaggedRows rows) alike (SameBut k) (moment e o rows archive schedule)
      (moment e' o rows archive' schedule) := by
  rw [moment, moment, hreentrant]
  refine (Pool.lockstep_start harchive).run (steadfast_shift e o) (steadfast_shift e' o)
    (fun j hj s s' halike => ?_) schedule
  obtain ⟨hreport, hafter⟩ := hrows j hj s s' halike
  exact ⟨⟨rfl, fun hk => congrArg (SurveyEntry.mk j.2 j.1) (hreport hk)⟩, hafter⟩

theorem mem_of_forall₂ {k : Nat} {xs xs' : List SurveyEntry}
    (h : List.Forall₂ (SameBut k) xs xs') {x : SurveyEntry} (hk : x.index ≠ k) :
    x ∈ xs ↔ x ∈ xs' := by
  induction h with
  | nil => exact Iff.rfl
  | @cons y y' ys ys' hsame _ ih =>
      rw [List.mem_cons, List.mem_cons, ih]
      refine or_congr_left ⟨?_, ?_⟩
      · rintro rfl
        exact hsame.2 hk
      · rintro rfl
        exact (hsame.2 (hsame.1 ▸ hk)).symm

/-- Whatever the results, the options and the order of the steps: no more rows are in progress than
there are workers, and one at a time when the test is not reentrant; once every worker has had its
turns, all are gone; and when they are, the report has one entry for each flagged row, found by
bisecting that row at some moment of the run. Where the bisections of the other rows come to the
same, what one row comes to changes none of their entries. A survey is such a run. -/
theorem run_complete (e : Engine σ) (o : SurveyOptions) (rows : List ResultRow)
    (archive : Archive σ) :
    (∀ schedule,
      ((moment e o rows archive schedule).inProgress label).length ≤
        o.workers e.run.reentrant (flaggedRows rows).length ∧
      (e.run.reentrant = false →
        ((moment e o rows archive schedule).inProgress label).length ≤ 1)) ∧
    (∀ schedule, (∀ w < o.workers e.run.reentrant (flaggedRows rows).length,
        4 * ((flaggedRows rows).length + 1) ≤ schedule.count w) →
      (moment e o rows archive schedule).Over) ∧
    (∀ schedule now, (moment e o rows archive schedule).Over →
      Complete rows (collect e rows now (moment e o rows archive schedule).results) ∧
      ∀ x ∈ (collect e rows now (moment e o rows archive schedule).results).entries,
        ∃ before, before <+: schedule ∧
          x.report = (bisectRow e o x.row (moment e o rows archive before).state).1) ∧
    (∀ (e' : Engine σ) (archive' : Archive σ) (alike : Archive σ → Archive σ → Prop) (k : Nat),
      e'.run.reentrant = e.run.reentrant → alike archive archive' →
      (∀ j ∈ flaggedRows rows, ∀ s s', alike s s' →
        (j.2 ≠ k → (bisectRow e o j.1 s).1 = (bisectRow e' o j.1 s').1) ∧
        alike (bisectRow e o j.1 s).2 (bisectRow e' o j.1 s').2) →
      ∀ schedule now now' x, x.index ≠ k →
        (x ∈ (collect e rows now (moment e o rows archive schedule).results).entries ↔
          x ∈ (collect e' rows now' (moment e' o rows archive' schedule).results).entries)) ∧
    ∃ schedule now, (moment e o rows archive schedule).Over ∧
      (run e o rows archive).1 =
        collect e rows now (moment e o rows archive schedule).results := by
  have hlength (schedule : List Nat) : ((moment e o rows archive schedule).inProgress label).length
      ≤ o.workers e.run.reentrant (flaggedRows rows).length :=
    (Pool.length_inProgress_le label _).trans_eq (accounts_moment schedule).crew
  have hover (schedule : List Nat)
      (hturns : ∀ w < o.workers e.run.reentrant (flaggedRows rows).length,
        4 * ((flaggedRows rows).length + 1) ≤ schedule.count w) :
      (moment e o rows archive schedule).Over :=
    Pool.over_run (shift e o) archive hturns
  refine ⟨fun schedule => ⟨hlength schedule, fun hserial => ?_⟩, hover,
    fun schedule now hgone => ⟨?_, fun x hx => ?_⟩, ?_, ?_⟩
  · exact (hlength schedule).trans (hserial ▸ workers_le_one o _)
  · exact complete_collect ((accounts_moment schedule).perm_of_over (workers_pos o _ _) hgone)
  · obtain ⟨before, job, hbefore, rfl⟩ := (Pool.traces_run (steadfast_shift e o) archive
      schedule).results x (mem_entries_collect.mp hx)
    exact ⟨before, hbefore, rfl⟩
  · intro e' archive' alike k hreentrant harchive hrows schedule now now' x hk
    rw [mem_entries_collect, mem_entries_collect]
    exact mem_of_forall₂ (lockstep_moment hreentrant harchive hrows schedule).results hk
  · obtain ⟨now, hrun⟩ := run_eq e o rows archive
    refine ⟨_, now, hover _ fun w hw => ?_, hrun⟩
    rw [Pool.count_inTurn, if_pos hw]

/-! ### Two workers on three rows -/

/-- Files of which nothing is built, since the run is asked to stop before. -/
def stopped (units : List SourceUnit) : Scenario where
  units := units
  symbols := fun _ => []
  ends := fun _ => .ok ⟨.code 0, "x", "", 1⟩
  stops := fun _ => true

theorem bisectRow_stopped (units : List SourceUnit) (o : SurveyOptions) (row : ResultRow)
    (s : Archive Shelf) :
    (bisectRow (stopped units).engine o row s).1 =
      ({ (stopped []).engine.blank (request o row) "" with status := .aborted }.addIssue
        ⟨.cancelled, row.flags.display, "not started"⟩) := rfl

def twoAtATime : SurveyOptions := ⟨2, 1, "t"⟩

/-- The row in the middle is not flagged. -/
def threeRows : List ResultRow :=
  [⟨"t", "double", "g++", "-O3", "", some 1⟩, ⟨"t", "double", "g++", "-O2", "", some 0⟩,
    ⟨"u", "double", "g++", "-O3", "", some 2⟩]

/-- Before the survey. -/
def fresh : Archive Shelf := ⟨⟨.empty, .empty⟩, .empty⟩

/-- The two workers take turns. -/
def alternating : List Nat := (List.replicate 12 [0, 1]).flatten

/-- The report of the three rows with these files. -/
def reportOf (units : List SourceUnit) : SurveyReport :=
  collect (stopped units).engine threeRows ""
    (moment (stopped units).engine twoAtATime threeRows fresh alternating).results

theorem run_complete_threeRows :
    ((moment (stopped [⟨"a.c"⟩]).engine twoAtATime threeRows fresh [0, 1, 1, 0, 1]).inProgress
        label).length ≤ 2 ∧
      (moment (stopped [⟨"a.c"⟩]).engine twoAtATime threeRows fresh alternating).Over ∧
      Complete threeRows (reportOf [⟨"a.c"⟩]) ∧
      ∀ x, x.index ≠ 0 →
        (x ∈ (reportOf [⟨"a.c"⟩]).entries ↔ x ∈ (reportOf [⟨"b.c"⟩]).entries) := by
  obtain ⟨hbusy, hover, hcomplete, hother, -⟩ :=
    run_complete (stopped [⟨"a.c"⟩]).engine twoAtATime threeRows fresh
  have hworkers : twoAtATime.workers (stopped [⟨"a.c"⟩]).engine.run.reentrant
      (flaggedRows threeRows).length = 2 := by decide +kernel
  have hturns : ∀ w < 2, 4 * ((flaggedRows threeRows).length + 1) ≤ alternating.count w := by
    decide +kernel
  rw [hworkers] at hover
  have hgone := hover alternating hturns
  refine ⟨(hbusy [0, 1, 1, 0, 1]).1.trans_eq hworkers, hgone, (hcomplete alternating "" hgone).1,
    ?_⟩
  exact hother (stopped [⟨"b.c"⟩]).engine fresh (fun _ _ => True) 0 rfl trivial
    (fun j _ s s' _ => ⟨fun _ => by rw [bisectRow_stopped, bisectRow_stopped], trivial⟩)
    alternating "" ""

end Survey

end Culprit
