import Culprit.Proofs.Report.Codec
import Mathlib.Data.String.Basic

/-!
Survey reports read back from what is written of them. A comparison that is infinite or no number
has no text of its own and is written as if there were none. Everything else comes back.
-/

namespace Culprit

open Json (Restores SameText read_fields read_next)

/-! ### Environments -/

namespace Environment

/-- The integers are below the bounds of their fields, and the compilers in the order of their
names. -/
structure Fits (e : Environment) : Prop where
  cores : ∀ n ∈ e.cpuCores?, n < Json.halfBound
  ram : ∀ n ∈ e.ramBytes?, n < Json.wordBound
  compilers : e.compilers.Pairwise fun p q => p.1 < q.1

theorem insertSorted_last {key value : String} {pairs : List (String × String)}
    (h : ∀ p ∈ pairs, p.1 < key) : insertSorted key value pairs = pairs ++ [(key, value)] := by
  induction pairs with
  | nil => rfl
  | cons p pairs ih =>
      obtain ⟨hp, hpairs⟩ := List.forall_mem_cons.mp h
      rw [insertSorted, if_neg hp.ne', if_neg hp.not_gt, ih hpairs]
      rfl

/-- Names in order are put where they were. -/
theorem foldl_insertSorted {before pairs : List (String × String)}
    (h : (before ++ pairs).Pairwise fun p q => p.1 < q.1) :
    pairs.foldl (fun acc p => insertSorted p.1 p.2 acc) before = before ++ pairs := by
  induction pairs generalizing before with
  | nil => exact (List.append_nil before).symm
  | cons p pairs ih =>
      have hlast : ∀ q ∈ before, q.1 < p.1 :=
        fun q hq => (List.pairwise_append.mp h).2.2 q hq p List.mem_cons_self
      rw [List.foldl_cons, insertSorted_last hlast, ih]
      · rw [List.append_assoc, List.singleton_append]
      · rwa [List.append_assoc, List.singleton_append]

theorem restores_texts {pairs : List (String × String)}
    (h : pairs.Pairwise fun p q => p.1 < q.1) :
    Restores texts? (.object (pairs.map fun p => (p.1, .string p.2))) pairs where
  faithful := Json.faithful_object.mpr (List.forall_mem_map.mpr fun _ _ => trivial)
  read := by
    have hread : (pairs.map fun p => (p.1, Json.string p.2)).mapM
        (fun p => p.2.string?.map fun s => (p.1, s)) = some pairs := by
      induction pairs with
      | nil => rfl
      | cons p pairs ih =>
          rw [List.map_cons, List.mapM_cons, ih h.of_cons]
          rfl
    rw [texts?, hread]
    exact congrArg some (foldl_insertSorted h)
  ne_null := nofun

theorem restores {e : Environment} (h : e.Fits) : Restores Environment.ofJson? e.toJson e := by
  have hcompilers : ∀ j ∈ e.compilersJson?, j.Faithful := by
    intro j hj
    rw [compilersJson?] at hj
    split at hj
    · cases hj
    · obtain rfl := Option.some.inj hj
      exact (restores_texts h.compilers).faithful
  refine ⟨?_, ?_, nofun⟩
  · refine Json.faithful_present ?_
    simp only [List.forall_mem_cons, Json.faithful_of_mem_map]
    simpa [Json.natural] using hcompilers
  · rw [ofJson?, toJson]
    refine read_fields (by decide) rfl fun f hold => ?_
    refine read_next (hold.optional? rfl fun s _ => .string s) ?_
    refine read_next (hold.optional? rfl fun n hn => .natural (h.cores n hn)) ?_
    refine read_next (hold.optional? rfl fun n hn => .natural (h.ram n hn)) ?_
    refine read_next (hold.required? rfl (.string e.os)) ?_
    refine read_next (hold.optional? rfl fun s _ => .string s) ?_
    refine read_next (hold.optional? rfl fun s _ => .string s) ?_
    refine read_next (hold.optional? rfl fun b _ => .bool b) ?_
    refine read_next ?_ rfl
    by_cases hempty : e.compilers = []
    · rw [Json.Fields.withDefault?, hold "compilers", compilersJson?, hempty]
      rfl
    · refine hold.withDefault? ?_ (restores_texts h.compilers)
      rw [compilersJson?, if_neg (by simpa using hempty)]
      rfl

end Environment

/-! ### Rows -/

namespace ResultRow

theorem restores {r : ResultRow} (h : ∀ c ∈ r.comparison?, Json.Exact c) :
    Restores ResultRow.ofJson? r.toJson r := by
  have hcomparison : ∀ c ∈ r.comparison?, Restores Json.real? (.real c) c :=
    fun c hc => .real (h c hc)
  have hfields : r.toJson = Json.present [("name", some (.string r.name)),
      ("precision", some (.string r.precision)), ("compiler", some (.string r.compiler)),
      ("optl", some (.string r.optimization)), ("switches", some (.string r.switches)),
      ("comparison", some ((r.comparison?.map Json.real).getD .null))] := rfl
  refine ⟨Json.faithful_object.mpr ?_, ?_, nofun⟩
  · cases hc : r.comparison? with
    | none => simp
    | some c => simpa using (hcomparison c hc).faithful
  · rw [ofJson?, hfields]
    refine read_fields (by decide) rfl fun f hold => ?_
    refine read_next (hold.withDefault? rfl (.string r.name)) ?_
    refine read_next (hold.required? rfl (.string r.precision)) ?_
    refine read_next (hold.required? rfl (.string r.compiler)) ?_
    refine read_next (hold.withDefault? rfl (.string r.optimization)) ?_
    refine read_next (hold.withDefault? rfl (.string r.switches)) ?_
    exact read_next (hold.nullable? rfl hcomparison) rfl

/-- The row as its text tells it. -/
def written (r : ResultRow) : ResultRow :=
  { r with comparison? := r.comparison?.filter fun c => decide (Decimal.Finite c) }

theorem written_eq_iff {r : ResultRow} :
    r.written = r ↔ ∀ c ∈ r.comparison?, Decimal.Finite c := by
  obtain ⟨_, _, _, _, _, _ | c⟩ := r
  · simp [written]
  · by_cases hc : Decimal.Finite c <;> simp [written, hc, Option.filter_some]

theorem finite_of_mem_written {r : ResultRow} {c : Float} (h : c ∈ r.written.comparison?) :
    c ∈ r.comparison? ∧ Decimal.Finite c := by
  simpa [written, Option.mem_filter_iff] using h

theorem sameText_written (r : ResultRow) : SameText r.toJson r.written.toJson := by
  have hcomparison : SameText ((r.comparison?.map Json.real).getD .null)
      ((r.written.comparison?.map Json.real).getD .null) := by
    intro level
    obtain ⟨_, _, _, _, _, _ | c⟩ := r
    · rfl
    · by_cases hc : Decimal.Finite c
      · simp [written, hc, Option.filter_some]
      · have hdropped : (some c).filter (fun c => decide (Decimal.Finite c)) = none := by simp [hc]
        simp only [written, hdropped]
        exact Json.json_of_not_finite hc
  exact Json.sameText_present [("name", some (.string r.name)),
    ("precision", some (.string r.precision)), ("compiler", some (.string r.compiler)),
    ("optl", some (.string r.optimization)), ("switches", some (.string r.switches))]
    [] "comparison" hcomparison

/-- A row is read back as its text tells it. -/
theorem read_pretty {r : ResultRow}
    (hexact : ∀ c ∈ r.comparison?, Decimal.Finite c → Json.Exact c) :
    (Json.parse? r.toJson.pretty).bind ResultRow.ofJson? = some r.written := by
  refine r.sameText_written.read_pretty (restores fun c hc => ?_)
  obtain ⟨hmem, hfinite⟩ := finite_of_mem_written hc
  exact hexact c hmem hfinite

/-- A flagged row is read back as one unless its comparison is infinite or no number. -/
theorem isFlagged_written {r : ResultRow} (h : r.isFlagged = true) :
    r.written.isFlagged = true ↔ ∀ c ∈ r.comparison?, Decimal.Finite c := by
  refine ⟨fun hflagged c hc => ?_, fun hfinite => by rwa [written_eq_iff.mpr hfinite]⟩
  by_contra hnot
  rw [isFlagged, written, Option.mem_def.mp hc] at hflagged
  simp [Option.filter_some, hnot] at hflagged

end ResultRow

/-! ### Surveys -/

namespace SurveyEntry

theorem restores {x : SurveyEntry} (hindex : x.index < Json.wordBound) (hfits : x.report.Fits)
    (hrow : ∀ c ∈ x.row.comparison?, Json.Exact c) (hreport : x.report.Within Score.Exact) :
    Restores SurveyEntry.ofJson? x.toJson x where
  faithful := Json.faithful_object.mpr (by
    simp [Json.natural, (ResultRow.restores hrow).faithful,
      (Report.restores hfits hreport).faithful])
  read := by
    have hfields : x.toJson = Json.present [("index", some (.natural x.index)),
      ("row", some x.row.toJson), ("report", some x.report.toJson)] := rfl
    rw [ofJson?, hfields]
    refine read_fields (by decide) rfl fun f hold => ?_
    refine read_next (hold.required? rfl (.natural hindex)) ?_
    refine read_next (hold.required? rfl (ResultRow.restores hrow)) ?_
    exact read_next (hold.required? rfl (Report.restores hfits hreport)) rfl
  ne_null := nofun

def written (x : SurveyEntry) : SurveyEntry :=
  { x with row := x.row.written }

theorem sameText_written (x : SurveyEntry) : SameText x.toJson x.written.toJson :=
  Json.sameText_present [("index", some (.natural x.index))]
    [("report", some x.report.toJson)] "row" x.row.sameText_written

end SurveyEntry

namespace SurveyReport

/-- The integers of a survey report are below the bounds of their fields. -/
structure Fits (r : SurveyReport) : Prop where
  version : r.version < Json.halfBound
  environment : ∀ a ∈ r.environment?, a.Fits
  total : r.rowsTotal < Json.wordBound
  skipped : r.rowsSkipped < Json.wordBound
  index : ∀ x ∈ r.entries, x.index < Json.wordBound
  report : ∀ x ∈ r.entries, x.report.Fits

/-- Every comparison and every score of a survey. -/
@[mk_iff]
structure Within (good : Float → Prop) (r : SurveyReport) : Prop where
  comparison : ∀ x ∈ r.entries, ∀ c ∈ x.row.comparison?, good c
  score : ∀ x ∈ r.entries, x.report.Within fun v => good v.value

instance (good : Float → Prop) [DecidablePred good] (r : SurveyReport) :
    Decidable (r.Within good) :=
  decidable_of_iff _ (within_iff good r).symm

theorem restores {r : SurveyReport} (hfits : r.Fits) (hexact : r.Within Json.Exact) :
    Restores SurveyReport.ofJson? r.toJson r := by
  have henvironment : ∀ a ∈ r.environment?, Restores Environment.ofJson? a.toJson a :=
    fun a ha => Environment.restores (hfits.environment a ha)
  have hentries := Restores.array fun x hx => SurveyEntry.restores (hfits.index x hx)
    (hfits.report x hx) (hexact.comparison x hx) (hexact.score x hx)
  refine ⟨?_, ?_, nofun⟩
  · refine Json.faithful_present ?_
    simp only [List.forall_mem_cons, Json.faithful_of_mem_map]
    simpa [Json.natural] using ⟨fun a ha => (henvironment a ha).faithful, hentries.faithful⟩
  · rw [ofJson?, toJson]
    refine read_fields (by decide) rfl fun f hold => ?_
    refine read_next (hold.required? rfl (.natural hfits.version)) ?_
    refine read_next (hold.required? rfl (.string r.generatedAt)) ?_
    refine read_next (hold.optional? rfl henvironment) ?_
    refine read_next (hold.required? rfl (.string r.trusted)) ?_
    refine read_next (hold.required? rfl (.natural hfits.total)) ?_
    refine read_next (hold.required? rfl (.natural hfits.skipped)) ?_
    exact read_next (hold.required? rfl hentries) rfl

/-- The report as its text tells it. -/
def written (r : SurveyReport) : SurveyReport :=
  { r with entries := r.entries.map SurveyEntry.written }

theorem written_eq_iff {r : SurveyReport} :
    r.written = r ↔ ∀ x ∈ r.entries, ∀ c ∈ x.row.comparison?, Decimal.Finite c := by
  have hentry (x : SurveyEntry) : x.written = x ↔ ∀ c ∈ x.row.comparison?, Decimal.Finite c := by
    rw [← ResultRow.written_eq_iff, SurveyEntry.written]
    exact ⟨fun h => congrArg SurveyEntry.row h, fun h => by rw [h]⟩
  have hentries : r.written = r ↔ r.entries.map SurveyEntry.written = r.entries.map id := by
    rw [List.map_id]
    exact ⟨fun h => congrArg SurveyReport.entries h, fun h => by rw [written, h]⟩
  rw [hentries, List.map_inj_left]
  exact forall₂_congr fun x _ => hentry x

theorem sameText_written (r : SurveyReport) : SameText r.toJson r.written.toJson := by
  have hentries : SameText (.array (r.entries.map SurveyEntry.toJson))
      (.array (r.written.entries.map SurveyEntry.toJson)) := by
    rw [written, List.map_map]
    exact Json.sameText_array fun x _ => x.sameText_written
  exact Json.sameText_present [("version", some (.natural r.version)),
    ("generated_at", some (.string r.generatedAt)),
    ("environment", r.environment?.map Environment.toJson), ("trusted", some (.string r.trusted)),
    ("rows_total", some (.natural r.rowsTotal)), ("rows_skipped", some (.natural r.rowsSkipped))]
    [] "entries" hentries

/-- A report whose scores are finite is read back as its text tells it. -/
theorem read_pretty {r : SurveyReport} (hfits : r.Fits)
    (hexact : r.Within fun v => Decimal.Finite v → Json.Exact v)
    (hscores : ∀ x ∈ r.entries, x.report.Within fun v => Decimal.Finite v.value) :
    (Json.parse? r.toJson.pretty).bind SurveyReport.ofJson? = some r.written := by
  have hfits' : r.written.Fits := by
    refine ⟨hfits.version, hfits.environment, hfits.total, hfits.skipped, ?_, ?_⟩
    · exact List.forall_mem_map.mpr hfits.index
    · exact List.forall_mem_map.mpr hfits.report
  have hexact' : r.written.Within Json.Exact := by
    refine ⟨List.forall_mem_map.mpr fun x hx c hc => ?_, List.forall_mem_map.mpr fun x hx => ?_⟩
    · obtain ⟨hmem, hfinite⟩ := ResultRow.finite_of_mem_written hc
      exact hexact.comparison x hx c hmem hfinite
    · exact (hexact.score x hx).mp (hscores x hx)
  exact r.sameText_written.read_pretty (restores hfits' hexact')

end SurveyReport

end Culprit
