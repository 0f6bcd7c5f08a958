import Culprit.Proofs.Csv
import Culprit.Report.Table
import Mathlib.Data.List.Nodup

/-!
The table of a survey's findings is read back from its text. Its records are the header and then one
for each suspect symbol, each suspect file without symbols and each entry without suspects, in the
order of the report; which of the three a record tells of is seen from its own score columns.
-/

namespace Culprit

namespace Decimal

theorem Scaled.positional_ne_nil (s : Scaled) : s.positional ≠ [] := by
  rw [positional]
  split_ifs
  · exact List.append_ne_nil_of_left_ne_nil Nat.toDigits_ne_nil _
  · simp
  · simp

theorem plain_ne_empty (x : Float) : plain x ≠ "" := by
  rw [plain, withSign]
  split
  · decide
  · split <;> decide
  · next d _ =>
      split_ifs
      · simp
      · simpa using (shortest d).positional_ne_nil

end Decimal

theorem Score.display_ne_empty (s : Score) : s.display ≠ "" :=
  Decimal.plain_ne_empty s.value

/-- Every status has a word of its own. -/
theorem Status.label_injective : Function.Injective label := by
  have hwords : (all.map label).Nodup := by decide
  have hall (t : Status) : t ∈ all := by cases t <;> decide
  exact fun t t' h => List.inj_on_of_nodup_map hwords (hall t) (hall t') h

namespace SurveyReport

/-- What one record tells: that an entry has no suspects, a suspect file without suspect symbols, or
a suspect symbol of a suspect file. -/
inductive Finding where
  | nothing (e : SurveyEntry)
  | file (e : SurveyEntry) (f : FileFinding)
  | symbol (e : SurveyEntry) (f : FileFinding) (s : SymbolFinding)

namespace Finding

def entry : Finding → SurveyEntry
  | .nothing e | .file e _ | .symbol e _ _ => e

def file? : Finding → Option FileFinding
  | .nothing _ => none
  | .file _ f | .symbol _ f _ => some f

def symbol? : Finding → Option (SurveyEntry × FileFinding × SymbolFinding)
  | .nothing _ | .file _ _ => none
  | .symbol e f s => some (e, f, s)

def suspect? (x : Finding) : Option SymbolFinding :=
  x.symbol?.map fun found => found.2.2

/-- The text of something that there may not be. -/
def shown {α : Type} (text : α → String) (a? : Option α) : String :=
  (a?.map text).getD ""

/-- Where a symbol is: a line of a file, or the file, or else the unit. -/
def place (s : LinkSymbol) : String :=
  match s.file? with
  | some path => path ++ shown (fun line => ":" ++ toString line) s.line?
  | none => s.unit

/-- The names of the columns. -/
def heading : List String :=
  ["index", "test", "precision", "variant", "status", "whole_score",
    "file", "file_score",
    "symbol", "signature", "location", "symbol_score"]

/-- What a record has in each column. The first six are of the entry, two of the file and four of
the symbol; what there is not is empty. -/
def fields (x : Finding) : List String :=
  [toString x.entry.index, x.entry.report.test, x.entry.report.precision, x.entry.report.variant,
    x.entry.report.status.label, shown Score.display x.entry.report.whole?,
    shown (·.unit.path) x.file?, shown (·.score.display) x.file?,
    shown (·.symbol.name) x.suspect?, shown (·.symbol.signature) x.suspect?,
    shown (fun s => place s.symbol) x.suspect?, shown (·.score.display) x.suspect?]

theorem location_eq (s : LinkSymbol) : s.location = place s := by
  obtain ⟨unit, name, signature, file?, line?⟩ := s
  cases file? with
  | none => rfl
  | some path =>
      cases line? with
      | none => exact (String.append_empty).symm
      | some line => exact String.append_assoc ..

theorem fields_symbol (e : SurveyEntry) (f : FileFinding) (s : SymbolFinding) :
    (symbol e f s).fields =
      entryColumns e ++ f.unit.path :: f.score.display :: symbolColumns s := by
  rw [symbolColumns, location_eq]
  rfl

theorem length_fields (x : Finding) : x.fields.length = 12 := by
  cases x <;> rfl

theorem fileScore_eq_empty_iff (x : Finding) : x.fields[7]? = some "" ↔ x.file? = none := by
  cases x with
  | nothing e => exact ⟨fun _ => rfl, fun _ => rfl⟩
  | _ => exact ⟨fun h => absurd (Option.some.inj h) (Score.display_ne_empty _), nofun⟩

theorem symbolScore_eq_empty_iff (x : Finding) : x.fields[11]? = some "" ↔ x.symbol? = none := by
  cases x with
  | symbol e f s => exact ⟨fun h => absurd (Option.some.inj h) (Score.display_ne_empty _), nofun⟩
  | _ => exact ⟨fun _ => rfl, fun _ => rfl⟩

end Finding

/-- The findings of a file, in the order of its symbols. -/
def findingsIn (e : SurveyEntry) (f : FileFinding) : List Finding :=
  if f.symbols.isEmpty then [.file e f] else f.symbols.map (.symbol e f)

/-- The findings of an entry, in the order of its files. -/
def findingsOf (e : SurveyEntry) : List Finding :=
  if e.report.files.isEmpty then [.nothing e] else e.report.files.flatMap (findingsIn e)

def findings (r : SurveyReport) : List Finding :=
  r.entries.flatMap findingsOf

/-- A suspect symbol with the file and the entry that it was found in. -/
def symbolsFound (r : SurveyReport) : List (SurveyEntry × FileFinding × SymbolFinding) :=
  r.entries.flatMap fun e => e.report.files.flatMap fun f => f.symbols.map fun s => (e, f, s)

theorem fields_findingsIn (e : SurveyEntry) (f : FileFinding) :
    (findingsIn e f).map Finding.fields = (fileColumns f).map (entryColumns e ++ ·) := by
  rw [findingsIn, fileColumns]
  split_ifs
  · rfl
  · rw [List.map_map, List.map_map]
    exact List.map_congr_left fun s _ => Finding.fields_symbol e f s

/-- The records of an entry are those of its findings. -/
theorem fields_findingsOf (e : SurveyEntry) :
    (findingsOf e).map Finding.fields = entryRecords e := by
  rw [findingsOf, entryRecords]
  split_ifs
  · rfl
  · rw [List.map_flatMap, List.map_flatMap]
    exact List.flatMap_congr fun f _ => fields_findingsIn e f

theorem records_eq (r : SurveyReport) :
    r.records = Finding.heading :: r.findings.map Finding.fields := by
  have hcolumns : columns = Finding.heading := rfl
  rw [records, hcolumns, findings, List.map_flatMap]
  exact congrArg (Finding.heading :: ·)
    (List.flatMap_congr fun e _ => (fields_findingsOf e).symm)

theorem symbols_findings (r : SurveyReport) :
    r.findings.filterMap Finding.symbol? = r.symbolsFound := by
  have hfile (e : SurveyEntry) (f : FileFinding) : (findingsIn e f).filterMap Finding.symbol? =
      f.symbols.map fun s => (e, f, s) := by
    rw [findingsIn]
    split_ifs with hempty
    · rw [List.isEmpty_iff.mp hempty]
      rfl
    · rw [List.filterMap_map]
      exact congrFun List.filterMap_eq_map f.symbols
  rw [findings, symbolsFound, List.filterMap_flatMap]
  refine List.flatMap_congr fun e _ => ?_
  rw [findingsOf]
  split_ifs with hempty
  · rw [List.isEmpty_iff.mp hempty]
    rfl
  · rw [List.filterMap_flatMap]
    exact List.flatMap_congr fun f _ => hfile e f

/-- Where the records of an entry stand: the entry alone if it has no suspects, and otherwise each
of its files once for each of its suspect symbols, and once if it has none. -/
def placesOf (e : SurveyEntry) : List (SurveyEntry × Option FileFinding) :=
  if e.report.files.isEmpty then [(e, none)]
  else e.report.files.flatMap fun f => List.replicate (max 1 f.symbols.length) (e, some f)

theorem places_findings (r : SurveyReport) :
    (r.findings.map fun x => (x.entry, x.file?)) = r.entries.flatMap placesOf := by
  have hfile (e : SurveyEntry) (f : FileFinding) :
      ((findingsIn e f).map fun x => (x.entry, x.file?)) =
        List.replicate (max 1 f.symbols.length) (e, some f) := by
    rw [findingsIn]
    split_ifs with hempty
    · rw [List.isEmpty_iff.mp hempty]
      rfl
    · have hsymbols : 1 ≤ f.symbols.length :=
        List.length_pos_iff.mpr (mt List.isEmpty_iff.mpr hempty)
      have hplace : (fun x : Finding => (x.entry, x.file?)) ∘ .symbol e f =
          fun _ => (e, some f) := rfl
      rw [List.map_map, Nat.max_eq_right hsymbols, hplace]
      exact List.map_const'
  rw [findings, List.map_flatMap]
  refine List.flatMap_congr fun e _ => ?_
  rw [findingsOf, placesOf]
  split_ifs with hempty
  · rfl
  · rw [List.map_flatMap]
    exact List.flatMap_congr fun f _ => hfile e f

theorem head?_csv (r : SurveyReport) : r.csv.toList.head? = some 'i' := by
  rw [csv, Csv.toList_write, records_eq, List.map_cons, List.flatMap_cons]
  rfl

/-- Read back from its text, the table is the header and then the records of the findings, each of
twelve fields and each field as it was. They stand entry by entry and file by file, every suspect
symbol is told of once and in its place, and the score columns show what a record is about. -/
theorem csv_lossless (r : SurveyReport) :
    Csv.texts? r.csv = some (Finding.heading :: r.findings.map Finding.fields) ∧
      Finding.heading.length = 12 ∧ (∀ x ∈ r.findings, x.fields.length = 12) ∧
      (r.findings.map fun x => (x.entry, x.file?)) = r.entries.flatMap placesOf ∧
      r.findings.filterMap Finding.symbol? = r.symbolsFound ∧
      (∀ x ∈ r.findings, (x.fields[7]? = some "" ↔ x.file? = none) ∧
        (x.fields[11]? = some "" ↔ x.symbol? = none)) ∧
      Function.Injective Status.label := by
  refine ⟨?_, rfl, fun x _ => x.length_fields, places_findings r, symbols_findings r,
    fun x _ => ⟨x.fileScore_eq_empty_iff, x.symbolScore_eq_empty_iff⟩, Status.label_injective⟩
  rw [← records_eq]
  refine Csv.texts?_write (fun fs hfs => ?_) ?_
  · rw [records_eq] at hfs
    rcases List.mem_cons.mp hfs with rfl | hfs
    · exact List.cons_ne_nil _ _
    · obtain ⟨x, -, rfl⟩ := List.mem_map.mp hfs
      exact List.ne_nil_of_length_pos (x.length_fields ▸ Nat.zero_lt_succ _)
  · show r.csv.toList.head? ≠ _
    rw [head?_csv]
    decide

end SurveyReport

end Culprit
