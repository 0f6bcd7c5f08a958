import Culprit.Csv
import Culprit.Report.Label
import Culprit.Survey

/-!
The findings of a survey as a table: a record for each suspect symbol, one for each suspect file
without symbols, and one for each report without suspects.
-/

namespace Culprit.SurveyReport

def columns : List String :=
  ["index", "test", "precision", "variant", "status", "whole_score", "file", "file_score", "symbol",
    "signature", "location", "symbol_score"]

def scoreField (s? : Option Score) : String :=
  (s?.map Score.display).getD ""

/-- The six columns that all records of an entry share. -/
def entryColumns (e : SurveyEntry) : List String :=
  [toString e.index, e.report.test, e.report.precision, e.report.variant, e.report.status.label,
    scoreField e.report.whole?]

def symbolColumns (s : SymbolFinding) : List String :=
  [s.symbol.name, s.symbol.signature, s.symbol.location, s.score.display]

/-- The six columns of a file, for each of its symbols. -/
def fileColumns (f : FileFinding) : List (List String) :=
  if f.symbols.isEmpty then [[f.unit.path, f.score.display, "", "", "", ""]]
  else f.symbols.map fun s => f.unit.path :: f.score.display :: symbolColumns s

def entryRecords (e : SurveyEntry) : List (List String) :=
  if e.report.files.isEmpty then [entryColumns e ++ ["", "", "", "", "", ""]]
  else (e.report.files.flatMap fileColumns).map fun cols => entryColumns e ++ cols

def records (r : SurveyReport) : List (List String) :=
  columns :: r.entries.flatMap entryRecords

def csv (r : SurveyReport) : String :=
  Csv.write r.records

end Culprit.SurveyReport
