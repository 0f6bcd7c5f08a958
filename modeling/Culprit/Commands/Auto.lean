import Culprit.Commands.Terminal
import Culprit.Report.Markdown
import Culprit.Report.Table
import Culprit.Results.Reader

/-!
The command that bisects every flagged row of a list of results and writes what it found.
-/

namespace Culprit.Commands

structure Auto where
  results : String
  parallel : Nat
  /-- The test of rows without a name. -/
  test : String
  search : SearchOptions
  output : String
  markdown? : Option String
  csv? : Option String
deriving DecidableEq, Repr

namespace Auto

def form : Form where
  options := SearchOptions.forms ++
    [⟨"parallel", none, .number⟩, ⟨"test", none, .text⟩, ⟨"output", none, .path⟩,
      ⟨"markdown", none, .path⟩, ⟨"csv", none, .path⟩]
  words := [.path]

def outputName : String := "fp-bisect-report.json"

def ofGiven (g : Given) : Auto where
  results := g.word 0
  parallel := g.number "parallel" 1
  test := g.text "test" ""
  search := .ofGiven g
  output := g.text "output" outputName
  markdown? := g.text? "markdown"
  csv? := g.text? "csv"

/-- The rows in a file. A directory can be opened, but its first row cannot be read. -/
def rows (path : String) : Attempt Terminal (List ResultRow) := do
  match ← ExceptT.lift (Terminal.onMachine (Machine.read path)) with
  | .ok bytes => Attempt.of (Results.read bytes.toList)
  | .error cause =>
    if cause.fault = .isDirectory then throw (.resultsRow 1 cause.message)
    else throw (.file (.open path) cause)

/-- The compilers that the survey will use, in the order of their names. -/
def compilers (e : Engine Terminal) (rows : List ResultRow) : List String :=
  Partition.sortedKeys
    ((e.trusted :: (flaggedRows rows).map (·.1.flags)).map e.lab.pipeline.compilerOf)

/-- The table goes below directories that are made when they are missing. -/
def writeTable (path text : String) : Attempt Terminal Unit := do
  match ← ExceptT.lift (Terminal.onMachine (TrialLog.makeParent path)) with
  | .error cause => throw (.file .createParent cause)
  | .ok () =>
    match ← ExceptT.lift (Terminal.onMachine (Machine.writeText path text)) with
    | .error cause => throw (.file (.create path) cause)
    | .ok () => pure ()

def countsLine (r : SurveyReport) : String :=
  toString r.rowsTotal ++ " rows, " ++ toString r.rowsSkipped ++ " skipped, " ++
    toString r.entries.length ++ " bisected (" ++
    toString (r.countStatus .completed + r.countStatus .noDivergence) ++ " completed, " ++
    toString (r.countStatus .noBaseline) ++ " without baseline, " ++
    toString (r.countStatus .aborted) ++ " aborted)"

def entryLine (e : SurveyEntry) : String :=
  "  #" ++ toString e.index ++ " " ++ e.report.precision ++ " " ++ e.report.variant ++ ": " ++
    e.report.status.label ++ " [" ++ String.intercalate " " e.report.fileKeys ++ "]"

def lines (r : SurveyReport) (output : String) : List String :=
  countsLine r :: r.entries.map entryLine ++ ["Report written to " ++ output]

/-- The survey itself. Its trials are not shown. -/
def survey (c : Auto) (e : Engine Terminal) (rows : List ResultRow) :
    StateM Terminal SurveyReport := do
  let about ← Terminal.onMachine (Shell.banners (← get).environment (compilers e rows))
  let quiet := { e with lab := { e.lab with observe := fun _ => pure () } }
  let r ← Terminal.inArchive (Survey.run quiet ⟨c.parallel, c.search.jobs, c.test⟩ rows)
  pure { r with environment? := some about }

def run (c : Auto) : Attempt Terminal Unit := do
  let project ← c.search.project
  let rows ← rows c.results
  let engine ← c.search.engine project
  let report ← ExceptT.lift (c.survey engine rows)
  Terminal.writeReport .file c.output report.toJson.pretty
  match c.markdown? with
  | some path => Terminal.writeReport .output path report.markdown
  | none => pure ()
  match c.csv? with
  | some path => writeTable path report.csv
  | none => pure ()
  (lines report c.output).forM fun l => ExceptT.lift (Terminal.printLine l)

end Auto

end Culprit.Commands
