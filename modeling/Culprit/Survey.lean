import Culprit.Bisection
import Culprit.Pool
import Culprit.Results

/-!
A survey bisects every flagged row of a list of results, several at a time if the test allows it.
A row that cannot be bisected is reported and stops no other.
-/

namespace Culprit

/-- Where and with what compilers a survey was made. -/
structure Environment where
  cpuModel? : Option String
  cpuCores? : Option Nat
  ramBytes? : Option Nat
  os : String
  hostname? : Option String
  commit? : Option String
  dirty? : Option Bool
  /-- The version banner of each compiler, in the order of their names. -/
  compilers : List (String × String)
deriving DecidableEq, Repr

def Environment.bare (os : String) : Environment :=
  ⟨none, none, none, os, none, none, none, []⟩

/-- What the bisection of one row found. -/
structure SurveyEntry where
  index : Nat
  row : ResultRow
  report : Report
deriving DecidableEq, Repr

structure SurveyReport where
  version : Nat
  generatedAt : String
  environment? : Option Environment
  trusted : String
  rowsTotal : Nat
  /-- Rows that were not flagged. -/
  rowsSkipped : Nat
  entries : List SurveyEntry
deriving DecidableEq, Repr

namespace SurveyReport

def formatVersion : Nat := 1

def countStatus (r : SurveyReport) (s : Status) : Nat :=
  (r.entries.filter (·.report.status = s)).length

def issueCount (r : SurveyReport) : Nat :=
  (r.entries.map (·.report.issues.length)).foldr (· + ·) 0

end SurveyReport

structure SurveyOptions where
  /-- Rows bisected at the same time. -/
  parallel : Nat
  jobs : Nat
  /-- The test of rows without a name. -/
  defaultTest : String
deriving DecidableEq, Repr

/-- A test that is not reentrant runs one at a time, and no more workers than rows are needed. -/
def SurveyOptions.workers (o : SurveyOptions) (reentrant : Bool) (pending : Nat) : Nat :=
  min (if reentrant then max o.parallel 1 else 1) (max pending 1)

namespace Survey

variable {σ : Type}

/-- The kind of issue that an error outside every trial makes. -/
def issueKind (fault : Error) : IssueKind :=
  match fault.area with
  | .build => .buildFailure
  | .run => .runFailure
  | .baseline => .noBaseline
  | _ => .engine

def request (o : SurveyOptions) (row : ResultRow) : Request where
  test := row.testOr o.defaultTest
  precision := row.precision
  variant := row.flags
  jobs := max o.jobs 1

/-- What is reported of a row whose bisection ended in an error. -/
def failedReport (blank : Report) (variant : String) : Error → Report
  | .baseline _ detail => blank.withoutBaseline detail
  | fault =>
    { blank with status := .aborted }.addIssue ⟨issueKind fault, variant, fault.message⟩

def bisectRow (e : Engine σ) (o : SurveyOptions) (row : ResultRow) :
    StateM (Archive σ) Report := do
  let q := request o row
  let stop ← Archive.onSite (Site.lift e.lab.cancelled)
  if stop then do
    let now ← Archive.onSite (Site.lift e.lab.now)
    pure ({ e.blank q now with status := .aborted }.addIssue
      ⟨.cancelled, q.variant.display, "not started"⟩)
  else do
    match ← (e.bisect q).run with
    | .ok r => pure r
    | .error fault => do
      let now ← Archive.onSite (Site.lift e.lab.now)
      pure (failedReport (e.blank q now) q.variant.display fault)

def shift (e : Engine σ) (o : SurveyOptions) :
    Shift (ResultRow × Nat) (Archive σ) SurveyEntry where
  work job := do
    let r ← bisectRow e o job.1
    pure ⟨job.2, job.1, r⟩
  stop := pure false
  fails _ := false

/-- The entries come in the order of the rows, whichever was finished first. -/
def collect (e : Engine σ) (rows : List ResultRow) (now : String) (entries : List SurveyEntry) :
    SurveyReport where
  version := SurveyReport.formatVersion
  generatedAt := now
  environment? := none
  trusted := e.trusted.display
  rowsTotal := rows.length
  rowsSkipped := rows.length - (flaggedRows rows).length
  entries := entries.mergeSort fun a b => a.index ≤ b.index

def run (e : Engine σ) (o : SurveyOptions) (rows : List ResultRow) :
    StateM (Archive σ) SurveyReport := do
  let flagged := flaggedRows rows
  let workers := o.workers e.run.reentrant flagged.length
  let pool := Pool.drain (shift e o) flagged workers (← get)
  set pool.state
  let now ← Archive.onSite (Site.lift e.lab.now)
  pure (collect e rows now pool.results)

end Survey

end Culprit
