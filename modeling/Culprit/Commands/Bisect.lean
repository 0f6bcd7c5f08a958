import Culprit.Commands.Terminal
import Culprit.Report.Summary

/-!
The command that bisects one configuration and shows its trials as they come.
-/

namespace Culprit.Commands

structure Bisect where
  precision : String
  /-- The variant flags in one text. -/
  compilation : String
  test : String
  search : SearchOptions
  json? : Option String
deriving DecidableEq, Repr

namespace Bisect

def form : Form where
  options := SearchOptions.forms ++ [⟨"json", none, .path⟩]
  words := [.text, .text, .text]

def ofGiven (g : Given) : Bisect where
  precision := g.word 0
  compilation := g.word 1
  test := g.word 2
  search := .ofGiven g
  json? := g.text? "json"

def request (c : Bisect) (variant : Flags) : Request :=
  ⟨c.test, c.precision, variant, max c.search.jobs 1⟩

def headline (q : Request) (trusted : Flags) : String :=
  "Bisecting " ++ q.test ++ " [" ++ q.precision ++ "]: " ++ q.variant.display ++ " against " ++
    trusted.display

/-- A report that did not complete is shown and written all the same. -/
def run (c : Bisect) : Attempt Terminal Unit := do
  let project ← c.search.project
  let variant ← Attempt.of (Flags.parse c.compilation)
  let engine ← c.search.engine project
  let request := c.request variant
  Terminal.printLine (headline request engine.trusted)
  let report ← ExceptT.mk (Terminal.inArchive (engine.bisect request).run)
  Terminal.print ("\n" ++ report.summary)
  match c.json? with
  | some path => Terminal.writeReport .file path report.toJson.pretty
  | none => pure ()
  if report.status = .aborted then throw .notCompleted

end Bisect

end Culprit.Commands
