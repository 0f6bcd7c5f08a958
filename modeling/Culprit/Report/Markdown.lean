import Culprit.Report.Label
import Culprit.Survey
import Culprit.Text.Substitute

/-!
Reports as Markdown: one section for each report, with a table of findings, a list of interactions
and a table of issues, and a summary table above the sections of a survey.
-/

namespace Culprit

/-- A row of a table from its cells. -/
def tableRow (cells : List String) : String :=
  "| " ++ String.intercalate " | " cells ++ " |\n"

def code (s : String) : String :=
  "\x60" ++ s ++ "\x60"

namespace Report

def findingHeader : List String :=
  ["| File | Score | Symbol | Location | Score |\n",
    "|------|-------|--------|----------|-------|\n"]

/-- The file and its score stand in its first row only. -/
def symbolRow (f : FileFinding) (s : SymbolFinding) (position : Nat) : String :=
  tableRow [if position = 0 then code f.unit.path else "",
    if position = 0 then f.score.text else "",
    code s.symbol.signature, s.symbol.location, s.score.text]

def findingRows (f : FileFinding) : List String :=
  if f.symbols.isEmpty then [tableRow [code f.unit.path, f.score.text, "-", "-", "-"]]
  else f.symbols.zipIdx.map fun p => symbolRow f p.1 p.2

/-- A bar inside a detail is escaped, and a line break becomes a blank. -/
def cellText (s : String) : String :=
  Text.substitute "\n" " " (Text.substitute "|" "\\|" s)

def issueHeader : List String :=
  ["| Issue | Context | Detail |\n", "|-------|---------|--------|\n"]

def issueRow (i : Issue) : String :=
  tableRow [i.kind.sign ++ " " ++ i.kind.label, i.context, cellText i.detail]

def interactionItem (i : Interaction) : String :=
  "- " ++ i.scope ++ ": [" ++ String.intercalate ", " i.members ++ "], isolated: [" ++
    String.intercalate ", " i.attributed ++ "]\n"

/-- A part of a section, left out when it has no rows; a blank line ends it. -/
def part (header rows : List String) : List String :=
  if rows.isEmpty then [] else header ++ rows ++ ["\n"]

def headRows (r : Report) : List String :=
  ["| | |\n", "|---|---|\n",
    tableRow ["**Test**", code r.test],
    tableRow ["**Precision**", r.precision],
    tableRow ["**Variant**", code r.variant],
    tableRow ["**Status**", r.status.label],
    tableRow ["**Whole-build score**", scoreCell r.whole?],
    tableRow ["**Verification score**", scoreCell r.verification?],
    tableRow ["**Trials**", toString r.executed]]

def sectionLines (heading : String) (r : Report) : List String :=
  ["### " ++ r.status.sign ++ " " ++ heading ++ "\n", "\n"] ++ r.headRows ++ ["\n"] ++
    part findingHeader (r.files.flatMap findingRows) ++
    part ["**Interactions** (not attributable to single elements):\n", "\n"]
      (r.interactions.map interactionItem) ++
    part issueHeader (r.issues.map issueRow)

def markdownSection (heading : String) (r : Report) : String :=
  String.join (sectionLines heading r)

end Report

namespace SurveyReport

def sign (r : SurveyReport) : String :=
  if r.countStatus .noBaseline > 0 || r.countStatus .aborted > 0 then "⚠️" else "✅"

/-- The first `n` bytes of the text, unless it is shorter or a character is cut there. -/
def bytePrefix? (n : Nat) (s : String) : Option String :=
  go n s.toList []
where
  go : Nat → List Char → List Char → Option String
    | 0, _, read => some (String.ofList read.reverse)
    | _ + 1, [], _ => none
    | left + 1, c :: r, read =>
      if c.utf8Size ≤ left + 1 then go (left + 1 - c.utf8Size) r (c :: read) else none
  termination_by _ cs => cs.length

/-- Date and time to the second. -/
def generatedText (r : SurveyReport) : String :=
  Text.substitute "T" " " ((bytePrefix? 19 r.generatedAt).getD r.generatedAt)

def environmentRows : Option Environment → List String
  | none => []
  | some e =>
    tableRow ["**Host**", e.hostname?.getD "-" ++ " (" ++ e.os ++ ")"] ::
      (e.commit?.map fun c => tableRow ["**Commit**", code c]).toList

def summaryRows (r : SurveyReport) : List String :=
  ["| Metric | Count |\n", "|--------|-------|\n",
    tableRow ["Rows", toString r.rowsTotal],
    tableRow ["Skipped (zero score)", toString r.rowsSkipped],
    tableRow ["Bisected", toString r.entries.length],
    tableRow ["Completed", toString (r.countStatus .completed)],
    tableRow ["No baseline", toString (r.countStatus .noBaseline)],
    tableRow ["Issues", toString r.issueCount]]

def heading (e : SurveyEntry) : String :=
  "#" ++ toString e.index ++ " " ++ e.report.test ++ " / " ++ e.report.variant

def markdown (r : SurveyReport) : String :=
  String.join <|
    ["## " ++ r.sign ++ " fp-bisect Report\n", "\n", "| | |\n", "|---|---|\n",
      tableRow ["**Trusted**", code r.trusted], tableRow ["**Generated**", r.generatedText]] ++
    environmentRows r.environment? ++ ["\n", "### Summary\n", "\n"] ++ r.summaryRows ++ ["\n"] ++
    r.entries.map fun e => e.report.markdownSection (heading e)

end SurveyReport

end Culprit
