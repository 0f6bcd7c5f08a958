import Culprit.Report.Label

/-!
The plain-text summary of one report.
-/

namespace Culprit.Report

def fileLine (f : FileFinding) : String :=
  "    " ++ f.unit.path ++ "  score=" ++ f.score.text ++ "\n"

def symbolLine (s : SymbolFinding) : String :=
  "    " ++ s.symbol.location ++ "  " ++ s.symbol.signature ++ "  score=" ++ s.score.text ++ "\n"

def fileLines (r : Report) : List String :=
  if r.files.isEmpty then ["  no suspect files\n"]
  else "  suspect files:\n" :: r.files.map fileLine ++
    "  suspect symbols:\n" :: r.files.flatMap fun f => f.symbols.map symbolLine

def verificationLines (r : Report) : List String :=
  match r.verification? with
  | some s => ["  verification (suspect files only): " ++ s.text ++ "\n"]
  | none => []

def interactionLine (i : Interaction) : String :=
  "  interaction in " ++ i.scope ++ ": [" ++ String.intercalate " " i.members ++ "]\n"

def issueLine (i : Issue) : String :=
  "  " ++ i.kind.label ++ ": " ++ i.context ++ ": " ++ i.detail ++ "\n"

def summary (r : Report) : String :=
  String.join <|
    [r.status.label ++ " " ++ r.test ++ " [" ++ r.precision ++ "] " ++ r.variant ++ " vs " ++
        r.trusted ++ "\n",
      "  whole-build score: " ++ scoreCell r.whole? ++ ", trials executed: " ++
        toString r.executed ++ "\n"] ++
    r.fileLines ++ r.verificationLines ++ r.interactions.map interactionLine ++
    r.issues.map issueLine

end Culprit.Report
