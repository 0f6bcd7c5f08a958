import Culprit.Report

/-!
The words and signs under which statuses, issues and scores are shown.
-/

namespace Culprit

namespace IssueKind

def sign : IssueKind → String
  | .noBaseline => "❌"
  | .buildFailure => "🔨"
  | .runFailure => "💥"
  | .interaction => "🔀"
  | .cancelled => "⏹️"
  | .noSymbols => "⚠️"
  | .symbolsAgree => "⚠️"
  | .engine => "🛑"

def label : IssueKind → String
  | .noBaseline => "GROUND_TRUTH"
  | .buildFailure => "BUILD"
  | .runFailure => "RUNTIME"
  | .interaction => "INTERACTION"
  | .cancelled => "CANCELLED"
  | .noSymbols => "NO_SYMBOLS"
  | .symbolsAgree => "NOT_REPRODUCING"
  | .engine => "ENGINE"

end IssueKind

namespace Status

def sign : Status → String
  | .completed => "✅"
  | .noDivergence => "⚪"
  | .noBaseline => "❌"
  | .aborted => "⚠️"

def label : Status → String
  | .completed => "COMPLETED"
  | .noDivergence => "NO_DIVERGENCE"
  | .noBaseline => "NO_BASELINE"
  | .aborted => "ABORTED"

end Status

/-- Four decimal places; very small and very large values in scientific notation with three. -/
def scoreText (value : Float) : String :=
  if value == 0 then "0"
  else if value ≥ 1e4 || value < 1e-3 then Decimal.scientific 3 value
  else Decimal.fixed 4 value

def Score.text (s : Score) : String :=
  scoreText s.value

def scoreCell (s? : Option Score) : String :=
  (s?.map Score.text).getD "-"

end Culprit
