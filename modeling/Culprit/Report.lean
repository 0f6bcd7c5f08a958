import Culprit.Trial

/-!
What a bisection found: the suspect files, the suspect symbols in each, the sets that diverge only
together, and everything an operator has to look at.
-/

namespace Culprit

inductive IssueKind where
  /-- There was nothing to compare with. -/
  | noBaseline
  | buildFailure
  | runFailure
  /-- A set diverged while neither of its halves did. -/
  | interaction
  | cancelled
  | noSymbols
  /-- A file diverges, but its symbols together do not. -/
  | symbolsAgree
  /-- Something outside every trial stopped the work. -/
  | engine
deriving DecidableEq, Repr

namespace IssueKind

def all : List IssueKind :=
  [.noBaseline, .buildFailure, .runFailure, .interaction, .cancelled, .noSymbols, .symbolsAgree,
    .engine]

def ofStage : Stage → IssueKind
  | .build => .buildFailure
  | .run => .runFailure

end IssueKind

structure Issue where
  kind : IssueKind
  context : String
  detail : String
deriving DecidableEq, Repr

def Issue.ofFailure (context : String) (f : Failure) : Issue :=
  ⟨.ofStage f.stage, context, f.detail⟩

/-- A set of candidates that diverges while neither of its halves does. -/
structure Interaction where
  scope : String
  members : List String
  /-- The members that diverge alone. -/
  attributed : List String
deriving DecidableEq, Repr

def Interaction.unattributed (i : Interaction) : List String :=
  i.members.filter (· ∉ i.attributed)

inductive Status where
  | completed
  | noDivergence
  | noBaseline
  | aborted
deriving DecidableEq, Repr

namespace Status

def all : List Status :=
  [.completed, .noDivergence, .noBaseline, .aborted]

end Status

structure SymbolFinding where
  symbol : LinkSymbol
  score : Score
deriving DecidableEq, Repr

structure FileFinding where
  unit : SourceUnit
  score : Score
  symbols : List SymbolFinding
  /-- The score with exactly the suspect symbols variant. -/
  verification? : Option Score
deriving DecidableEq, Repr

structure Report where
  version : Nat
  test : String
  precision : String
  trusted : String
  variant : String
  status : Status
  /-- The score with every unit variant. -/
  whole? : Option Score
  files : List FileFinding
  interactions : List Interaction
  issues : List Issue
  /-- The score with exactly the suspect files variant. -/
  verification? : Option Score
  trials : List Trial
  /-- Trials that were built, without the repeated ones. -/
  executed : Nat
  generatedAt : String
deriving DecidableEq, Repr

namespace Report

def blank (test precision trusted variant generatedAt : String) : Report where
  version := Trial.formatVersion
  test := test
  precision := precision
  trusted := trusted
  variant := variant
  status := .completed
  whole? := none
  files := []
  interactions := []
  issues := []
  verification? := none
  trials := []
  executed := 0
  generatedAt := generatedAt

def addIssue (r : Report) (i : Issue) : Report :=
  { r with issues := r.issues ++ [i] }

/-- The report of a configuration that has no baseline. -/
def withoutBaseline (r : Report) (detail : String) : Report :=
  { r with status := .noBaseline }.addIssue ⟨.noBaseline, r.precision ++ " " ++ r.trusted, detail⟩

def symbolCount (r : Report) : Nat :=
  (r.files.map (·.symbols.length)).foldr (· + ·) 0

def hasIssue (r : Report) (k : IssueKind) : Bool :=
  r.issues.any (·.kind = k)

def fileKeys (r : Report) : List String :=
  r.files.map (·.unit.key)

end Report

end Culprit
