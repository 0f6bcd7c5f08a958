import Culprit.Shell.Pattern

/-!
Fields: what expanded words come to. Only what an unquoted expansion gives is split, at the
separators of the shell; what is quoted never is, and makes a field even when it is empty.
-/

namespace Culprit.Shell

/-- How a character of an expanded word may be read. -/
inductive Quality where
  /-- Quoted. -/
  | fixed
  /-- Written in the script; special in a pattern. -/
  | plain
  /-- From an unquoted expansion; special in a pattern, and split at. -/
  | loose
deriving DecidableEq, Repr

inductive Piece where
  | char (c : Char) (quality : Quality)
  /-- There is a field here, though it may be empty. -/
  | edge
  /-- A new field begins. -/
  | gap
  /-- One expansion ends and another begins. -/
  | seam
  /-- Quoted arguments, each a field, end here. -/
  | wall
deriving DecidableEq, Repr

namespace Piece

def ofText (q : Quality) (s : String) : List Piece :=
  s.toList.map fun c => .char c q

/-- The value of an expansion. -/
def ofValue (quoted : Bool) (s : String) : List Piece :=
  if quoted then ofText .fixed s else .seam :: ofText .loose s

def withGaps : List (List Piece) → List Piece
  | [] => []
  | [ps] => ps
  | ps :: rest => ps ++ .gap :: withGaps rest

/-- Text that stands in for a parameter is split at where it was only written, as if an expansion
had given it. -/
def loosen (afterPlain : Bool) : List Piece → List Piece
  | [] => []
  | .char c .plain :: r =>
    if afterPlain then .char c .loose :: loosen true r
    else .seam :: .char c .loose :: loosen true r
  | p :: r => p :: loosen false r

def marked : List Piece → List Marked
  | [] => []
  | .char c q :: r => (c, q ≠ .fixed) :: marked r
  | _ :: r => marked r

end Piece

namespace Field

def separatorsOf (value? : Option String) : List Char :=
  (value?.getD " \t\n").toList

def isSpace (c : Char) : Bool :=
  c = ' ' || c = '\t' || c = '\n'

/-- What splitting knows of what has gone before. -/
structure Progress where
  /-- The field that has begun, newest character first. -/
  current? : Option (List Marked)
  /-- A blank has ended a field: one other separator belongs to the same end. -/
  afterBlank : Bool
  /-- A blank separates like any other character: so it is in the expansion that comes next after
  quoted arguments. -/
  strict : Bool
  /-- Quoted arguments have ended, and no expansion has begun. -/
  afterWall : Bool

namespace Progress

def start : Progress :=
  ⟨none, false, false, false⟩

def finished (p : Progress) : List (List Marked) :=
  (p.current?.map List.reverse).toList

def begun (p : Progress) : Progress :=
  { p with current? := some (p.current?.getD []), afterBlank := false }

def add (p : Progress) (m : Marked) : Progress :=
  { p with current? := some (m :: p.current?.getD []), afterBlank := false }

def seam (p : Progress) : Progress :=
  { p with afterBlank := false, strict := p.afterWall, afterWall := false }

/-- A field that a separator ends, if it does, and what comes next. -/
def separate (p : Progress) (blank : Bool) : List (List Marked) × Progress :=
  let next := { p with current? := none, afterBlank := blank && !p.strict }
  match p.current? with
  | some f => ([f.reverse], next)
  | none =>
    if p.strict then ([[]], next)
    else if blank then ([], p)
    else if p.afterBlank then ([], next)
    else ([[]], next)

end Progress

def split (separators : List Char) (p : Progress) : List Piece → List (List Marked)
  | [] => p.finished
  | .edge :: r => split separators p.begun r
  | .gap :: r =>
    (if p.strict then (p.separate true).1 else p.finished) ++
      split separators { p with current? := none, afterBlank := false } r
  | .seam :: r => split separators p.seam r
  | .wall :: r => split separators { p with afterWall := true } r
  | .char c q :: r =>
    if q = .loose && separators.contains c then
      let (ended, next) := p.separate (isSpace c)
      ended ++ split separators next r
    else split separators (p.add (c, q ≠ .fixed)) r

def text (f : List Marked) : String :=
  String.ofList (f.map (·.1))

/-- A character of an input line, and whether it can separate. -/
abbrev Input := Char × Bool

/-- The end of the last value is dropped from the first separator on as long as nothing but blanks
and one other separator follow, which a character that cannot separate does not change. `kept` and
`loose` are held with their last character first. -/
def lastValue (separators : List Char) (mayTake : Bool) (kept loose : List Char) :
    List Input → String
  | [] => String.ofList kept.reverse
  | (c, can) :: r =>
    let separates := can && separators.contains c
    if separates && isSpace c then lastValue separators mayTake kept (c :: loose) r
    else if !can && !loose.isEmpty then lastValue separators false kept (c :: loose) r
    else if separates && mayTake then lastValue separators false kept (c :: loose) r
    else lastValue separators false (c :: (loose ++ kept)) [] r

/-- The text of the last name: all that is left, without one separator at its end. -/
def remainder (separators : List Char) (begun : List Char) : List Input → String
  | [] => String.ofList begun.reverse
  | (c, can) :: r =>
    if can && separators.contains c then
      if isSpace c && begun.isEmpty then remainder separators begun r
      else lastValue separators (isSpace c) begun [c] r
    else remainder separators (c :: begun) r

/-- Passes blanks, and one other separator among them. -/
def pastSeparators (separators : List Char) (mayTake : Bool) : List Input → List Input
  | [] => []
  | (c, can) :: r =>
    if can && separators.contains c then
      if isSpace c then pastSeparators separators mayTake r
      else if mayTake then pastSeparators separators false r else (c, can) :: r
    else (c, can) :: r

/-- A line divided among so many names; the last of them takes what is left. -/
def divide (separators : List Char) : Nat → List Input → List String
  | 0, _ => []
  | 1, cs =>
    let cs := pastSeparators separators false cs
    if cs.isEmpty then [] else [remainder separators [] cs]
  | n + 1, cs =>
    let cs := pastSeparators separators false cs
    let goes (m : Input) : Bool := !(m.2 && separators.contains m.1)
    let own := cs.takeWhile goes
    match cs.drop own.length with
    | [] => if own.isEmpty then [] else [String.ofList (own.map (·.1))]
    | (c, _) :: r =>
      let rest := if isSpace c then pastSeparators separators true r else r
      String.ofList (own.map (·.1)) :: divide separators n rest

/-- The components of a pattern of paths, divided at its slashes. -/
def components : List Marked → List (List Marked)
  | [] => [[]]
  | (c, s) :: r =>
    match components r with
    | [] => [[(c, s)]]
    | first :: rest => if c = '/' then [] :: first :: rest else ((c, s) :: first) :: rest

/-- A name with a dot at its start needs a pattern with one. -/
def shows (pattern : List Marked) (name : String) : Bool :=
  name.toList.head? ≠ some '.' || ((Glob.unescaped pattern).head?.map (·.1)) = some '.'

end Field

end Culprit.Shell
