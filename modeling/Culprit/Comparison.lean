import Culprit.Decimal.Literal
import Culprit.Lab
import Culprit.Text.Blank

/-!
Comparing the output of a build with the baseline. Zero means that nothing speaks for a divergence.
-/

namespace Culprit

namespace Comparison

/-- What the pairs of words so far add up to: the squares of the differences beyond the tolerance,
and the pairs that cannot be subtracted and do not agree. -/
structure Sum where
  squared : Float
  mismatches : Float
deriving DecidableEq, Repr

def Sum.mismatch (s : Sum) (differ : Bool) : Sum :=
  if differ then { s with mismatches := s.mismatches + 1 } else s

/-- Two values that are no number agree, and so do equal infinities; other differences count when
they exceed the tolerance. -/
def addNumbers (tolerance : Float) (s : Sum) (x y : Float) : Sum :=
  if x.isNaN || y.isNaN then s.mismatch (x.isNaN != y.isNaN)
  else if x.isInf || y.isInf then s.mismatch (x != y)
  else
    let d := (x - y).abs
    if d > tolerance then { s with squared := s.squared + d * d } else s

/-- Words that are not both numbers have to be equal. -/
def addPair (tolerance : Float) (s : Sum) (p : String × String) : Sum :=
  match Decimal.parse? p.1, Decimal.parse? p.2 with
  | some x, some y => addNumbers tolerance s x y
  | _, _ => s.mismatch (p.1 != p.2)

def distance (m n : Nat) : Nat :=
  (m - n) + (n - m)

/-- The length of the vector of differences, and one for each mismatch and each word without a
partner. -/
def numeric (tolerance : Float) (baseline candidate : String) : Float :=
  let lhs := Text.words baseline
  let rhs := Text.words candidate
  let start : Sum := ⟨0, Float.ofNat (distance lhs.length rhs.length)⟩
  let s := (lhs.zip rhs).foldl (addPair tolerance) start
  s.squared.sqrt + s.mismatches

/-- Only white space at the end may differ. -/
def exact (baseline candidate : String) : Float :=
  if Text.trimEnd baseline = Text.trimEnd candidate then 0 else 1

end Comparison

/-- The comparisons that a project can ask for. -/
inductive CompareKind where
  | numeric
  | exact
deriving DecidableEq, Repr

namespace Comparator

/-- A comparison that cannot fail. -/
def total (name : String) (f : String → String → Float) : Comparator :=
  ⟨name, fun baseline candidate => .ok (f baseline candidate)⟩

def numeric (tolerance : Float) : Comparator :=
  total "numeric" (Comparison.numeric tolerance.abs)

def exact : Comparator :=
  total "exact" Comparison.exact

def ofKind (tolerance : Float) : CompareKind → Comparator
  | .numeric => numeric tolerance
  | .exact => exact

end Comparator

end Culprit
