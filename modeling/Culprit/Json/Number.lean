import Culprit.Decimal.Literal

/-!
Numbers of JSON text as doubles. The digits count as far as 64 bits hold them; what they make is
rounded once, and scaled by a power of ten with one multiplication or division, which rounds again.
So the double is near the number that is written, but not always the nearest.
-/

namespace Culprit.Json.Number

/-- `significand * 10 ^ exponent`. -/
structure Parts where
  significand : Nat
  exponent : Int
deriving DecidableEq, Repr

/-- Digits continue the significand until one does not fit into 64 bits; the rest is left. -/
def take (significand : Nat) : List Char → Nat × List Char
  | [] => (significand, [])
  | c :: r =>
    let next := Decimal.Literal.valueOf significand [c]
    if next < Nat.pow 2 64 then take next r else (significand, c :: r)

/-- Digits before the point that are left out count as zeros, those after it not at all. -/
def Parts.ofDigits (whole fraction : List Char) : Parts :=
  let (s, leftOut) := take 0 whole
  let (s, unused) := take s fraction
  ⟨s, (leftOut.length : Int) - ((fraction.length - unused.length : Nat) : Int)⟩

/-- The greatest power of ten that scales in one step. -/
def step : Nat := 308

/-- Nothing when the result is too large. -/
def scale? (x : Float) (exponent : Int) : Option Float :=
  if exponent.natAbs ≤ step then
    let power := Float.ofScientific 1 false exponent.natAbs
    if 0 ≤ exponent then
      let y := x * power
      if y.isInf then none else some y
    else some (x / power)
  else if x == 0 then some x
  else if 0 ≤ exponent then none
  else scale? (x / Float.ofScientific 1 false step) (exponent + step)
termination_by exponent.natAbs
decreasing_by
  simp only [step] at *
  omega

def toFloat? (negative : Bool) (p : Parts) : Option Float :=
  (scale? (Float.ofNat p.significand) p.exponent).map fun x => if negative then -x else x

/-- A whole number without point and exponent, in its digits. -/
def ofInteger? (n : Int) : Option Float :=
  toFloat? (n < 0) (Parts.ofDigits (Nat.toDigits 10 n.natAbs) [])

@[simp] theorem take_nil (significand : Nat) : take significand [] = (significand, []) := rfl

end Culprit.Json.Number
