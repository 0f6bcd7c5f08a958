import Culprit.Decimal.Binary64

/-!
The fewest decimal digits that read back to a double, the nearest of those when there are several.

The reals that round to `m * 2 ^ q` form an interval whose ends belong to it when `m` is even. In
units of `2 ^ (q - 2)` the value is `4 * m`, the upper end `4 * m + 2`, and the lower end
`4 * m - 2`, or `4 * m - 1` where the gap below is half as wide.
-/

namespace Culprit.Decimal

/-- `digits * 10 ^ exponent`. -/
structure Scaled where
  digits : Nat
  exponent : Int
deriving DecidableEq, Repr

namespace Shortest

def lowerEnd (d : Dyadic) : Nat :=
  if d.significand = Nat.pow 2 52 ∧ d.exponent ≠ -1074 then 4 * d.significand - 1
  else 4 * d.significand - 2

def upperEnd (d : Dyadic) : Nat :=
  4 * d.significand + 2

/-- The factors that bring a multiple of `10 ^ e` and a multiple of `2 ^ (q - 2)` to one unit. -/
def tenFactor (d : Dyadic) (e : Int) : Nat :=
  4 * Nat.pow 10 e.toNat * Nat.pow 2 (-d.exponent).toNat

def twoFactor (d : Dyadic) (e : Int) : Nat :=
  Nat.pow 10 (-e).toNat * Nat.pow 2 d.exponent.toNat

/-- Whether `n * 10 ^ e` lies in the interval of `d`. -/
def readsBack (d : Dyadic) (n : Nat) (e : Int) : Bool :=
  let x := n * tenFactor d e
  let lo := lowerEnd d * twoFactor d e
  let hi := upperEnd d * twoFactor d e
  if d.significand % 2 = 0 then lo ≤ x && x ≤ hi else lo < x && x < hi

/-- The grid point just below the value or at it. -/
def below (d : Dyadic) (e : Int) : Nat :=
  4 * d.significand * twoFactor d e / tenFactor d e

/-- Whether the value is nearer to `n * 10 ^ e` than to the next grid point; a tie goes to the
even digit. -/
def nearerBelow (d : Dyadic) (n : Nat) (e : Int) : Bool :=
  let value := 2 * (4 * d.significand * twoFactor d e)
  let sum := (2 * n + 1) * tenFactor d e
  value < sum || (value = sum && n % 2 = 0)

/-- A grid point that reads back, if one of the two neighbours of the value does. -/
def onGrid? (d : Dyadic) (e : Int) : Option Scaled :=
  let n := below d e
  match readsBack d n e, readsBack d (n + 1) e with
  | true, true => some ⟨if nearerBelow d n e then n else n + 1, e⟩
  | true, false => some ⟨n, e⟩
  | false, true => some ⟨n + 1, e⟩
  | false, false => none

/-- The value as it stands, with all its digits. -/
def exact (d : Dyadic) : Scaled :=
  ⟨d.significand * Nat.pow 2 d.exponent.toNat * Nat.pow 5 (-d.exponent).toNat,
    -((-d.exponent).toNat : Int)⟩

end Shortest

/-- At most `fuel` final zeros of the digits go into the exponent. -/
def Scaled.strip : Nat → Scaled → Scaled
  | 0, s => s
  | fuel + 1, s =>
    if s.digits ≠ 0 ∧ s.digits % 10 = 0 then Scaled.strip fuel ⟨s.digits / 10, s.exponent + 1⟩
    else s

/-- The grids of one to seventeen digits are tried in turn. -/
def shortest (d : Dyadic) : Scaled :=
  if d.significand = 0 then ⟨0, 0⟩
  else
    let k := d.scale
    let found := (List.range 17).findSome? fun (i : Nat) => Shortest.onGrid? d (k - (i + 1 : Nat))
    (found.getD (Shortest.exact d)).strip 20

end Culprit.Decimal
