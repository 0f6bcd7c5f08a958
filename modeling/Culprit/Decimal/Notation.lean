import Culprit.Decimal.Binary64
import Culprit.Decimal.Shortest

/-!
Doubles in decimal. A double is rounded to a set number of decimal places or of significant digits:
the exact value is rounded, and a tie goes to the even neighbour. The program writes doubles in
these layouts.

* `plain`: the shortest digits, never an exponent.
* `json`: the shortest digits, positional from 1e-5 up to 1e16 and then with a fractional digit,
  otherwise with a signed exponent.
* `fixed` and `scientific`: a set number of places.
-/

namespace Culprit.Decimal

/-- The quotient rounded to the nearest natural number, ties to even. -/
def roundDiv (num den : Nat) : Nat :=
  let q := num / den
  let r := num % den
  if 2 * r < den then q
  else if den < 2 * r then q + 1
  else if q % 2 = 0 then q else q + 1

example : roundDiv 5 2 = 2 ∧ roundDiv 7 2 = 4 := by decide

/-- The value in units of `10 ^ e`, rounded. -/
def Dyadic.roundTo (d : Dyadic) (e : Int) : Nat :=
  roundDiv (d.significand * Nat.pow 2 d.exponent.toNat * Nat.pow 10 (-e).toNat)
    (Nat.pow 10 e.toNat * Nat.pow 2 (-d.exponent).toNat)

/-- The first `places + 1` digits and the power of ten of the first. -/
def Dyadic.scientific (d : Dyadic) (places : Nat) : Nat × Int :=
  if d.significand = 0 then (0, 0)
  else
    let k := d.scale - 1
    let n := d.roundTo (k - places)
    if Nat.pow 10 (places + 1) ≤ n then (n / 10, k + 1) else (n, k)

/-! ### Layouts -/

def digitsOf (n : Nat) : List Char :=
  Nat.toDigits 10 n

def zeros (n : Nat) : List Char :=
  List.replicate n '0'

/-- `digits * 10 ^ exponent` written out, without a point where there is no fraction. -/
def Scaled.positional (s : Scaled) : List Char :=
  let ds := digitsOf s.digits
  let before := (ds.length : Int) + s.exponent
  if 0 ≤ s.exponent then ds ++ zeros s.exponent.toNat
  else if 0 < before then ds.take before.toNat ++ '.' :: ds.drop before.toNat
  else '0' :: '.' :: zeros (-before).toNat ++ ds

/-- The first digit, a point and the others if there are others. -/
def mantissa (ds : List Char) : List Char :=
  match ds with
  | [] => []
  | [d] => [d]
  | d :: r => d :: '.' :: r

def exponentText (plus : Bool) (e : Int) : List Char :=
  let mark := if e < 0 then ['-'] else if plus then ['+'] else []
  'e' :: mark ++ digitsOf e.natAbs

/-- Texts of the values that are no finite number, and the sign in front of the others. -/
def withSign (x : Float) (finite : Dyadic → List Char) : String :=
  match kind x with
  | .nan => "NaN"
  | .infinite => if isNegative x then "-inf" else "inf"
  | .finite d =>
    let text := finite d
    String.ofList (if isNegative x then '-' :: text else text)

def plain (x : Float) : String :=
  withSign x fun d => (shortest d).positional

def Scaled.json (s : Scaled) : List Char :=
  let ds := digitsOf s.digits
  let point := (ds.length : Int) + s.exponent
  if s.digits = 0 then "0.0".toList
  else if -4 ≤ point ∧ point ≤ 16 then
    if 0 ≤ s.exponent then s.positional ++ ['.', '0'] else s.positional
  else mantissa ds ++ exponentText true (point - 1)

/-- The values that JSON cannot hold are written as null. -/
def json (x : Float) : String :=
  match kind x with
  | .finite _ => withSign x fun d => (shortest d).json
  | _ => "null"

/-- `places` digits after the point. -/
def fixed (places : Nat) (x : Float) : String :=
  withSign x fun d =>
    let ds := digitsOf (d.roundTo (-(places : Int)))
    let ds := zeros (places + 1 - ds.length) ++ ds
    let whole := ds.length - places
    ds.take whole ++ (if places = 0 then [] else '.' :: ds.drop whole)

/-- One digit before the point and `places` after it; the exponent has no plus sign. -/
def scientific (places : Nat) (x : Float) : String :=
  withSign x fun d =>
    let (n, e) := d.scientific places
    let ds := digitsOf n
    mantissa (ds ++ zeros (places + 1 - ds.length)) ++ exponentText false e

end Culprit.Decimal
