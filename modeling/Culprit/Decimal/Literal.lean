import Culprit.Decimal.Binary64

/-!
Numbers as they are written: an optional sign, digits with at most one point among them, and an
optional exponent, or one of the words for infinity and for no number.
-/

namespace Culprit.Decimal

/-- `mantissa * 10 ^ exponent`, negated or not. -/
structure Literal where
  negative : Bool
  mantissa : Nat
  exponent : Int
deriving DecidableEq, Repr

namespace Literal

/-- The nearest double. Far outside the range of exponents the answer is known beforehand. -/
def toFloat (l : Literal) : Float :=
  let size := (Nat.toDigits 10 l.mantissa).length
  let x :=
    if l.mantissa = 0 then 0
    else if (size : Int) + l.exponent < -400 then 0
    else if 400 < (size : Int) + l.exponent then infinity
    else if l.exponent < 0 then Float.ofScientific l.mantissa true l.exponent.natAbs
    else Float.ofScientific l.mantissa false l.exponent.natAbs
  if l.negative then -x else x

def isDigit (c : Char) : Bool :=
  '0' ≤ c && c ≤ '9'

/-- The number that a run of digits writes, continuing `acc`. -/
def valueOf (acc : Nat) (digits : List Char) : Nat :=
  digits.foldl (fun n c => 10 * n + (c.toNat - 48)) acc

def sign : List Char → Bool × List Char
  | '-' :: r => (true, r)
  | '+' :: r => (false, r)
  | cs => (false, cs)

/-- An exponent part that takes all of the text, or no text at all. -/
def exponent? : List Char → Option Int
  | [] => some 0
  | c :: r =>
    if c = 'e' ∨ c = 'E' then
      let (negative, digits) := sign r
      if digits.isEmpty || !digits.all isDigit then none
      else some (if negative then -(valueOf 0 digits : Int) else valueOf 0 digits)
    else none

def fraction : List Char → List Char × List Char
  | '.' :: r => (r.takeWhile isDigit, r.dropWhile isDigit)
  | cs => ([], cs)

/-- A number without its sign. -/
def unsigned? (negative : Bool) (cs : List Char) : Option Literal :=
  let whole := cs.takeWhile isDigit
  let (part, rest) := fraction (cs.dropWhile isDigit)
  if whole.isEmpty && part.isEmpty then none
  else (exponent? rest).map fun e =>
    ⟨negative, valueOf (valueOf 0 whole) part, e - part.length⟩

/-- A natural number below `bound`; a plus sign may precede its digits. -/
def natural? (bound : Nat) (cs : List Char) : Option Nat :=
  let digits := match cs with
    | '+' :: r => r
    | _ => cs
  if digits.isEmpty || !digits.all isDigit then none
  else
    let n := valueOf 0 digits
    if n < bound then some n else none

end Literal

/-- Reads the whole text; surrounding blanks are refused. -/
def parse? (s : String) : Option Float :=
  let (negative, cs) := Literal.sign s.toList
  let word := cs.map Char.toLower
  if word = "inf".toList ∨ word = "infinity".toList then
    some (if negative then -infinity else infinity)
  else if word = "nan".toList then some nan
  else (Literal.unsigned? negative cs).map Literal.toFloat

end Culprit.Decimal
