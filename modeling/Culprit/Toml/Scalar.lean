import Culprit.Decimal.Literal
import Culprit.Text.Hex
import Culprit.Toml.Table

/-!
Numbers, truth values and moments of TOML. Each is a run of letters, digits and a few signs; only
a date and the time after it may be separated by a blank.
-/

namespace Culprit.Toml.Scalar

open Decimal.Literal (isDigit)

def isTokenChar (c : Char) : Bool :=
  c.isAlphanum || "_+-.:".toList.contains c

/-- Digits, with single bars between them. -/
def barred (digit : Char → Bool) : List Char → Bool
  | [] => false
  | [c] => digit c
  | c :: '_' :: r => digit c && barred digit r
  | c :: r => digit c && barred digit r

def withoutBars (cs : List Char) : List Char :=
  cs.filter (· ≠ '_')

/-- Decimal digits without a leading zero, unless that is all. -/
def isWhole (cs : List Char) : Bool :=
  barred isDigit cs && (cs.head? ≠ some '0' || cs.length = 1)

def digitOf (base : Nat) (c : Char) : Bool :=
  match Text.Hex.digitValue? c with
  | some d => d < base
  | none => false

def inBase (base : Nat) (cs : List Char) : Nat :=
  cs.foldl (fun n c => base * n + (Text.Hex.digitValue? c).getD 0) 0

/-- Integers have 64 bits with a sign. -/
def bounded? (n : Int) : Option Int :=
  if -Int.pow 2 63 ≤ n ∧ n < Int.pow 2 63 then some n else none

def based? (base : Nat) (cs : List Char) : Option Int :=
  if barred (digitOf base) cs then bounded? (inBase base (withoutBars cs)) else none

def signed? (cs : List Char) : Option Int :=
  let (negative, digits) := Decimal.Literal.sign cs
  if isWhole digits then
    let n : Int := inBase 10 (withoutBars digits)
    bounded? (if negative then -n else n)
  else none

def integer? : List Char → Option Int
  | '0' :: 'x' :: r => based? 16 r
  | '0' :: 'o' :: r => based? 8 r
  | '0' :: 'b' :: r => based? 2 r
  | cs => signed? cs

def isExponent : List Char → Bool
  | [] => true
  | c :: r => (c = 'e' || c = 'E') && barred isDigit (Decimal.Literal.sign r).2

/-- A number with a fraction, an exponent or both. -/
def isReal (cs : List Char) : Bool :=
  let body := (Decimal.Literal.sign cs).2
  let digit (c : Char) : Bool := isDigit c || c = '_'
  let whole := body.takeWhile digit
  match body.dropWhile digit with
  | [] => false
  | '.' :: r =>
    isWhole whole && barred isDigit (r.takeWhile digit) && isExponent (r.dropWhile digit)
  | r => isWhole whole && isExponent r

def isWord (cs : List Char) : Bool :=
  let body := (Decimal.Literal.sign cs).2
  body = "inf".toList || body = "nan".toList

/-- A number beyond the greatest is refused, except below zero. -/
def real? (cs : List Char) : Option Float :=
  if isWord cs then Decimal.parse? (String.ofList cs)
  else if isReal cs then
    (Decimal.parse? (String.ofList (withoutBars cs))).filter fun x => !(x.isInf && x > 0)
  else none

/-- Two digits with a value in a range. -/
def isPair (lo hi : Nat) : List Char → Bool
  | [a, b] => isDigit a && isDigit b && lo ≤ inBase 10 [a, b] && inBase 10 [a, b] ≤ hi
  | _ => false

def isLeapYear (y : Nat) : Bool :=
  y % 4 = 0 && (y % 100 ≠ 0 || y % 400 = 0)

def daysIn (year month : Nat) : Nat :=
  if month = 2 then if isLeapYear year then 29 else 28
  else if [4, 6, 9, 11].contains month then 30 else 31

def isDate : List Char → Bool
  | [a, b, c, d, '-', e, f, '-', g, h] =>
    [a, b, c, d].all isDigit && isPair 1 12 [e, f] &&
      isPair 1 (daysIn (inBase 10 [a, b, c, d]) (inBase 10 [e, f])) [g, h]
  | _ => false

def isOffset : List Char → Bool
  | [] => true
  | [c] => c = 'Z' || c = 'z'
  | [sign, a, b, ':', c, d] =>
    (sign = '+' || sign = '-') && isPair 0 23 [a, b] && isPair 0 59 [c, d]
  | _ => false

/-- What follows the seconds: a fraction, and an offset where one may stand. -/
def isSecondsEnd (offset : Bool) : List Char → Bool
  | '.' :: r =>
    !(r.takeWhile isDigit).isEmpty &&
      (if offset then isOffset (r.dropWhile isDigit) else (r.dropWhile isDigit).isEmpty)
  | r => if offset then isOffset r else r.isEmpty

def isTime (offset : Bool) : List Char → Bool
  | a :: b :: ':' :: c :: d :: ':' :: e :: f :: r =>
    isPair 0 23 [a, b] && isPair 0 59 [c, d] && isPair 0 60 [e, f] && isSecondsEnd offset r
  | _ => false

def dateLength : Nat := 10

def isMoment (cs : List Char) : Bool :=
  isDate cs || isTime false cs ||
    (isDate (cs.take dateLength) && match cs.drop dateLength with
      | c :: r => (c = 'T' || c = 't') && isTime true r
      | [] => false)

def ofToken? (cs : List Char) : Option Toml :=
  if cs = "true".toList then some (.bool true)
  else if cs = "false".toList then some (.bool false)
  else if isMoment cs then some (.moment (String.ofList cs))
  else match real? cs with
    | some x => some (.real x)
    | none => (integer? cs).map .integer

/-- The time after a date and a blank, if there is one. -/
def timeAfter (token rest : List Char) : List Char × List Char :=
  match rest with
  | ' ' :: r =>
    let time := r.takeWhile isTokenChar
    if isDate token && !time.isEmpty then (time, r.dropWhile isTokenChar) else ([], rest)
  | _ => ([], rest)

def read? (cs : List Char) : Option (Toml × List Char) :=
  let token := cs.takeWhile isTokenChar
  let (time, rest) := timeAfter token (cs.dropWhile isTokenChar)
  if time.isEmpty then (ofToken? token).map fun v => (v, rest)
  else if isTime true time then some (.moment (String.ofList (token ++ ' ' :: time)), rest)
  else none

@[simp] theorem barred_nil (digit : Char → Bool) : barred digit [] = false := rfl

end Culprit.Toml.Scalar
