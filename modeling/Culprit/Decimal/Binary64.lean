/-!
A finite double is a natural number times a power of two, with a sign. The other doubles are the
infinities and the values that are no number.
-/

namespace Culprit.Decimal

/-- `significand * 2 ^ exponent`. -/
structure Dyadic where
  significand : Nat
  exponent : Int
deriving DecidableEq, Repr

inductive Kind where
  | nan
  | infinite
  | finite (magnitude : Dyadic)
deriving DecidableEq, Repr

def isNegative (x : Float) : Bool :=
  x.toBits.toNat / Nat.pow 2 63 = 1

def kind (x : Float) : Kind :=
  let biased : Nat := x.toBits.toNat / Nat.pow 2 52 % Nat.pow 2 11
  let fraction := x.toBits.toNat % Nat.pow 2 52
  if biased = 2047 then if fraction = 0 then .infinite else .nan
  else if biased = 0 then .finite ⟨fraction, -1074⟩
  else .finite ⟨fraction + Nat.pow 2 52, (biased : Int) - 1075⟩

/-- The greatest finite double. -/
def largest : Float :=
  Float.ofBits 0x7FEFFFFFFFFFFFFF

def infinity : Float :=
  Float.ofBits 0x7FF0000000000000

def nan : Float :=
  Float.ofBits 0x7FF8000000000000

/-- Whether `d.significand * 2 ^ d.exponent < 10 ^ k`. -/
def Dyadic.ltPowerOfTen (d : Dyadic) (k : Int) : Bool :=
  d.significand * Nat.pow 2 d.exponent.toNat * Nat.pow 10 (-k).toNat <
    Nat.pow 10 k.toNat * Nat.pow 2 (-d.exponent).toNat

/-- The least `k` with the value below `10 ^ k`; a logarithm to base two gives a start that is at
most three too low. -/
def Dyadic.scale (d : Dyadic) : Int :=
  let start := (((Nat.log2 d.significand : Nat) : Int) + d.exponent) * 30103 / 100000 - 1
  match (List.range 5).find? fun (i : Nat) => d.ltPowerOfTen (start + i) with
  | some i => start + i
  | none => start

end Culprit.Decimal
