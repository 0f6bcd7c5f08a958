/-!
Bytes as text. Reading is strict, or replaces each ill-formed piece by U+FFFD; a piece is the
longest start of a character that the bytes hold, and at least one byte.
-/

namespace Culprit.Text.Utf8

def replacement : Char := '\uFFFD'

/-- What a leading byte announces: how many bytes follow, the bounds of the first of them, and the
leading byte's share of the code point. -/
def lead? (b : Nat) : Option (Nat × Nat × Nat × Nat) :=
  if b < 0xC2 then none
  else if b ≤ 0xDF then some (1, 0x80, 0xBF, b - 0xC0)
  else if b = 0xE0 then some (2, 0xA0, 0xBF, 0)
  else if b = 0xED then some (2, 0x80, 0x9F, 0xD)
  else if b ≤ 0xEF then some (2, 0x80, 0xBF, b - 0xE0)
  else if b = 0xF0 then some (3, 0x90, 0xBF, 0)
  else if b ≤ 0xF3 then some (3, 0x80, 0xBF, b - 0xF0)
  else if b = 0xF4 then some (3, 0x80, 0x8F, 4)
  else none

/-- Reads `more` continuation bytes, the first between `lo` and `hi`. Gives the code point, or
nothing at the first byte that does not fit, and the number of bytes that did. -/
def continuation (more lo hi acc taken : Nat) : List UInt8 → Option Nat × Nat
  | [] => (if more = 0 then some acc else none, taken)
  | b :: r =>
    match more with
    | 0 => (some acc, taken)
    | m + 1 =>
      if lo ≤ b.toNat ∧ b.toNat ≤ hi then
        continuation m 0x80 0xBF (acc * 64 + (b.toNat - 0x80)) (taken + 1) r
      else (none, taken)

/-- The character that `b :: r` begins with, if any, and how many bytes of `r` belong to it or to
the ill-formed piece. -/
def first (b : UInt8) (r : List UInt8) : Option Char × Nat :=
  if b.toNat < 0x80 then (some (Char.ofNat b.toNat), 0)
  else match lead? b.toNat with
    | none => (none, 0)
    | some (more, lo, hi, acc) =>
      let (point, taken) := continuation more lo hi acc 0 r
      (point.map Char.ofNat, taken)

/-- `skip` bytes were read with the character before. -/
def piecesAux : Nat → List UInt8 → List (Option Char × Nat)
  | _, [] => []
  | skip + 1, _ :: r => piecesAux skip r
  | 0, b :: r =>
    let (c, taken) := first b r
    (c, taken + 1) :: piecesAux taken r

/-- The characters and the ill-formed pieces, each with its length in bytes. -/
def pieces (bytes : List UInt8) : List (Option Char × Nat) :=
  piecesAux 0 bytes

def decodeLossy (bytes : List UInt8) : List Char :=
  (pieces bytes).map fun p => p.1.getD replacement

/-- Nothing when some piece is ill-formed. -/
def decode? (bytes : List UInt8) : Option (List Char) :=
  (pieces bytes).mapM (·.1)

/-- How many bytes come before the first ill-formed piece. -/
def validLength (bytes : List UInt8) : Nat :=
  (((pieces bytes).takeWhile (·.1.isSome)).map (·.2)).foldr (· + ·) 0

def toString? (bytes : ByteArray) : Option String :=
  String.fromUTF8? bytes

/-- Text whose bytes are ill-formed keeps what is well-formed of them. -/
def toStringLossy (bytes : ByteArray) : String :=
  match String.fromUTF8? bytes with
  | some s => s
  | none => String.ofList (decodeLossy bytes.toList)

@[simp] theorem decodeLossy_nil : decodeLossy [] = [] := rfl

@[simp] theorem decode?_nil : decode? [] = some [] := rfl

end Culprit.Text.Utf8
