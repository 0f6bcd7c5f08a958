import Culprit.Decimal.Literal
import Culprit.Decimal.Notation
import Culprit.Shell.Arithmetic

/-!
Escapes and formats of `echo` and `printf`. A format is used again for as long as there are
arguments, and one that is missing counts as empty or zero. What is wrong with an argument is told
beside the output; what is wrong with the format ends it.
-/

namespace Culprit.Shell.Printf

abbrev Text := List Char

def isOctal (c : Char) : Bool :=
  '0' ≤ c && c ≤ '7'

/-- A byte by its octal digits. -/
def octal (cs : Text) : Char :=
  Char.ofNat (cs.foldl (fun n c => 8 * n + (c.toNat - 48)) 0 % 256)

def named? : Char → Option Char
  | 'a' => some '\x07'
  | 'b' => some '\x08'
  | 'e' => some '\x1b'
  | 'f' => some '\x0c'
  | 'n' => some '\n'
  | 'r' => some '\r'
  | 't' => some '\t'
  | 'v' => some '\x0b'
  | '\\' => some '\\'
  | _ => none

/-- After a backslash. One that starts no escape stands for itself. -/
def escape (cs : Text) : Char × Text :=
  match cs with
  | [] => ('\\', [])
  | c :: r =>
    if isOctal c then
      let digits := (cs.take 3).takeWhile isOctal
      (octal digits, cs.drop digits.length)
    else match named? c with
      | some b => (b, r)
      | none => ('\\', cs)

/-- A text with escapes; `\c` ends all output, which the flag tells. A zero may come before the
digits of an octal escape. -/
def unescape : Nat → Text → Text × Bool
  | 0, _ => ([], false)
  | _, [] => ([], false)
  | _ + 1, '\\' :: 'c' :: _ => ([], true)
  | fuel + 1, '\\' :: r =>
    let r := match r with
      | '0' :: d :: s => if isOctal d then d :: s else r
      | r => r
    let (c, after) := escape r
    let (rest, stop) := unescape fuel after
    (c :: rest, stop)
  | fuel + 1, c :: r =>
    let (rest, stop) := unescape fuel r
    (c :: rest, stop)

def unescapeText (s : String) : Text × Bool :=
  unescape (s.length + 1) s.toList

/-- Between the percent sign and the letter of a conversion. -/
structure Spec where
  flags : Text
  width : Nat
  precision? : Option Nat

def Spec.has (s : Spec) (flag : Char) : Bool :=
  s.flags.contains flag

def zeros (n : Nat) : Text :=
  List.replicate n '0'

def pad (s : Spec) (zerosToo : Bool) (sign body : Text) : Text :=
  let missing := s.width - (sign.length + body.length)
  if s.has '-' then sign ++ body ++ List.replicate missing ' '
  else if zerosToo && s.has '0' then sign ++ zeros missing ++ body
  else List.replicate missing ' ' ++ sign ++ body

def signOf (s : Spec) (negative : Bool) : Text :=
  if negative then ['-'] else if s.has '+' then ['+'] else if s.has ' ' then [' '] else []

/-- At least as many digits as the precision; none for zero with a precision of zero. -/
def digits (s : Spec) (base n : Nat) : Text :=
  match s.precision? with
  | some p =>
    if n = 0 && p = 0 then []
    else
      let ds := Nat.toDigits base n
      zeros (p - ds.length) ++ ds
  | none => Nat.toDigits base n

def integer (s : Spec) (n : Int) : Text :=
  pad s s.precision?.isNone (signOf s (n < 0)) (digits s 10 n.natAbs)

/-- A negative number counts from the greatest number of 64 bits on downwards. -/
def unsigned (s : Spec) (base : Nat) (upper : Bool) (n : Int) : Text :=
  let m := (n % Int.pow 2 64).toNat
  let ds := (digits s base m).map fun c => if upper then c.toUpper else c
  if s.has '#' && base = 8 then
    pad s s.precision?.isNone [] (if ds.head? = some '0' then ds else '0' :: ds)
  else
    let mark := if s.has '#' && base = 16 && m ≠ 0 then ['0', if upper then 'X' else 'x'] else []
    pad s s.precision?.isNone mark ds

def text (s : Spec) (cs : Text) : Text :=
  pad s false [] (match s.precision? with
    | some p => cs.take p
    | none => cs)

/-- Digits after the first one or more; without any, a point stands only where it is asked for. -/
def withPoint (alternative : Bool) (whole part : Text) : Text :=
  if part.isEmpty && !alternative then whole else whole ++ '.' :: part

def exponentText (letter : Char) (width : Nat) (e : Int) : Text :=
  let ds := Nat.toDigits 10 e.natAbs
  letter :: (if e < 0 then '-' else '+') :: (zeros (width - ds.length) ++ ds)

def fixed (alternative : Bool) (places : Nat) (x : Float) : Text :=
  let cs := (Decimal.fixed places x.abs).toList
  if places = 0 && alternative then cs ++ ['.'] else cs

def exponential (alternative : Bool) (places : Nat) (d : Decimal.Dyadic) : Text :=
  let (n, e) := d.scientific places
  let ds := Nat.toDigits 10 n
  let ds := ds ++ zeros (places + 1 - ds.length)
  withPoint alternative (ds.take 1) (ds.drop 1) ++ exponentText 'e' 2 e

/-- Drops zeros at the end of a fraction, and the point with them. -/
def withoutZeros (cs : Text) : Text :=
  if cs.contains '.' then
    let kept := cs.reverse.dropWhile (· = '0')
    (if kept.head? = some '.' then kept.drop 1 else kept).reverse
  else cs

/-- As many significant digits as the precision; the exponent decides how they are written. -/
def general (alternative : Bool) (precision : Nat) (x : Float) (d : Decimal.Dyadic) : Text :=
  let p := max precision 1
  let e := (d.scientific (p - 1)).2
  if -4 ≤ e && e < p then
    let cs := fixed alternative (p - 1 - e).toNat x
    if alternative then cs else withoutZeros cs
  else
    let cs := exponential alternative (p - 1) d
    if alternative then cs
    else withoutZeros (cs.takeWhile (· ≠ 'e')) ++ cs.dropWhile (· ≠ 'e')

/-- Hexadecimal digits of the significand, and an exponent of two. -/
def hexadecimal (alternative : Bool) (precision? : Option Nat) (d : Decimal.Dyadic) : Text :=
  let normal := Nat.pow 2 52 ≤ d.significand
  let e : Int := if d.significand = 0 then 0 else if normal then d.exponent + 52 else -1022
  let places := precision?.getD 13
  let rounded :=
    if places < 13 then Decimal.roundDiv d.significand (Nat.pow 16 (13 - places)) else d.significand
  let places := min places 13
  let fraction := Nat.toDigits 16 (rounded % Nat.pow 16 places)
  let part := if places = 0 then [] else zeros (places - fraction.length) ++ fraction
  let part := match precision? with
    | some p => part ++ zeros (p - 13)
    | none => (part.reverse.dropWhile (· = '0')).reverse
  '0' :: 'x' :: withPoint alternative (Nat.toDigits 10 (rounded / Nat.pow 16 places)) part ++
    exponentText 'p' 1 e

def float (s : Spec) (letter : Char) (x : Float) : Text :=
  let upper (cs : Text) : Text := if letter.isUpper then cs.map Char.toUpper else cs
  let sign := signOf s (Decimal.isNegative x)
  let precision := s.precision?.getD 6
  match Decimal.kind x with
  | .nan => pad s false sign (upper "nan".toList)
  | .infinite => pad s false sign (upper "inf".toList)
  | .finite d =>
    match letter.toLower with
    | 'f' => pad s true sign (fixed (s.has '#') precision x)
    | 'e' => pad s true sign (upper (exponential (s.has '#') precision d))
    | 'g' => pad s true sign (upper (general (s.has '#') precision x d))
    | _ =>
      let cs := upper (hexadecimal (s.has '#') s.precision? d)
      pad s true (sign ++ cs.take 2) (cs.drop 2)

/-- A number as it was read, with what is left of the text. -/
structure Reading (α : Type) where
  value : α
  rest : Text
  /-- It does not fit, and the nearest that does stands for it. -/
  outOfRange : Bool

/-- What is wrong with an argument that should be a number. -/
inductive Complaint where
  | noNumber (arg : String)
  | moreThanNumber (arg : String)
  | outOfRange (arg : String)
deriving DecidableEq, Repr

def Complaint.message : Complaint → String
  | .noNumber arg => arg ++ ": expected numeric value"
  | .moreThanNumber arg => arg ++ ": not completely converted"
  | .outOfRange arg => arg ++ ": Numerical result out of range"

def complaint? {α : Type} (arg : String) (r : Reading α) : Option Complaint :=
  if !r.rest.isEmpty then
    some (if r.rest.length = arg.length then .noNumber arg else .moreThanNumber arg)
  else if r.outOfRange then some (.outOfRange arg) else none

def readInteger (signed : Bool) (arg : String) : Reading Int :=
  let cs := arg.toList
  match Arithmetic.leading? none cs with
  | none => ⟨0, cs, false⟩
  | some (n, rest) =>
    if signed then
      if Arithmetic.largest < n then ⟨Arithmetic.largest, rest, true⟩
      else if n < Arithmetic.smallest then ⟨Arithmetic.smallest, rest, true⟩
      else ⟨n, rest, false⟩
    else if Nat.pow 2 64 ≤ n.natAbs then ⟨Int.pow 2 64 - 1, rest, true⟩ else ⟨n, rest, false⟩

/-- Passes a word in any case. -/
def word? (word : String) (cs : Text) : Option Text :=
  if (cs.take word.length).map Char.toLower = word.toList then some (cs.drop word.length) else none

/-- An exponent, if one is written out; otherwise nothing is passed. -/
def exponent (letter : Char) (cs : Text) : Int × Text :=
  match cs with
  | c :: r =>
    let (negative, ds) := Decimal.Literal.sign r
    let own := ds.takeWhile Char.isDigit
    if c.toLower = letter && !own.isEmpty then
      let e : Int := Decimal.Literal.valueOf 0 own
      (if negative then -e else e, ds.drop own.length)
    else (0, cs)
  | [] => (0, [])

/-- Digits with at most one point among them: all of them, and how many come after the point. -/
def mantissa (isDigit : Char → Bool) (cs : Text) : Text × Nat × Text :=
  let whole := cs.takeWhile isDigit
  match cs.drop whole.length with
  | '.' :: r =>
    let part := r.takeWhile isDigit
    (whole ++ part, part.length, r.drop part.length)
  | r => (whole, 0, r)

def isTiny (x : Float) : Bool :=
  x.abs < Float.ofBits 0x0010000000000000

def readFloat (arg : String) : Reading Float :=
  let all := arg.toList
  let (negative, cs) := Decimal.Literal.sign (all.dropWhile Arithmetic.isSpace)
  let signed (x : Float) : Float := if negative then -x else x
  match word? "infinity" cs, word? "inf" cs, word? "nan" cs with
  | some rest, _, _ => ⟨signed Decimal.infinity, rest, false⟩
  | _, some rest, _ => ⟨signed Decimal.infinity, rest, false⟩
  | _, _, some rest => ⟨signed Decimal.nan, rest, false⟩
  | _, _, _ =>
    let (hex, hexPlaces, hexRest) := mantissa (Arithmetic.isDigitOf 16) (cs.drop 2)
    if (word? "0x" cs).isSome && !hex.isEmpty then
      let (e, rest) := exponent 'p' hexRest
      let m := Arithmetic.ofDigits 16 hex
      let x := (Float.ofNat m).scaleB (e - 4 * hexPlaces)
      ⟨signed x, rest, m ≠ 0 && (x.isInf || isTiny x)⟩
    else
      let (ds, places, rest) := mantissa Char.isDigit cs
      if ds.isEmpty then ⟨0, all, false⟩
      else
        let (e, rest) := exponent 'e' rest
        let m := Decimal.Literal.valueOf 0 ds
        let x := (Decimal.Literal.mk false m (e - places)).toFloat
        ⟨signed x, rest, m ≠ 0 && (x.isInf || isTiny x)⟩

/-- The character behind a quotation mark, as a number. -/
def quoted? (arg : String) : Option Nat :=
  match arg.toList with
  | '"' :: r => some ((r.head?.map Char.toNat).getD 0)
  | '\'' :: r => some ((r.head?.map Char.toNat).getD 0)
  | _ => none

/-- What formatting has come to, the newest output first. -/
structure Progress where
  out : Text
  args : List String
  complaints : List Complaint
  /-- Nothing is written any more. -/
  stop : Bool
  failure? : Option String

namespace Progress

def add (p : Progress) (cs : Text) : Progress :=
  { p with out := cs.reverse ++ p.out }

def fail (p : Progress) (why : String) : Progress :=
  { p with stop := true, failure? := some why }

def textOf (p : Progress) : String × Progress :=
  (p.args.head?.getD "", { p with args := p.args.drop 1 })

def note (c? : Option Complaint) (p : Progress) : Progress :=
  { p with complaints := p.complaints ++ c?.toList }

def integerOf (signed : Bool) (p : Progress) : Int × Progress :=
  let (arg, p) := p.textOf
  match quoted? arg with
  | some n => (n, p)
  | none =>
    let r := readInteger signed arg
    (r.value, p.note (complaint? arg r))

def floatOf (p : Progress) : Float × Progress :=
  let (arg, p) := p.textOf
  match quoted? arg with
  | some n => (Float.ofNat n, p)
  | none =>
    let r := readFloat arg
    (r.value, p.note (complaint? arg r))

end Progress

def isFlag (c : Char) : Bool :=
  "-+ #0".toList.contains c

/-- A number that is written in the format, or that a star takes from the arguments: of that one
only 32 bits count. -/
def measure (cs : Text) (p : Progress) : Int × Text × Progress :=
  match cs with
  | '*' :: r =>
    let (n, p) := p.integerOf true
    (n.bmod (Nat.pow 2 32), r, p)
  | cs => (Decimal.Literal.valueOf 0 (cs.takeWhile Char.isDigit), cs.dropWhile Char.isDigit, p)

/-- A negative width asks for the left side, and a negative precision for nothing. -/
def spec (cs : Text) (p : Progress) : Spec × Text × Progress :=
  let flags := cs.takeWhile isFlag
  let (width, cs, p) := measure (cs.drop flags.length) p
  let flags := if width < 0 then '-' :: flags else flags
  match cs with
  | '.' :: r =>
    let (precision, cs, p) := measure r p
    (⟨flags, width.natAbs, if precision < 0 then none else some precision.toNat⟩, cs, p)
  | cs => (⟨flags, width.natAbs, none⟩, cs, p)

/-- What is said of a letter that names no conversion. -/
def unknown (written : Text) : String :=
  "%" ++ String.ofList written ++ ": invalid directive"

/-- What is said of a conversion that is too large. -/
def failedLayout : String :=
  "xvsnprintf failed"

/-- The most characters that a conversion fills up to. -/
def mostFilled : Nat :=
  Nat.pow 2 24

/-- Whether a conversion would be larger than can be laid out. Only numbers are filled up to their
precision. -/
def Spec.isTooLarge (s : Spec) (letter : Char) : Bool :=
  let most := if "sbc".toList.contains letter then Nat.pow 2 31 - 1 else mostFilled
  mostFilled < s.width || most < s.precision?.getD 0

/-- One conversion of an argument, where the letter names one. -/
def convert? (s : Spec) (letter : Char) (p : Progress) : Option Progress :=
  match letter with
  | 's' =>
    let (arg, p) := p.textOf
    some (p.add (text s arg.toList))
  | 'c' =>
    let (arg, p) := p.textOf
    some (p.add (pad s false [] [arg.toList.head?.getD '\x00']))
  | 'b' =>
    let (arg, p) := p.textOf
    let (cs, stop) := unescapeText arg
    some { p.add (text s cs) with stop := stop }
  | 'd' | 'i' =>
    let (n, p) := p.integerOf true
    some (p.add (integer s n))
  | 'u' =>
    let (n, p) := p.integerOf false
    some (p.add (unsigned s 10 false n))
  | 'o' =>
    let (n, p) := p.integerOf false
    some (p.add (unsigned s 8 false n))
  | 'x' | 'X' =>
    let (n, p) := p.integerOf false
    some (p.add (unsigned s 16 (letter = 'X') n))
  | letter =>
    if "aAeEfFgG".toList.contains letter then
      let (x, p) := p.floatOf
      some (p.add (float s letter x))
    else none

/-- One conversion; `written` is how it stands in the format. One that is too large takes its
argument all the same. -/
def convert (s : Spec) (letter : Char) (written : Text) (p : Progress) : Progress :=
  if s.isTooLarge letter then
    match convert? ⟨[], 0, none⟩ letter p with
    | some after => { p with args := after.args, complaints := after.complaints }.fail failedLayout
    | none => p.fail (unknown written)
  else (convert? s letter p).getD (p.fail (unknown written))

/-- One pass over the format. -/
def pass : Nat → Text → Progress → Progress
  | 0, _, p => p
  | _, [], p => p
  | fuel + 1, c :: r, p =>
    if p.stop then p
    else if c = '\\' then
      let (b, rest) := escape r
      pass fuel rest (p.add [b])
    else if c = '%' then
      if r.head? = some '%' then pass fuel (r.drop 1) (p.add ['%'])
      else
        let (s, rest, p) := spec r p
        match rest with
        | letter :: rest =>
          pass fuel rest (convert s letter (r.take (r.length - rest.length)) p)
        | [] => p.fail "missing format character"
    else pass fuel r (p.add [c])

/-- The format is used again while arguments are left and it takes any. -/
def passes : Nat → Text → Progress → Progress
  | 0, _, p => p
  | fuel + 1, cs, p =>
    let after := pass (cs.length + 1) cs p
    if after.stop || after.args.isEmpty || after.args.length = p.args.length then after
    else passes fuel cs after

def format (cs : Text) (args : List String) : Progress :=
  passes (args.length + 1) cs ⟨[], args, [], false, none⟩

def Progress.output (p : Progress) : String :=
  String.ofList p.out.reverse

end Culprit.Shell.Printf
