import Culprit.Json.Number
import Culprit.Text.Hex

/-!
The tokens of JSON text. The lexer is a machine that takes one character at a time; a number or a
word ends where a character comes that cannot belong to it. Text with an escape for half of a
surrogate pair is a token without a value.
-/

namespace Culprit.Json

inductive Token where
  | leftBracket
  | rightBracket
  | leftBrace
  | rightBrace
  | comma
  | colon
  | null
  | bool (value : Bool)
  | integer (value : Int)
  | real (value : Float)
  | string (value : String)
  | halved
deriving DecidableEq, Repr

/-- The text of a token as far as it was read, newest character first. -/
structure Draft where
  read : List Char
  halved : Bool
deriving DecidableEq, Repr

def Draft.add (d : Draft) (c : Char) : Draft :=
  { d with read := c :: d.read }

def Draft.halve (d : Draft) : Draft :=
  { d with halved := true }

def Draft.token (d : Draft) : Token :=
  if d.halved then .halved else .string (String.ofList d.read.reverse)

/-- Inside a token, what was read of it. An escape for the first half of a surrogate pair waits for
the second half. -/
inductive Mode where
  | between
  | word (read : List Char)
  | number (read : List Char)
  | string (draft : Draft)
  | escape (draft : Draft) (high? : Option Nat)
  | unicode (draft : Draft) (high? : Option Nat) (digits : Nat) (value : Nat)
  | expectLow (draft : Draft) (high : Nat)
deriving DecidableEq, Repr

def isBlank (c : Char) : Bool :=
  c = ' ' || c = '\t' || c = '\n' || c = '\r'

def isWordChar (c : Char) : Bool :=
  'a' ≤ c && c ≤ 'z'

def isNumberChar (c : Char) : Bool :=
  Decimal.Literal.isDigit c || c = '-' || c = '+' || c = '.' || c = 'e' || c = 'E'

def wordToken? (read : List Char) : Option Token :=
  let word := String.ofList read.reverse
  if word = "null" then some .null
  else if word = "true" then some (.bool true)
  else if word = "false" then some (.bool false)
  else none

/-- No leading zeros, and digits on both sides of a point. -/
def isStrictNumber (cs : List Char) : Bool :=
  let whole := cs.takeWhile Decimal.Literal.isDigit
  let rest := cs.dropWhile Decimal.Literal.isDigit
  let wholeOk := !whole.isEmpty && (whole.length = 1 || whole.head? ≠ some '0')
  let pointOk := match rest with
    | '.' :: r => !(r.takeWhile Decimal.Literal.isDigit).isEmpty
    | _ => true
  wholeOk && pointOk

/-- A number without point and exponent is an integer, but a negated zero is kept as a real. A real
that is too large is kept as an infinity. -/
def numberToken? (read : List Char) : Option Token :=
  let cs := read.reverse
  let (negative, digits) := match cs with
    | '-' :: r => (true, r)
    | _ => (false, cs)
  let whole := digits.takeWhile Decimal.Literal.isDigit
  let (part, rest) := Decimal.Literal.fraction (digits.dropWhile Decimal.Literal.isDigit)
  if !isStrictNumber digits then none
  else (Decimal.Literal.exponent? rest).map fun e =>
    let n := Decimal.Literal.valueOf 0 whole
    if digits.all Decimal.Literal.isDigit && !(negative && n = 0) then
      .integer (if negative then -(n : Int) else n)
    else
      let p := Number.Parts.ofDigits whole part
      .real ((Number.toFloat? negative { p with exponent := p.exponent + e }).getD
        Decimal.infinity)

def simpleEscape? (c : Char) : Option Char :=
  if c = '"' then some '"'
  else if c = '\\' then some '\\'
  else if c = '/' then some '/'
  else if c = 'b' then some '\x08'
  else if c = 'f' then some '\x0c'
  else if c = 'n' then some '\n'
  else if c = 'r' then some '\r'
  else if c = 't' then some '\t'
  else none

def isHigh (n : Nat) : Bool := 0xD800 ≤ n && n < 0xDC00

def isLow (n : Nat) : Bool := 0xDC00 ≤ n && n < 0xE000

/-- The end of a four-digit escape: a character, or the wait for a second half. -/
def unicodeEnd (d : Draft) (high? : Option Nat) (n : Nat) : Mode :=
  match high? with
  | some high =>
    if isLow n then .string (d.add (Char.ofNat (0x10000 + (high - 0xD800) * 0x400 + (n - 0xDC00))))
    else .string d.halve
  | none =>
    if isHigh n then .expectLow d n
    else if isLow n then .string d.halve
    else .string (d.add (Char.ofNat n))

/-- A character between tokens. -/
def start? (c : Char) : Option (List Token × Mode) :=
  if isBlank c then some ([], .between)
  else if c = '[' then some ([.leftBracket], .between)
  else if c = ']' then some ([.rightBracket], .between)
  else if c = '\x7b' then some ([.leftBrace], .between)
  else if c = '\x7d' then some ([.rightBrace], .between)
  else if c = ',' then some ([.comma], .between)
  else if c = ':' then some ([.colon], .between)
  else if c = '"' then some ([], .string ⟨[], false⟩)
  else if isWordChar c then some ([], .word [c])
  else if isNumberChar c then some ([], .number [c])
  else none

/-- A character of text outside escapes. -/
def stringStep? (d : Draft) (c : Char) : Option (List Token × Mode) :=
  if c = '"' then some ([d.token], .between)
  else if c = '\\' then some ([], .escape d none)
  else if c.toNat < 0x20 then none
  else some ([], .string (d.add c))

/-- The tokens that end with this character, and the mode after it. -/
def step? : Mode → Char → Option (List Token × Mode)
  | .between, c => start? c
  | .word read, c =>
    if isWordChar c then some ([], .word (c :: read))
    else do
      let t ← wordToken? read
      let (ts, m) ← start? c
      pure (t :: ts, m)
  | .number read, c =>
    if isNumberChar c then some ([], .number (c :: read))
    else do
      let t ← numberToken? read
      let (ts, m) ← start? c
      pure (t :: ts, m)
  | .string d, c => stringStep? d c
  | .escape d high?, c =>
    if c = 'u' then some ([], .unicode d high? 0 0)
    else
      let d := if high?.isSome then d.halve else d
      (simpleEscape? c).map fun e => ([], .string (d.add e))
  | .unicode d high? digits value, c => do
    let v ← Text.Hex.digitValue? c
    let value := 16 * value + v
    if digits = 3 then pure ([], unicodeEnd d high? value)
    else pure ([], .unicode d high? (digits + 1) value)
  | .expectLow d high, c =>
    if c = '\\' then some ([], .escape d (some high)) else stringStep? d.halve c

def finish? : Mode → Option (List Token)
  | .between => some []
  | .word read => (wordToken? read).map fun t => [t]
  | .number read => (numberToken? read).map fun t => [t]
  | _ => none

/-- `read` holds the tokens before, newest first. -/
def tokensFrom? (read : List Token) : Mode → List Char → Option (List Token)
  | m, [] => (finish? m).map fun ts => (ts.reverse ++ read).reverse
  | m, c :: r =>
    match step? m c with
    | none => none
    | some (ts, next) => tokensFrom? (ts.reverse ++ read) next r

def tokens? (cs : List Char) : Option (List Token) :=
  tokensFrom? [] .between cs

end Culprit.Json
