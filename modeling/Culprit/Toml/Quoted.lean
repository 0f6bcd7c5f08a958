import Culprit.Text.Hex

/-!
Quoted text in TOML. Between double quotes a backslash starts an escape; between single quotes
nothing is special. Text between three quotes may hold line breaks and up to two quotes in a row; a
line break right after the opening quotes is dropped, and a backslash at the end of a line drops
the line break with all white space after it.

Reading goes in two steps: `extent` finds the closing quotes, and `decode` reads what is between.
-/

namespace Culprit.Toml.Quoted

/-- Allowed inside a comment or a text without an escape. -/
def isPlain (c : Char) : Bool :=
  c = '\t' || (' ' ≤ c && c ≠ '\x7f')

/-- Up to two quotes may stand before the three that close a text. -/
def closing (q : Char) (cs : List Char) : List Char × List Char :=
  let extra := (cs.take 2).takeWhile (· = q)
  (extra, cs.drop extra.length)

/-- What stands before the closing quote, and what follows it. -/
def extent (q : Char) (escapes : Bool) : List Char → Option (List Char × List Char)
  | [] => none
  | [c] => if c = q then some ([], []) else none
  | c :: d :: r =>
    if c = q then some ([], d :: r)
    else if escapes && c = '\\' then (extent q escapes r).map fun p => (c :: d :: p.1, p.2)
    else (extent q escapes (d :: r)).map fun p => (c :: p.1, p.2)

/-- The same for three closing quotes. -/
def longExtent (q : Char) (escapes : Bool) : List Char → Option (List Char × List Char)
  | a :: b :: c :: r =>
    if a = q && b = q && c = q then some (closing q r)
    else if escapes && a = '\\' then
      (longExtent q escapes (c :: r)).map fun p => (a :: b :: p.1, p.2)
    else (longExtent q escapes (b :: c :: r)).map fun p => (a :: p.1, p.2)
  | _ => none

def scalar? (digits : List Char) : Option Char :=
  (Text.Hex.toNat? digits).bind fun n =>
    if n.isValidChar then some (Char.ofNat n) else none

def escaped? : Char → Option Char
  | 'b' => some '\x08'
  | 't' => some '\t'
  | 'n' => some '\n'
  | 'f' => some '\x0c'
  | 'r' => some '\r'
  | '"' => some '"'
  | '\\' => some '\\'
  | _ => none

def isGap (c : Char) : Bool :=
  c = ' ' || c = '\t'

/-- Nothing but blanks up to the end of the line. -/
def endsLine (cs : List Char) : Bool :=
  match cs.dropWhile isGap with
  | '\n' :: _ => true
  | '\r' :: '\n' :: _ => true
  | _ => false

/-- One character that stands for itself. A line break needs a text that may hold it. -/
def own? (long : Bool) (c : Char) : Option Char :=
  if isPlain c || (long && c = '\n') then some c else none

/-- `joining` says that blanks are being dropped after a backslash at the end of a line. -/
def decode (long : Bool) (joining : Bool) : List Char → Option (List Char)
  | [] => some []
  | '\r' :: '\n' :: r =>
    if joining then decode long true r
    else if long then (decode long false r).map ('\n' :: ·)
    else none
  | '\\' :: 'u' :: a :: b :: c :: d :: r => do
    let x ← scalar? [a, b, c, d]
    let rest ← decode long false r
    pure (x :: rest)
  | '\\' :: 'U' :: a :: b :: c :: d :: e :: f :: g :: h :: r => do
    let x ← scalar? [a, b, c, d, e, f, g, h]
    let rest ← decode long false r
    pure (x :: rest)
  | '\\' :: c :: r =>
    if long && endsLine (c :: r) then decode long true (c :: r)
    else do
      let x ← escaped? c
      let rest ← decode long false r
      pure (x :: rest)
  | c :: r =>
    if joining && (isGap c || c = '\n') then decode long true r
    else if c = '\\' then none
    else do
      let x ← own? long c
      let rest ← decode long false r
      pure (x :: rest)

/-- Text in which nothing is special. -/
def literal (long : Bool) : List Char → Option (List Char)
  | [] => some []
  | '\r' :: '\n' :: r => if long then (literal long r).map ('\n' :: ·) else none
  | c :: r => do
    let x ← own? long c
    let rest ← literal long r
    pure (x :: rest)

def content (q : Char) (long : Bool) (cs : List Char) : Option (List Char) :=
  if q = '"' then decode long false cs else literal long cs

def dropBreak : List Char → List Char
  | '\n' :: r => r
  | '\r' :: '\n' :: r => r
  | cs => cs

/-- A text of one line, after its opening quote. -/
def short? (q : Char) (cs : List Char) : Option (String × List Char) := do
  let (inner, rest) ← extent q (q = '"') cs
  let text ← content q false inner
  pure (String.ofList text, rest)

/-- A text after its three opening quotes. -/
def long? (q : Char) (cs : List Char) : Option (String × List Char) := do
  let (inner, rest) ← longExtent q (q = '"') (dropBreak cs)
  let text ← content q true inner
  pure (String.ofList text, rest)

/-- A quoted text, after its first quote. -/
def read? (q : Char) : List Char → Option (String × List Char)
  | a :: b :: r => if a = q && b = q then long? q r else short? q (a :: b :: r)
  | cs => short? q cs

end Culprit.Toml.Quoted
