import Culprit.Text.Utf8

/-!
Text as the shell sees it: one character for each byte. Outside the shell, text is UTF-8; `spread`
takes it apart into bytes, and `gather` puts it together again.

Patterns match such text: a star matches any text, a question mark any one character, and brackets
one character of a set. A character that was quoted matches itself only.
-/

namespace Culprit.Shell

/-! ### Bytes -/

namespace Bytes

def ofArray (bytes : ByteArray) : String :=
  String.ofList (bytes.toList.map fun b => Char.ofNat b.toNat)

def toArray (s : String) : ByteArray :=
  s.toList.foldl (fun bytes c => bytes.push (UInt8.ofNat c.toNat)) .empty

def spread (s : String) : String :=
  ofArray s.toUTF8

/-- Bytes that are no text are replaced. -/
def gather (s : String) : String :=
  Text.Utf8.toStringLossy (toArray s)

/-- Bytes from 128 on count as negative where they are compared. -/
def signed (c : Char) : Int :=
  if c.toNat < 128 then c.toNat else c.toNat - 256

end Bytes

/-! ### Patterns -/

/-- A character, and whether it may be special. -/
abbrev Marked := Char × Bool

/-- What one character can be, or any number of them. -/
inductive Member where
  | range (first last : Char)
  | kind (name : String)
deriving DecidableEq, Repr

inductive Glob where
  | many
  | one
  | among (negated : Bool) (members : List Member)
  | exactly (c : Char)
deriving DecidableEq, Repr

namespace Member

def isPrintable (c : Char) : Bool :=
  ' ' < c && c < '\x7f'

/-- The kinds of characters that have names. -/
def kinds : List (String × (Char → Bool)) :=
  [("alnum", Char.isAlphanum), ("cntrl", fun c => c < ' ' || c = '\x7f'), ("lower", Char.isLower),
    ("space", fun c => c = ' ' || ('\t' ≤ c && c ≤ '\r')), ("alpha", Char.isAlpha),
    ("digit", Char.isDigit), ("print", fun c => c = ' ' || isPrintable c),
    ("upper", Char.isUpper), ("blank", fun c => c = ' ' || c = '\t'), ("graph", isPrintable),
    ("punct", fun c => isPrintable c && !c.isAlphanum),
    ("xdigit", fun c => c.isDigit || ('a' ≤ c && c ≤ 'f') || ('A' ≤ c && c ≤ 'F'))]

def holds (m : Member) (c : Char) : Bool :=
  match m with
  | .range first last => Bytes.signed first ≤ Bytes.signed c && Bytes.signed c ≤ Bytes.signed last
  | .kind name => (kinds.lookup name).any fun p => p c

end Member

namespace Glob

/-- A backslash that is not quoted itself quotes what follows it. -/
def unescaped : List Marked → List Marked
  | ('\\', true) :: (c, _) :: r => (c, false) :: unescaped r
  | m :: r => m :: unescaped r
  | [] => []

/-- The name of a kind after an opening bracket, as in `:alpha:]`. -/
def kind? (cs : List Marked) : Option (String × List Marked) :=
  (Member.kinds.find? fun k =>
    ((":" ++ k.1 ++ ":]").toList.map fun c => (c, true)).isPrefixOf cs).map fun k =>
    (k.1, cs.drop (k.1.length + 3))

/-- The members of a set up to the closing bracket, which may also come first as a member. -/
def members? : Nat → Bool → List Marked → Option (List Member × List Marked)
  | 0, _, _ => none
  | _, _, [] => none
  | fuel + 1, first, (c, s) :: r =>
    if c = ']' && s && !first then some ([], r)
    else match if c = '[' && s then kind? r else none with
      | some (name, rest) => (members? fuel false rest).map fun p => (.kind name :: p.1, p.2)
      | none =>
        match r with
        | (d, t) :: (e, u) :: rest =>
          if d = '-' && t && !(e = ']' && u) then
            (members? fuel false rest).map fun p => (.range c e :: p.1, p.2)
          else (members? fuel false r).map fun p => (.range c c :: p.1, p.2)
        | r => (members? fuel false r).map fun p => (.range c c :: p.1, p.2)

def set? (cs : List Marked) : Option (Glob × List Marked) :=
  let (negated, r) := match cs with
    | ('!', true) :: r => (true, r)
    | cs => (false, cs)
  (members? (cs.length + 1) true r).map fun p => (.among negated p.1, p.2)

def ofMarked : Nat → List Marked → List Glob
  | 0, _ => []
  | _, [] => []
  | fuel + 1, (c, special) :: r =>
    if !special then .exactly c :: ofMarked fuel r
    else if c = '*' then .many :: ofMarked fuel (r.dropWhile (· = ('*', true)))
    else if c = '?' then .one :: ofMarked fuel r
    else if c = '[' then
      match set? r with
      | some (g, rest) => g :: ofMarked fuel rest
      | none => .exactly c :: ofMarked fuel r
    else .exactly c :: ofMarked fuel r

def compile (cs : List Marked) : List Glob :=
  let cs := unescaped cs
  ofMarked (cs.length + 1) cs

def takes (g : Glob) (c : Char) : Bool :=
  match g with
  | .many => true
  | .one => true
  | .exactly d => c = d
  | .among negated ms => (ms.any fun m => m.holds c) != negated

/-- Whether some end of a text fits. -/
def anyTail (fits : List Char → Bool) : List Char → Bool
  | [] => fits []
  | c :: r => fits (c :: r) || anyTail fits r

/-- The whole text must match. -/
def accepts : List Glob → List Char → Bool
  | [], cs => cs.isEmpty
  | .many :: gs, cs => anyTail (accepts gs) cs
  | g :: gs, c :: cs => g.takes c && accepts gs cs
  | _ :: _, [] => false

/-- Cuts off the part that matches at one end, if there is one. -/
def cut (gs : List Glob) (atEnd longest : Bool) (cs : List Char) : List Char :=
  let lengths := List.range (cs.length + 1)
  let order := if longest then lengths.reverse else lengths
  if atEnd then
    match order.find? fun n => accepts gs (cs.drop (cs.length - n)) with
    | some n => cs.take (cs.length - n)
    | none => cs
  else
    match order.find? fun n => accepts gs (cs.take n) with
    | some n => cs.drop n
    | none => cs

/-- Whether a text holds a sign of a pattern. -/
def isPattern (cs : List Marked) : Bool :=
  (compile cs).any fun
    | .exactly _ => false
    | _ => true

@[simp] theorem accepts_many (cs : List Char) : accepts [.many] cs = true := by
  have h : ∀ ds : List Char, anyTail (accepts []) ds = true := by
    intro ds
    induction ds with
    | nil => rfl
    | cons d r ih => simp [anyTail, ih]
  simpa [accepts] using h cs

end Glob

end Culprit.Shell
