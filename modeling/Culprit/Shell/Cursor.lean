import Culprit.Shell.Syntax

/-!
The place in a script up to which it has been read. The text of an alias is read in place of its
name, and an alias is not taken again inside its own text. A line break that is quoted by a
backslash is passed over as if it were not there.
-/

namespace Culprit.Shell

inductive Token where
  | finish
  | lineBreak
  | sign (text : String)
  | reserved (text : String)
  | redirection
  | word
deriving DecidableEq, Repr

/-- What is wrong with a script, and in which line. -/
structure Fault where
  line : Nat
  reason : String
deriving DecidableEq, Repr

/-- The text of an alias, as far as it is still to be read. -/
structure Inlay where
  rest : List Char
  name : String
  /-- After a blank at its end, the next word may be an alias too. -/
  open_ : Bool

/-- What a token may be taken for, besides a word. -/
structure Expected where
  /-- Line breaks before it do not count. -/
  breaks : Bool
  reserved : Bool
  aliases : Bool
  /-- It is the word that ends a document. -/
  ending : Bool

namespace Expected

def nothing : Expected := ⟨false, false, false, false⟩
def command : Expected := ⟨false, true, true, false⟩
def commandBelow : Expected := ⟨true, true, true, false⟩
def argument : Expected := ⟨false, false, true, false⟩
def arm : Expected := ⟨true, true, false, false⟩
def documentEnd : Expected := ⟨false, false, false, true⟩

end Expected

/-- A document whose lines are still to come. -/
structure Awaited where
  number : Nat
  last : String
  /-- Tabs at the start of a line do not count. -/
  tabless : Bool
  /-- Nothing in it is expanded. -/
  plain : Bool

/-- The start of a redirection. -/
inductive Opening where
  | file (descriptor : Nat) (direction : Direction)
  | duplicate (descriptor : Nat)
  | document (descriptor : Nat) (tabless : Bool)

structure Cursor where
  rest : List Char
  /-- Texts of aliases, the innermost first. -/
  inlays : List Inlay
  line : Nat
  aliases : List (String × String)
  /-- The last token is to be read once more. -/
  again : Bool
  last : Token
  /-- The last word, and whether any of it was quoted. -/
  word : Word
  wordQuoted : Bool
  /-- Whether any of the word that is being read is quoted. -/
  quoting : Bool
  expected : Expected
  opening : Opening
  awaited : List Awaited
  /-- The document that is being read. -/
  document? : Option Awaited
  documents : Array Word

abbrev Read (α : Type) := StateT Cursor (Except Fault) α

namespace Cursor

def start (text : String) (aliases : List (String × String)) (documents : Array Word) : Cursor where
  rest := text.toList
  inlays := []
  line := 1
  aliases := aliases
  again := false
  last := .finish
  word := []
  wordQuoted := false
  quoting := false
  expected := .nothing
  opening := .duplicate 0
  awaited := []
  document? := none
  documents := documents

/-- Drops quoted line breaks at the start of a text, and counts them. -/
def unbroken : List Char → List Char × Nat
  | '\\' :: '\n' :: r => ((unbroken r).1, (unbroken r).2 + 1)
  | cs => (cs, 0)

/-- The text that comes next. -/
def ahead (c : Cursor) : List Char :=
  match c.inlays.find? fun i => !i.rest.isEmpty with
  | some i => i.rest
  | none => c.rest

/-- Leaves the aliases that have been read to their end, and goes on with another text. -/
def replaceAhead (rest : List Char) (c : Cursor) : Cursor :=
  let finished := c.inlays.takeWhile fun i => i.rest.isEmpty
  let c := { c with
    expected := { c.expected with aliases := c.expected.aliases || finished.any (·.open_) } }
  match c.inlays.drop finished.length with
  | i :: inlays => { c with inlays := { i with rest := rest } :: inlays }
  | [] => { c with inlays := [], rest := rest }

/-- The next character as it is written. -/
def front? (c : Cursor) : Option Char :=
  c.ahead.head?

end Cursor

namespace Read

def fail {α : Type} (reason : String) : Read α := do
  throw ⟨(← get).line, reason⟩

/-- The next character as it is written. -/
def peekRaw : Read (Option Char) := do
  return (← get).front?

/-- The next character after quoted line breaks. -/
def peek : Read (Option Char) := do
  let c ← get
  let (rest, broken) := Cursor.unbroken c.ahead
  if broken = 0 then pure rest.head?
  else do
    set { c.replaceAhead rest with line := c.line + broken }
    return (← get).front?

/-- Passes the next character. -/
def skip : Read Unit :=
  modify fun c => match c.ahead with
    | [] => c
    | d :: rest =>
      let c := c.replaceAhead rest
      if d = '\n' then { c with line := c.line + 1 } else c

def expect (e : Expected) : Read Unit :=
  modify fun c => { c with expected := e }

def setQuoting : Read Unit :=
  modify fun c => { c with quoting := true }

/-- The token is read once more. -/
def pushBack : Read Unit :=
  modify fun c => { c with again := true }

def setLast (t : Token) : Read Token := do
  modify fun c => { c with last := t }
  pure t

end Read

end Culprit.Shell
