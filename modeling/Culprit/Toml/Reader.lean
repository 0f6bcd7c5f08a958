import Culprit.Toml.Quoted
import Culprit.Toml.Scalar
import Culprit.Toml.Table

/-!
Reading TOML 1.0. Values nest at most 79 levels deep, and a dotted key has at most 79 parts.
-/

namespace Culprit.Toml

open Quoted (isPlain isGap)

/-- A reader gives what it read and the rest. -/
abbrev Scan (α : Type) := List Char → Option (α × List Char)

def nestingLimit : Nat := 79

def dropGap (cs : List Char) : List Char :=
  cs.dropWhile isGap

/-- Blanks, line breaks and comments; `comment` says that a comment has begun. -/
def dropTrivia (comment : Bool) : List Char → List Char
  | [] => []
  | '\r' :: '\n' :: r => dropTrivia false r
  | c :: r =>
    if c = '\n' then dropTrivia false r
    else if comment then if isPlain c then dropTrivia true r else c :: r
    else if c = '#' then dropTrivia true r
    else if isGap c then dropTrivia false r
    else c :: r

def dropComment : List Char → List Char
  | '#' :: r => r.dropWhile isPlain
  | cs => cs

/-- Nothing but a comment may stand before the line break. -/
def lineEnd? (cs : List Char) : Option (List Char) :=
  match dropComment (dropGap cs) with
  | [] => some []
  | '\n' :: r => some r
  | '\r' :: '\n' :: r => some r
  | _ => none

def isBareChar (c : Char) : Bool :=
  c.isAlphanum || c = '_' || c = '-'

def keyPart? : Scan String
  | '"' :: r => Quoted.short? '"' r
  | '\'' :: r => Quoted.short? '\'' r
  | cs =>
    let part := cs.takeWhile isBareChar
    if part.isEmpty then none else some (String.ofList part, cs.dropWhile isBareChar)

/-- Parts with dots between them; at most `fuel` parts. -/
def keyParts? : Nat → Scan (List String)
  | 0, _ => none
  | fuel + 1, cs => do
    let (part, rest) ← keyPart? (dropGap cs)
    match dropGap rest with
    | '.' :: r => do
      let (parts, rest) ← keyParts? fuel r
      pure (part :: parts, rest)
    | rest => pure ([part], rest)

/-- The way to a key, and the key. -/
def key? : Scan (List String × String) := fun cs => do
  let (parts, rest) ← keyParts? nestingLimit cs
  let key ← parts.getLast?
  pure ((parts.dropLast, key), rest)

/-- A key, an equals sign and a value. -/
def assignment? (value : Scan Toml) : Scan ((List String × String) × Toml) := fun cs => do
  let (key, rest) ← key? cs
  match rest with
  | '=' :: r => do
    let (v, rest) ← value (dropGap r)
    pure ((key, v), rest)
  | _ => none

/-- The rest of an array after its bracket or a comma; a comma may stand at the end. -/
def items? (value : Scan Toml) : Nat → Scan (List Toml)
  | 0, _ => none
  | fuel + 1, cs =>
    match dropTrivia false cs with
    | ']' :: r => some ([], r)
    | cs => do
      let (v, rest) ← value cs
      match dropTrivia false rest with
      | ']' :: r => pure ([v], r)
      | ',' :: r => do
        let (vs, rest) ← items? value fuel r
        pure (v :: vs, rest)
      | _ => none

/-- The rest of a table in braces after its brace or a comma. -/
def pairs? (value : Scan Toml) : Nat → Entries → Scan Entries
  | 0, _, _ => none
  | fuel + 1, es, cs => do
    let (((way, key), v), rest) ← assignment? value cs
    let es ← define way key v .header es
    match dropGap rest with
    | '\x7d' :: r => pure (es, r)
    | ',' :: r => pairs? value fuel es r
    | _ => none

/-- `inner` reads the values inside this one. -/
def composite? (inner : Scan Toml) : Scan Toml
  | '[' :: r => (items? inner (r.length + 1) r).map fun p => (.array p.1, p.2)
  | '\x7b' :: r =>
    match dropGap r with
    | '\x7d' :: r => some (.table [], r)
    | r => (pairs? inner (r.length + 1) [] r).map fun p => (.table (closeEntries p.1), p.2)
  | _ => none

def simple? : Scan Toml
  | '"' :: r => (Quoted.read? '"' r).map fun p => (.string p.1, p.2)
  | '\'' :: r => (Quoted.read? '\'' r).map fun p => (.string p.1, p.2)
  | cs => Scalar.read? cs

/-- A value with at most `depth` levels of arrays and tables. -/
def value? : Nat → Scan Toml
  | 0, cs => simple? cs
  | depth + 1, cs =>
    match cs with
    | '[' :: _ => composite? (value? depth) cs
    | '\x7b' :: _ => composite? (value? depth) cs
    | _ => simple? cs

def afterHeader? (brackets : List Char) (cs : List Char) : Option (List String × List Char) := do
  let ((way, key), rest) ← key? cs
  if brackets.isPrefixOf rest then do
    let rest ← lineEnd? (rest.drop brackets.length)
    pure (way ++ [key], rest)
  else none

/-- One line that is not blank. -/
def line? (d : Draft) : List Char → Option (Draft × List Char)
  | '[' :: '[' :: r => do
    let (path, rest) ← afterHeader? [']', ']'] r
    let d ← d.openElement? path
    pure (d, rest)
  | '[' :: r => do
    let (path, rest) ← afterHeader? [']'] r
    let d ← d.openTable? path
    pure (d, rest)
  | cs => do
    let (((way, key), v), rest) ← assignment? (value? nestingLimit) cs
    let rest ← lineEnd? rest
    let d ← d.define? way key v
    pure (d, rest)

/-- Every line takes at least one character, so the length is fuel enough. -/
def document? : Nat → Draft → List Char → Option Draft
  | 0, _, _ => none
  | fuel + 1, d, cs =>
    match dropTrivia false cs with
    | [] => some d
    | cs => do
      let (d, rest) ← line? d cs
      document? fuel d rest

def dropMark : List Char → List Char
  | '\uFEFF' :: r => r
  | cs => cs

def parse? (text : String) : Option (List (String × Toml)) := do
  let cs := dropMark text.toList
  let d ← document? (cs.length + 1) .start cs
  let es ← d.close?
  pure (closeEntries es)

end Culprit.Toml
