import Culprit.Decimal.Literal
import Culprit.Json.Decode
import Culprit.Report.Codec

/-!
The words of a call, sorted by a form that says which options and how many plain words there are. An
option may be given once; its value follows it, behind an equals sign or as the next word. After two
dashes every word is plain.
-/

namespace Culprit.Commands

/-- Why a call is not carried out. -/
inductive Refusal where
  | usage
  | help
deriving DecidableEq, Repr

inductive Kind where
  /-- Nothing follows the option. -/
  | switch
  | text
  /-- A text that is not empty. -/
  | path
  /-- A natural number of at most 64 bits. -/
  | number
deriving DecidableEq, Repr

def number? (s : String) : Option Nat :=
  Decimal.Literal.natural? Json.wordBound s.toList

def Kind.accepts : Kind → String → Bool
  | .switch, _ => false
  | .text, _ => true
  | .path, s => !s.isEmpty
  | .number, s => (number? s).isSome

structure OptionForm where
  name : String
  letter? : Option Char
  kind : Kind
deriving DecidableEq, Repr

structure Form where
  options : List OptionForm
  /-- What the plain words are, in order. -/
  words : List Kind
deriving DecidableEq, Repr

/-- What was given. -/
structure Given where
  options : List (String × String)
  words : List String
deriving DecidableEq, Repr

namespace Given

def empty : Given := ⟨[], []⟩

def text? (g : Given) (name : String) : Option String :=
  g.options.lookup name

def text (g : Given) (name standard : String) : String :=
  (g.text? name).getD standard

def number (g : Given) (name : String) (standard : Nat) : Nat :=
  ((g.text? name).bind number?).getD standard

def has (g : Given) (name : String) : Bool :=
  (g.text? name).isSome

def word (g : Given) (position : Nat) : String :=
  (g.words[position]?).getD ""

end Given

/-- A word of the call, as far as its dashes tell. -/
inductive Item where
  | plain
  | long (name : String) (value? : Option String)
  /-- What stands directly behind the letter is its value. -/
  | short (letter : Char) (value? : Option String)
deriving DecidableEq, Repr

namespace Item

def ofLong (cs : List Char) : Item :=
  match Text.splitFirst? '=' cs with
  | some (name, value) => .long (String.ofList name) (some (String.ofList value))
  | none => .long (String.ofList cs) none

def ofShort (letter : Char) (rest : List Char) : Item :=
  match rest with
  | [] => .short letter none
  | '=' :: value => .short letter (some (String.ofList value))
  | value => .short letter (some (String.ofList value))

/-- A single dash is a plain word. -/
def of (word : String) : Item :=
  match word.toList with
  | '-' :: '-' :: cs => ofLong cs
  | '-' :: c :: cs => ofShort c cs
  | _ => .plain

end Item

namespace Form

variable (f : Form)

/-- The option that a word names; the option for help is in every form. -/
def find (item : Item) : Except Refusal (Option (OptionForm × Option String)) :=
  match item with
  | .plain => .ok none
  | .long name value? =>
    match f.options.find? (·.name = name) with
    | some o => .ok (some (o, value?))
    | none => .error (if name = "help" && value?.isNone then .help else .usage)
  | .short letter value? =>
    match f.options.find? (·.letter? = some letter) with
    | some o => .ok (some (o, value?))
    | none => .error (if letter = 'h' then .help else .usage)

def addWord (g : Given) (word : String) : Except Refusal Given :=
  match f.words[g.words.length]? with
  | some kind =>
    if kind.accepts word then .ok { g with words := g.words ++ [word] } else .error .usage
  | none => .error .usage

def addOption (g : Given) (o : OptionForm) (value : String) : Except Refusal Given :=
  if g.has o.name then .error .usage
  else .ok { g with options := g.options ++ [(o.name, value)] }

def addValue (g : Given) (o : OptionForm) (value : String) : Except Refusal Given :=
  if o.kind.accepts value then addOption g o value else .error .usage

/-- All plain words have to be there. -/
def finish (g : Given) : Except Refusal Given :=
  if g.words.length = f.words.length then .ok g else .error .usage

def read (g : Given) : List String → Except Refusal Given
  | [] => f.finish g
  | "--" :: rest => do
    let g ← rest.foldlM f.addWord g
    f.finish g
  | word :: rest => do
    match ← f.find (Item.of word) with
    | none => read (← f.addWord g word) rest
    | some (o, value?) =>
      match o.kind, value?, rest with
      | .switch, none, rest => read (← addOption g o "") rest
      | .switch, some _, _ => .error .usage
      | _, some value, rest => read (← addValue g o value) rest
      | _, none, [] => .error .usage
      | _, none, value :: rest =>
        if Item.of value = .plain then read (← addValue g o value) rest else .error .usage

def read? (words : List String) : Except Refusal Given :=
  f.read .empty words

end Form

end Culprit.Commands
