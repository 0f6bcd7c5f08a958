/-!
Shell scripts: words, redirections and commands. A word is a list of parts, and a part may hold
commands of its own. The text of a document is kept apart from the command that reads it, under a
number.
-/

namespace Culprit.Shell

/-- What stands in for a parameter that is missing, or empty where empty counts as missing. -/
inductive Fallback where
  | use
  | assign
  | replace
  | refuse
deriving DecidableEq, Repr

inductive Direction where
  | input
  | output
  /-- Even onto a file that may not be overwritten. -/
  | overwrite
  | append
  | both
deriving DecidableEq, Repr

mutual

/-- A piece of a word. Only what is not quoted is split into fields and matches as a pattern. -/
inductive Part where
  | text (value : String) (quoted : Bool)
  /-- A quotation mark: there is a field here, though it may be empty. -/
  | mark
  | parameter (name : String) (change : Change) (quoted : Bool)
  /-- What stands between the braces names no parameter. -/
  | badParameter
  | output (command : Command) (quoted : Bool)
  | arithmetic (expression : List Part) (quoted : Bool)

/-- What is done to the value of a parameter. -/
inductive Change where
  | whole
  | length
  | fallback (kind : Fallback) (emptyToo : Bool) (word : List Part)
  /-- Cuts off what matches a pattern at one end. -/
  | cut (atEnd longest : Bool) (pattern : List Part)

inductive Redirection where
  | file (descriptor : Nat) (direction : Direction) (target : List Part)
  /-- The target is another descriptor, or a dash. -/
  | duplicate (descriptor : Nat) (target : List Part)
  | document (descriptor number : Nat)

inductive Command where
  | nothing
  | simple (line : Nat) (assignments words : List (List Part)) (redirections : List Redirection)
  | sequence (first second : Command)
  | both (first second : Command)
  | either (first second : Command)
  | negation (command : Command)
  | pipe (stages : List Command)
  | background (command : Command)
  | redirected (line : Nat) (command : Command) (redirections : List Redirection)
  /-- Changes of variables stay inside. -/
  | isolated (line : Nat) (command : Command) (redirections : List Redirection)
  | branch (condition yes no : Command)
  /-- Goes on while the condition fails, if `untilTrue`. -/
  | loop (untilTrue : Bool) (condition body : Command)
  | each (line : Nat) (name : String) (words : List (List Part)) (body : Command)
  | choice (line : Nat) (word : List Part) (arms : List (List (List Part) × Command))
  | define (name : String) (body : Command)

end

abbrev Word := List Part

instance : Inhabited Command := ⟨.nothing⟩

namespace Word

/-- A character more at the end of a word that is held with its last part first. -/
def push (c : Char) (quoted : Bool) : Word → Word
  | .text s q :: r =>
    if q = quoted then .text (s.push c) q :: r
    else .text (String.singleton c) quoted :: .text s q :: r
  | r => .text (String.singleton c) quoted :: r

/-- The text of a word that was written without any quotes or expansions. -/
def bare? : Word → Option String
  | [.text s false] => some s
  | _ => none

/-- What is written, without the quotes. -/
def plain (w : Word) : String :=
  String.join <| w.map fun
    | .text s _ => s
    | _ => ""

end Word

/-- All positional parameters, as a loop without words takes them. -/
def everyParameter : Word :=
  [.mark, .parameter "@" .whole true, .mark]

end Culprit.Shell
