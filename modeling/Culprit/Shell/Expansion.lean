import Culprit.Shell.Act
import Culprit.Shell.Arithmetic
import Culprit.Shell.Field

/-!
What words come to: parameters, scripts inside words, arithmetic, and the home directory that a
tilde stands for. Where several fields may come of a word it is split, and the fields are taken for
patterns of paths. How a script inside a word is carried out is left to the caller.
-/

namespace Culprit.Shell.Expansion

open Act

/-- Where a tilde stands for a directory. -/
inductive Home where
  | nowhere
  | first
  /-- After the first equals sign, and after every colon. -/
  | value
deriving DecidableEq, Repr

/-- What a word is expanded for. -/
structure Purpose where
  /-- Several fields may come of it. -/
  fields : Bool
  home : Home

namespace Purpose

def argument : Purpose := ⟨true, .first⟩
def text : Purpose := ⟨false, .first⟩
def assignment : Purpose := ⟨false, .value⟩
def document : Purpose := ⟨false, .nowhere⟩

end Purpose

/-- Home directories of users. -/
def homes : List (String × String) :=
  [("root", "/root"), ("daemon", "/usr/sbin"), ("bin", "/bin"), ("sys", "/dev"),
    ("nobody", "/nonexistent")]

/-- The directory that a name after a tilde stands for. -/
def homeOf? (name : String) : Act (Option String) := do
  if name.isEmpty then value? "HOME" else pure (homes.lookup name)

/-- Written text whose tildes are replaced. `last` tells that the word ends with it, and `here` that
a tilde may come next. -/
def withHomes (home : Home) (last : Bool) : Nat → (here seen : Bool) → List Char → Act (List Piece)
  | 0, _, _, _ => pure []
  | _, _, _, [] => pure []
  | fuel + 1, here, seen, c :: r => do
    let ends (d : Char) : Bool := d = '/' || (home = .value && d = ':')
    let name := r.takeWhile fun d => !ends d
    let rest := r.drop name.length
    let found? ← if c = '~' && here && (last || !rest.isEmpty) then homeOf? (String.ofList name)
      else pure none
    match found? with
    | some dir => return Piece.ofText .fixed dir ++ (← withHomes home last fuel false seen rest)
    | none =>
      let next := home = .value && (c = ':' || (c = '=' && !seen))
      return .char c .plain :: (← withHomes home last fuel next (seen || c = '=') r)

/-- Pieces of what is written without quotes. -/
def written (home : Home) (first last : Bool) (s : String) : Act (List Piece) :=
  if home = .nowhere || !s.toList.contains '~' then pure (Piece.ofText .plain s)
  else withHomes home last (s.length + 1) (first && home = .first) false s.toList

/-- The value of a parameter: one text, or one for each argument, which stay apart or not. -/
inductive Value where
  | text (s : String)
  | each (args : List String) (joint : String)
deriving DecidableEq, Repr

namespace Value

def joined : Value → String
  | .text s => s
  | .each args joint => String.intercalate joint args

/-- Where only the length counts, arguments are joined. -/
def extent (v : Value) : Nat :=
  v.joined.length

/-- Arguments that stay apart are as good as text between them. -/
def isEmpty : Value → Bool
  | .text s => s.isEmpty
  | .each args _ => args.length ≤ 1 && args.all (·.isEmpty)

def pieces (quoted : Bool) : Value → List Piece
  | .text s => Piece.ofValue quoted s
  | .each args _ =>
    if quoted then Piece.withGaps (args.map fun a => .edge :: Piece.ofText .fixed a)
    else .seam :: Piece.withGaps (args.map (Piece.ofText .loose))

/-- Cuts off what matches at one end. Of several arguments only the first is cut at its start, and
all of them with it where the longest match is all of it; from their end, all is cut that comes
after the place that is found. -/
def cut (gs : List Glob) (atEnd longest : Bool) : Value → Value
  | .text s => .text (String.ofList (Glob.cut gs atEnd longest s.toList))
  | .each args joint =>
    let cutOne (a : String) : String := String.ofList (Glob.cut gs atEnd longest a.toList)
    let fits (a : String) : Bool :=
      (List.range (a.length + 1)).any fun n => Glob.accepts gs (a.toList.drop n)
    match args with
    | [] => .each [] joint
    | a :: rest =>
      if !atEnd then
        .each (if longest && Glob.accepts gs a.toList then [""] else cutOne a :: rest) joint
      else if longest then .each (if fits a then [cutOne a] else a :: rest) joint
      else
        match (List.range args.length).reverse.find? fun i => fits (args[i]?.getD "") with
        | some i => .each (args.take i ++ [cutOne (args[i]?.getD "")]) joint
        | none => .each args joint

end Value

/-- The value of all positional parameters. They stay apart where fields are wanted, as long as
there are separators at all. -/
def allArguments (f : Frame) (p : Purpose) (name : String) (quoted : Bool) : Value :=
  let separators? := f.value? "IFS"
  let joint := match separators? with
    | some ifs => String.ofList (ifs.toList.take 1)
    | none => " "
  if p.fields && (if quoted then name = "@" else separators?.isSome) then .each f.args joint
  else .text (String.intercalate joint f.args)

/-- The value of a parameter, if it has one. -/
def value? (p : Purpose) (name : String) (quoted : Bool) : Act (Option Value) := do
  let f ← frame
  match name with
  | "$" => pure (some (.text (toString f.pid)))
  | "?" => pure (some (.text (toString f.status)))
  | "#" => pure (some (.text (toString f.args.length)))
  | "!" => pure (f.lastJob?.map fun n => .text (toString n))
  | "-" => pure (some (.text f.optionLetters))
  | "@" => pure (some (allArguments f p name quoted))
  | "*" => pure (some (allArguments f p name quoted))
  | _ =>
    if name.toList.all Char.isDigit then
      match (name.toNat?).getD 0 with
      | 0 => pure (some (.text f.zero))
      | n + 1 => pure ((f.args[n]?).map .text)
    else pure ((f.value? name).map .text)

def textOf (ps : List Piece) : String :=
  Field.text (Piece.marked ps)

/-- A parameter that is not set is refused where it is asked for. -/
def requireSet (name : String) : Act Unit := do
  if (← frame).has "nounset" then fault (name ++ ": parameter not set")

/-- Without its last line feeds. -/
def withoutLineEnds (s : String) : String :=
  String.ofList (s.toList.reverse.dropWhile (· = '\n')).reverse

/-- The variables as an expression sees them. -/
def store (f : Frame) : Arithmetic.Store where
  settings := f.vars.filterMap fun v => v.2.value?.map fun value => (v.1, value)
  fixed := (f.vars.filter (·.2.fixed)).map (·.1)

/-- The value of an expression. What it sets is set. -/
def calculate (text : String) : Act String := do
  let before := store (← frame)
  match Arithmetic.evaluate text before with
  | .ok (n, after) => do
    let news := after.settings.take (after.settings.length - before.settings.length)
    news.reverse.forM fun s => assign s.1 s.2
    pure (toString n)
  | .error (.mistake m) =>
    fault ("arithmetic expression: " ++ m.message ++ ": \"" ++ text ++ "\"")
  | .error (.notNumber s) => fault ("Illegal number: " ++ s)
  | .error (.readOnly name) => fault (name ++ ": is read only")
  | .error .overflow => do
    discard (ask (System.kill (← ask System.ownId) 8))
    throw .gone

/-- Pieces of the value of a parameter. -/
def shown (name : String) (quoted : Bool) (v : Value) : Act (List Piece) := do
  let own := v.pieces quoted
  pure (if quoted && name = "@" && !(← frame).args.isEmpty then own ++ [.wall] else own)

mutual

/-- Pieces of a word. `first` tells that nothing of the word has come before. -/
def parts (run : Command → Act String) (p : Purpose) :
    Nat → (first : Bool) → List Part → Act (List Piece)
  | 0, _, _ => pure []
  | _, _, [] => pure []
  | fuel + 1, first, w => do
    match w with
    | .mark :: .parameter "@" .whole true :: .mark :: rest => do
      let own ← shown "@" true (allArguments (← frame) p "@" true)
      return own ++ (← parts run p fuel false rest)
    | a :: rest => do
      let own ← part run p fuel first rest.isEmpty a
      return own ++ (← parts run p fuel false rest)
    | [] => pure []

def part (run : Command → Act String) (p : Purpose) :
    Nat → (first last : Bool) → Part → Act (List Piece)
  | 0, _, _, _ => pure []
  | fuel + 1, first, last, a => do
    match a with
    | .text s true => pure (Piece.ofText .fixed s)
    | .text s false => written p.home first last s
    | .mark => pure [.edge]
    | .badParameter => fault "Bad substitution"
    | .parameter name change quoted => parameter run p fuel name change quoted
    | .output c quoted => return Piece.ofValue quoted (withoutLineEnds (← run c))
    | .arithmetic e quoted => do
      let text ← parts run .document fuel false e
      return Piece.ofValue quoted (← calculate (textOf text))

def parameter (run : Command → Act String) (p : Purpose) :
    Nat → String → Change → Bool → Act (List Piece)
  | 0, _, _, _ => pure []
  | fuel + 1, name, change, quoted => do
    let v? ← value? p name quoted
    let v := v?.getD (.text "")
    match change with
    | .whole => do
      if v?.isNone then requireSet name
      shown name quoted v
    | .length => do
      if v?.isNone then requireSet name
      shown name quoted (.text (toString v.extent))
    | .cut atEnd longest pattern => do
      if v?.isNone then requireSet name
      let pattern ← parts run .text fuel true pattern
      shown name quoted (v.cut (Glob.compile (Piece.marked pattern)) atEnd longest)
    | .fallback kind emptyToo w => do
      let missing := v?.isNone || (emptyToo && if kind = .replace then v.extent = 0 else v.isEmpty)
      match kind, missing with
      | .use, true => substitute run p fuel quoted w
      | .replace, false => substitute run p fuel quoted w
      | .replace, true => shown name quoted (.text "")
      | .assign, true => do
        assign name (textOf (← parts run .text fuel true w))
        shown name quoted ((← value? p name quoted).getD (.text ""))
      | .refuse, true => do
        if w.isEmpty then
          fault (name ++ ": parameter not set" ++ if emptyToo then " or null" else "")
        else fault (name ++ ": " ++ textOf (← parts run .text fuel true w))
      | _, _ => shown name quoted v

/-- Pieces of a word in the place of a parameter. -/
def substitute (run : Command → Act String) (p : Purpose) :
    Nat → (quoted : Bool) → Word → Act (List Piece)
  | 0, _, _ => pure []
  | fuel + 1, quoted, w => do
    let own ← parts run ⟨p.fields, .first⟩ fuel true w
    pure (if quoted then own else Piece.loosen false own)

end

/-- More steps than an expansion ever takes. -/
def steps : Nat := 1000000000000

def pieces (run : Command → Act String) (p : Purpose) (w : Word) : Act (List Piece) :=
  parts run p steps true w

/-- The one text that a word comes to. -/
def text (run : Command → Act String) (p : Purpose) (w : Word) : Act String := do
  return textOf (← pieces run p w)

/-- The pattern that a word comes to. -/
def pattern (run : Command → Act String) (w : Word) : Act (List Glob) := do
  return Glob.compile (Piece.marked (← pieces run .text w))

/-- The names in a directory, with those that every directory has. -/
def namesIn (files : FileTree) (dir : String) : List String :=
  match files.list (Bytes.gather dir) with
  | .ok entries => "." :: ".." :: entries.map fun e => Bytes.spread e.1
  | .error _ => []

def isThere (files : FileTree) (path : String) : Bool :=
  (Surroundings.find files (Bytes.gather path)).isOk

/-- The paths that fit a pattern. `before` is the part of the path that has been found, seen from a
directory. -/
def matching (files : FileTree) (cwd before : String) : List (List Marked) → List String
  | [] => []
  | c :: rest =>
    let place := if before.isEmpty then cwd else Path.join cwd before
    let own := Field.text (Glob.unescaped c)
    let gs := Glob.compile c
    let names :=
      if Glob.isPattern c then
        (namesIn files place).filter fun n => Field.shows c n && Glob.accepts gs n.toList
      else [own]
    match rest with
    | [] =>
      if c.isEmpty then if isThere files place then [before] else []
      else if Glob.isPattern c then names.map (before ++ ·)
      else if isThere files (Path.join place own) then [before ++ own] else []
    | rest => (names.map fun n => matching files cwd (before ++ n ++ "/") rest).flatten

/-- The paths that a field is a pattern of, in order, or the field itself. -/
def paths (field : List Marked) : Act (List String) := do
  let f ← frame
  if f.has "noglob" || !Glob.isPattern field then pure [Field.text field]
  else
    let found := matching (← files) f.cwd "" (Field.components field)
    pure (if found.isEmpty then [Field.text field] else found.mergeSort (· ≤ ·))

/-- The fields that a word comes to. -/
def fields (run : Command → Act String) (w : Word) : Act (List String) := do
  match Word.bare? w with
  | some s =>
    if s.toList.any fun c => "~*?[\\".toList.contains c then split
    else pure [s]
  | none => split
where
  split : Act (List String) := do
    let ps ← pieces run .argument w
    let separators := Field.separatorsOf (← Act.value? "IFS")
    let own ← (Field.split separators .start ps).mapM paths
    pure own.flatten

/-- The text of a document. -/
def document (run : Command → Act String) (number : Nat) : Act String := do
  let w := ((← frame).documents[number]?).getD []
  text run .document w

end Culprit.Shell.Expansion
