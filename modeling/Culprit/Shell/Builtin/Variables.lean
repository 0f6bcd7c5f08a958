import Culprit.Shell.Builtin.Basic
import Culprit.Shell.Field

/-!
Commands of the shell for its variables, its options and its positional parameters.
-/

namespace Culprit.Shell.Builtin

open Act

/-- Every variable of a kind by name, behind a word that would make it again. -/
def show_ (word : String) (isShown : Variable → Bool) : Act Unit := do
  let all := (← frame).vars.filter fun v => isShown v.2
  let all := all.mergeSort fun a b => a.1 ≤ b.1
  let start := if word.isEmpty then "" else word ++ " "
  all.forM fun v => sayLine (start ++ v.1 ++ match v.2.value? with
    | some value => "=" ++ quoted value
    | none => "")

/-- Sets variables and marks them. Without any, those that have the mark are shown. -/
def declare (word : String) (mark : Variable → Variable) (isMarked : Variable → Bool)
    (args : List String) : Act Nat := do
  let (options, args) ← readOptions "p" args
  if !options.isEmpty || args.isEmpty then do
    show_ word isMarked
    pure 0
  else do
    args.forM fun a => do
      let (name, value?) := definition a
      match value? with
      | some value => assign name value
      | none => if !Grammar.isName name then badName name
      modify fun f => f.putVariable name (mark ((f.marking? name).getD ⟨none, false, false⟩))
    pure 0

def export_ : List String → Act Nat :=
  declare "export" (fun v => { v with exported := true }) (·.exported)

def readonly : List String → Act Nat :=
  declare "readonly" (fun v => { v with fixed := true }) (·.fixed)

/-- Variables get back what they had before when the function ends. Until it is changed, a local
variable has the value from outside. A dash stands for the options. -/
def local_ (args : List String) : Act Nat := do
  if (← frame).locals.isEmpty then fault "not in a function"
  else do
    args.forM fun a => do
      if a = "-" then
        modify fun f => f.save (.options f.options)
      else do
        let (name, value?) := definition a
        let before? := (← frame).marking? name
        match value? with
        | some value => assign name value
        | none => if !Grammar.isName name then badName name
        modify fun f =>
          let f := f.save (.variable name before?)
          if (f.marking? name).isSome then f else f.putVariable name ⟨none, false, false⟩
    pure 0

def unset (args : List String) : Act Nat := do
  let (options, names) ← readOptions "vf" args
  let functions := (options.getLast?.map (·.1)) = some 'f'
  names.forM fun name => do
    if functions then
      modify fun f => { f with functions := f.functions.filter (·.1 ≠ name) }
    else if !Grammar.isName name then badName name
    else do
      refuseFixed name
      if name = "OPTIND" then badNumber ""
      modify fun f => (f.dropVariable name).heed name ""
  pure 0

/-- All options with whether they are in force. -/
def showOptions (asCommands : Bool) : Act Unit := do
  let f ← frame
  if !asCommands then sayLine "Current option settings"
  Frame.optionNames.forM fun o =>
    let on := f.has o.1
    if asCommands then sayLine ("set " ++ (if on then "-o " else "+o ") ++ o.1)
    else
      let blanks := String.ofList (List.replicate (16 - o.1.length) ' ')
      sayLine (o.1 ++ blanks ++ (if on then "on" else "off"))

/-- One way of editing rules out the other. -/
def toggle (on : Bool) (name : String) : Act Unit :=
  modify fun f =>
    let f := f.setOption name on
    if on && name = "vi" then f.setOption "emacs" false
    else if on && name = "emacs" then f.setOption "vi" false
    else f

def toggleLetter (on : Bool) (c : Char) : Act Unit :=
  match Frame.optionNames.find? fun o => o.2 = some c with
  | some o => toggle on o.1
  | none => fault ("Illegal option -" ++ String.singleton c)

def toggleName (on : Bool) (name : String) : Act Unit :=
  match Frame.optionNames.lookup name with
  | some _ => modify (Frame.setOption name on)
  | none => fault ("Illegal option -o " ++ name)

/-- The letters behind a dash or a plus sign; some of them take the next argument. -/
def toggleLetters (on : Bool) : List Char → List String → Act (List String)
  | [], rest => pure rest
  | 'o' :: cs, name :: rest => do
    toggleName on name
    toggleLetters on cs rest
  | 'o' :: cs, [] => do
    showOptions (!on)
    toggleLetters on cs []
  | c :: cs, rest => do
    toggleLetter on c
    toggleLetters on cs rest

/-- Options at the start of some arguments, and what comes after them. -/
def toggleOptions : Nat → List String → Act (Option (List String))
  | 0, args => pure (some args)
  | _, [] => pure none
  | fuel + 1, a :: rest =>
    match a.toList with
    | ['-'] => do
      toggle false "xtrace"
      toggle false "verbose"
      pure (if rest.isEmpty then none else some rest)
    | ['-', '-'] => pure (some rest)
    | '-' :: cs => do toggleOptions fuel (← toggleLetters true cs rest)
    | '+' :: cs => do toggleOptions fuel (← toggleLetters false cs rest)
    | _ => pure (some (a :: rest))

/-- Control of jobs needs a terminal, which there is not. -/
def dropMonitor : Act Unit := do
  if (← frame).has "monitor" then do
    complain "can't access tty; job control turned off"
    toggle false "monitor"

def set_ (args : List String) : Act Nat := do
  if args.isEmpty then show_ "" (·.value?.isSome)
  else do
    let rest? ← toggleOptions (args.length + 1) args
    dropMonitor
    match rest? with
    | some rest => modify fun f => { f with args := rest, optionPlace := .start }
    | none => pure ()
  pure 0

def shift (args : List String) : Act Nat := do
  let n ← match args with
    | [] => pure 1
    | a :: _ => number a
  if (← frame).args.length < n then fault "can't shift that many"
  else do
    modify fun f => { f with args := f.args.drop n, optionPlace := .start }
    pure 0

/-- What one step through the options of some arguments finds. -/
structure OptionStep where
  letter : Char
  argument? : Option String
  place : OptionPlace
  done : Bool
  complaint? : Option String

/-- The next option; it is looked for among known letters, where a colon follows a letter that takes
a value. With a colon in front, complaints are left to the script. -/
def nextOption (known : List Char) (args : List String) (place : OptionPlace) : OptionStep :=
  let own := (args[place.index - 2]?.getD "").toList
  let rest := if 1 < place.index && 0 < place.taken then own.drop place.taken else []
  let quiet := known.head? = some ':'
  let finished (index : Nat) : OptionStep := ⟨'?', none, ⟨index, 0⟩, true, none⟩
  let take (index taken : Nat) (c : Char) (after : List Char) : OptionStep :=
    let place : OptionPlace := ⟨index, taken + 1⟩
    match (if c = ':' then [] else known.dropWhile (· ≠ c)) with
    | [] =>
      ⟨'?', if quiet then some (String.singleton c) else none, place, false,
        if quiet then none else some ("Illegal option -" ++ String.singleton c)⟩
    | _ :: ':' :: _ =>
      if !after.isEmpty then ⟨c, some (String.ofList after), ⟨index, 0⟩, false, none⟩
      else match args[index - 1]? with
        | some value => ⟨c, some value, ⟨index + 1, 0⟩, false, none⟩
        | none =>
          if quiet then ⟨':', some (String.singleton c), place, false, none⟩
          else ⟨'?', none, place, false,
            some ("No arg for -" ++ String.singleton c ++ " option")⟩
    | _ => ⟨c, some "", place, false, none⟩
  match rest with
  | c :: after => take place.index place.taken c after
  | [] =>
    match (args[place.index - 1]?.getD "").toList with
    | ['-', '-'] => finished (place.index + 1)
    | '-' :: c :: after => take (place.index + 1) 1 c after
    | _ => finished place.index

def getopts (args : List String) : Act Nat := do
  match args with
  | known :: name :: own => do
    let f ← frame
    let args := if own.isEmpty then f.args else own
    let place := if args.length + 1 < f.optionPlace.index then .start else f.optionPlace
    let s := nextOption known.toList args place
    match s.complaint? with
    | some text => write 2 (text ++ "\n")
    | none => pure ()
    match s.argument? with
    | some value => assign "OPTARG" value
    | none => if !s.done then do
      refuseFixed "OPTARG"
      modify (Frame.dropVariable "OPTARG")
    assign "OPTIND" (toString s.place.index)
    assign name (String.singleton s.letter)
    modify fun f => { f with optionPlace := s.place }
    pure (if s.done then 1 else 0)
  | _ => fault "Usage: getopts optstring var [arg...]"

/-- The characters of an input line; behind a backslash they do not separate. -/
def unescaped : List Char → List Field.Input
  | '\\' :: c :: r => (c, false) :: unescaped r
  | ['\\'] => []
  | c :: r => (c, true) :: unescaped r
  | [] => []

/-- Backslashes at the end of a line that quote its end. -/
def endsOpen (cs : List Char) : Bool :=
  (cs.reverse.takeWhile (· = '\\')).length % 2 = 1

/-- A line, with those that a backslash at its end joins to it. -/
def logicalLine (raw : Bool) : Nat → List Char → Act (List Char × Bool)
  | 0, cs => pure (cs, false)
  | fuel + 1, before => do
    let (bytes, ended) ← readLine 0
    let cs := before ++ (Bytes.ofArray bytes).toList.filter (· ≠ '\x00')
    if !raw && ended && endsOpen cs then logicalLine raw fuel cs.dropLast else pure (cs, ended)

def read (args : List String) : Act Nat := do
  let (options, names) ← readOptions "p:r" args
  let raw := options.any (·.1 = 'r')
  if names.isEmpty then fault "arg count"
  else do
    let (cs, ended) ← logicalLine raw endless []
    let marked := if raw then cs.map fun c => (c, true) else unescaped cs
    let separators := Field.separatorsOf (← value? "IFS")
    let values := Field.divide separators names.length marked
    (names.zip (values ++ List.replicate names.length "")).forM fun p => assign p.1 p.2
    pure (if ended then 0 else 1)

end Culprit.Shell.Builtin
