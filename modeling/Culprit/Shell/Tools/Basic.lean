import Culprit.Shell.Act

/-!
What the tools of the machine have in common. A tool reads its arguments and the input, writes to
the output, and gives a status. Complaints go to the error output under the tool's name.
-/

namespace Culprit.Shell.Tools

open Act

def complainOf (tool text : String) : Act Unit :=
  write 2 (tool ++ ": " ++ text ++ "\n")

/-- A complaint about how the tool was called, with its status. -/
def misuse (tool text : String) (status : Nat) : Act Nat := do
  complainOf tool text
  write 2 ("Try '" ++ tool ++ " --help' for more information.\n")
  pure status

def quote (s : String) : String :=
  "'" ++ s ++ "'"

/-- Options before and between the other arguments, up to two dashes. An option with a value has it
in the same argument or in the next. -/
structure Options where
  flags : List Char
  values : List (Char × String)
  rest : List String
  /-- What is no option of the tool. -/
  unknown? : Option String

namespace Options

def none : Options := ⟨[], [], [], .none⟩

/-- The letters of one argument; the last of them may be one that takes a value. -/
def letters (plain valued : String) : List Char → Options → List Char × Option Char × Options
  | [], o => ([], .none, o)
  | c :: r, o =>
    if valued.toList.contains c then (r, some c, o)
    else if plain.toList.contains c then letters plain valued r { o with flags := o.flags ++ [c] }
    else ([], .none, { o with unknown? := o.unknown?.or (some (String.singleton c)) })

def read (plain valued : String) : List String → Options
  | [] => none
  | "--" :: rest => { none with rest := rest }
  | a :: rest =>
    match a.toList with
    | '-' :: c :: cs =>
      match letters plain valued (c :: cs) none with
      | (own, some d, o) =>
        match own, rest with
        | [], value :: rest =>
          let p := read plain valued rest
          { p with flags := o.flags ++ p.flags, values := (d, value) :: p.values
                   unknown? := o.unknown?.or p.unknown? }
        | own, rest =>
          let p := read plain valued rest
          { p with flags := o.flags ++ p.flags, values := (d, String.ofList own) :: p.values
                   unknown? := o.unknown?.or p.unknown? }
      | (_, .none, o) =>
        let p := read plain valued rest
        { p with flags := o.flags ++ p.flags, unknown? := o.unknown?.or p.unknown? }
    | _ =>
      let p := read plain valued rest
      { p with rest := a :: p.rest }

def has (o : Options) (c : Char) : Bool :=
  o.flags.contains c

def value? (o : Options) (c : Char) : Option String :=
  o.values.reverse.lookup c

end Options

/-- Goes on only when all options are known. -/
def withOptions (tool plain valued : String) (args : List String)
    (go : Options → Act Nat) : Act Nat :=
  let o := Options.read plain valued args
  match o.unknown? with
  | some c => misuse tool ("invalid option -- " ++ quote c) 1
  | none => go o

/-- Goes through files; the input counts as one when there are none, and so does a dash. What is
done with each is given the descriptor to read from. `calls` is how complaints call a file. -/
def eachFile (tool : String) (calls : String → String) (names : List String)
    (f : String → Nat → Act Unit) : Act Nat := do
  let one (status : Nat) (name : String) : Act Nat := do
    if name = "-" then do
      f name 0
      pure status
    else match ← open_ .input name with
      | .error e => do
        complainOf tool (calls name ++ ": " ++ faultText e)
        pure 1
      | .ok id => do
        let descriptor := 9
        ask (System.place descriptor id)
        f name descriptor
        ask (System.close descriptor)
        pure status
  (if names.isEmpty then ["-"] else names).foldlM one 0

/-- Does a change for each of some paths, and complains where it is refused. -/
def eachPath (tool context : String) (names : List String)
    (f : String → FileTree → Except SystemFault FileTree) : Act Nat := do
  let one (status : Nat) (name : String) : Act Nat := do
    match ← change name f with
    | .ok () => pure status
    | .error e => do
      complainOf tool (context ++ quote name ++ ": " ++ faultText e)
      pure 1
  names.foldlM one 0

/-- A count of lines or bytes. -/
def count? (s : String) : Option Nat :=
  if s.isEmpty then none else s.toNat?

/-- Each line with its line feed. -/
def linesWithEnds (s : String) : List String :=
  let rec go : List Char → List Char → List String
    | [], line => if line.isEmpty then [] else [String.ofList line.reverse]
    | c :: r, line =>
      if c = '\n' then String.ofList (c :: line).reverse :: go r [] else go r (c :: line)
  go s.toList []

def withoutEnd (line : String) : String :=
  match line.toList.reverse with
  | '\n' :: r => String.ofList r.reverse
  | _ => line

end Culprit.Shell.Tools
