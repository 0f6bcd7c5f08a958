import Culprit.Shell.Builtin.Basic
import Culprit.Shell.Start

/-!
Commands of the shell for what a name stands for: aliases, and where a program is found.
-/

namespace Culprit.Shell.Builtin

open Act

def aliasText (name value : String) : String :=
  name ++ "=" ++ quoted value

/-- A name keeps its place when its value changes. -/
def put (name value : String) (aliases : List (String × String)) : List (String × String) :=
  if (aliases.lookup name).isSome then
    aliases.map fun a => if a.1 = name then (name, value) else a
  else aliases ++ [(name, value)]

/-- An equals sign at the start of an argument belongs to a name. -/
def alias_ (args : List String) : Act Nat := do
  if args.isEmpty then do
    let f ← frame
    (f.aliases.mergeSort fun a b => Frame.bucket a.1 ≤ Frame.bucket b.1).forM fun a =>
      sayLine (aliasText a.1 a.2)
    pure 0
  else args.foldlM one 0
where
  one (status : Nat) (a : String) : Act Nat := do
    match definition a with
    | (name, some value) =>
      if name.isEmpty then lookUp status a
      else do
        modify fun f => { f with aliases := put name value f.aliases }
        pure status
    | (_, none) => lookUp status a
  lookUp (status : Nat) (a : String) : Act Nat := do
    match (← frame).aliases.lookup a with
    | some value => do
      sayLine (aliasText a value)
      pure status
    | none => do
      write 2 ("alias: " ++ a ++ " not found\n")
      pure 1

def unalias (args : List String) : Act Nat := do
  let (options, names) ← readOptions "a" args
  if !options.isEmpty then do
    modify fun f => { f with aliases := [] }
    pure 0
  else names.foldlM one 0
where
  one (status : Nat) (name : String) : Act Nat := do
    if ((← frame).aliases.lookup name).isSome then do
      modify fun f => { f with aliases := f.aliases.filter (·.1 ≠ name) }
      pure status
    else do
      write 2 ("unalias: " ++ name ++ " not found\n")
      pure 1

/-- Where programs are looked for, unless the script says it. -/
def usualPath : String :=
  "/usr/local/sbin:/usr/local/bin:/usr/sbin:/usr/bin:/sbin:/bin"

def searchPath : Act String := do
  return (← value? "PATH").getD ""

/-- The path of the file that a name is the name of; it need not be a program. -/
def located? (name path : String) : Act (Option String) := do
  let cwd := (← frame).cwd
  let files ← files
  let written (dir : String) : String := if dir.isEmpty then name else Path.join dir name
  let isFile (dir : String) : Bool :=
    match Surroundings.find files (Bytes.gather (Path.join cwd (written dir))) with
    | .ok (.file ..) => true
    | _ => false
  pure (((Start.directories path).find? isFile).map written)

def hash (args : List String) : Act Nat := do
  let (options, names) ← readOptions "r" args
  if !options.isEmpty then do
    modify fun f => { f with hashed := [] }
    pure 0
  else if names.isEmpty then do
    let path ← searchPath
    (← frame).hashed.forM fun name => do
      match ← located? name path with
      | some p => sayLine p
      | none => pure ()
    pure 0
  else names.foldlM one 0
where
  one (status : Nat) (name : String) : Act Nat := do
    match ← located? name (← searchPath) with
    | some _ => do
      modify fun f => { f with hashed := name :: f.hashed.filter (· ≠ name) }
      pure status
    | none => do
      complain (name ++ ": not found")
      pure 1

/-- What a command name stands for. -/
inductive Meaning where
  | keyword
  | alias (value : String)
  | program (path : String) (tracked : Bool)
  | function
  | builtin
  | unknown
deriving DecidableEq, Repr

/-- `isBuiltin` tells the names of the shell's own commands. -/
def meaning (isBuiltin : String → Bool) (path? : Option String) (name : String) : Act Meaning := do
  let f ← frame
  if Grammar.reservedWords.contains name then pure .keyword
  else match f.aliases.lookup name with
    | some value => pure (.alias value)
    | none =>
      if name.toList.contains '/' then
        match ← node? name with
        | .ok _ => pure (.program name false)
        | .error _ => pure .unknown
      else if path?.isNone && (f.functions.lookup name).isSome then pure .function
      else if isBuiltin name then pure .builtin
      else do
        let path ← match path? with
          | some path => pure path
          | none => searchPath
        match ← located? name path with
        | some p => do
          if path?.isNone then
            modify fun f => { f with hashed := name :: f.hashed.filter (· ≠ name) }
          pure (.program p (path?.isNone && f.hashed.contains name))
        | none => pure .unknown

/-- Tells in words what a name stands for. -/
def describe (isBuiltin : String → Bool) (path? : Option String) (name : String) : Act Nat := do
  match ← meaning isBuiltin path? name with
  | .keyword => sayLine (name ++ " is a shell keyword") *> pure 0
  | .alias value => sayLine (name ++ " is an alias for " ++ value) *> pure 0
  | .program p true => sayLine (name ++ " is a tracked alias for " ++ p) *> pure 0
  | .program p false => sayLine (name ++ " is " ++ p) *> pure 0
  | .function => sayLine (name ++ " is a shell function") *> pure 0
  | .builtin =>
    let kind := if Grammar.specialCommands.contains name then "special shell builtin"
      else "shell builtin"
    sayLine (name ++ " is a " ++ kind) *> pure 0
  | .unknown => sayLine (name ++ ": not found") *> pure 127

/-- Tells what a name stands for in a way that can be called. -/
def identify (isBuiltin : String → Bool) (path? : Option String) (name : String) : Act Nat := do
  match ← meaning isBuiltin path? name with
  | .alias value => sayLine ("alias " ++ aliasText name value) *> pure 0
  | .program p _ => sayLine p *> pure 0
  | .unknown => pure 127
  | _ => sayLine name *> pure 0

def type_ (isBuiltin : String → Bool) (args : List String) : Act Nat := do
  args.foldlM (fun status name => do return status ||| (← describe isBuiltin none name)) 0

/-- Without an option to look a name up, there is nothing to do. -/
def command (isBuiltin : String → Bool) (args : List String) : Act Nat := do
  let (options, names) ← readOptions "pvV" args
  let path? := if options.any (·.1 = 'p') then some usualPath else none
  match names with
  | [] => pure 0
  | name :: _ =>
    if options.any (·.1 = 'V') then describe isBuiltin path? name
    else if options.any (·.1 = 'v') then identify isBuiltin path? name
    else pure 0

end Culprit.Shell.Builtin
