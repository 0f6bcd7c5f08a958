import Culprit.Shell.Tools.Basic

/-!
What the tool that changes the environment is asked for: which variables go, which are set, and what
is called then.
-/

namespace Culprit.Shell.Tools

structure Change where
  settings : List (String × String)
  command : List String
  /-- The directory that is gone to. -/
  dir? : Option String
  /-- Zeros stand between variables that are shown. -/
  zeros : Bool

/-- Why there is no change. -/
inductive Misuse where
  | unknownOption (c : Char)
  | unknownWord (option : String)
  | noValue (c : Char)
  | badName (name : String)
  | noCommand

namespace Change

/-- Words of one argument, with quotes and backslashes. -/
def words : Nat → List Char → Option (List Char) → (quote? : Option Char) → List String
  | 0, _, _, _ => []
  | _, [], current?, _ => (current?.map fun w => String.ofList w.reverse).toList
  | fuel + 1, c :: r, current?, quote? =>
    let w := current?.getD []
    match quote?, c, r with
    | some '"', '\\', d :: s => words fuel s (some (d :: w)) quote?
    | some q, c, r =>
      if c = q then words fuel r (some w) none else words fuel r (some (c :: w)) quote?
    | none, '\\', d :: s => words fuel s (some (d :: w)) none
    | none, c, r =>
      if c = '\'' || c = '"' then words fuel r (some w) (some c)
      else if c = ' ' || c = '\t' || c = '\n' then
        (current?.map fun w => String.ofList w.reverse).toList ++ words fuel r none none
      else words fuel r (some (c :: w)) none

def put (settings : List (String × String)) (name value : String) : List (String × String) :=
  if (settings.lookup name).isSome then
    settings.map fun s => if s.1 = name then (name, value) else s
  else settings ++ [(name, value)]

/-- Settings in front of a command. -/
def assigned (c : Change) : List String → Except Misuse Change
  | [] => if c.dir?.isSome then .error .noCommand else .ok c
  | a :: rest =>
    match Culprit.Text.splitFirst? '=' a.toList with
    | some (name, value) =>
      assigned { c with settings := put c.settings (String.ofList name) (String.ofList value) } rest
    | none => .ok { c with command := a :: rest }

/-- Options, and then settings and the command. -/
def read : Nat → Change → List String → Except Misuse Change
  | 0, c, _ => .ok c
  | fuel + 1, c, args =>
    match args with
    | [] => assigned c []
    | "-" :: rest => read fuel { c with settings := [] } rest
    | "--" :: rest => assigned c rest
    | "--ignore-environment" :: rest => read fuel { c with settings := [] } rest
    | a :: rest =>
      match a.toList with
      | '-' :: '-' :: cs =>
        match Culprit.Text.splitFirst? '=' cs with
        | some (option, value) =>
          match String.ofList option with
          | "unset" => read fuel c ("-u" :: String.ofList value :: rest)
          | "chdir" => read fuel c ("-C" :: String.ofList value :: rest)
          | "split-string" => read fuel c ("-S" :: String.ofList value :: rest)
          | _ => .error (.unknownWord a)
        | none => .error (.unknownWord a)
      | '-' :: d :: cs =>
        let value := if cs.isEmpty then rest.head? else some (String.ofList cs)
        let after := if cs.isEmpty then rest.drop 1 else rest
        match d, value with
        | 'i', _ =>
          read fuel { c with settings := [] }
            (if cs.isEmpty then rest else String.ofList ('-' :: cs) :: rest)
        | 'v', _ => read fuel c (if cs.isEmpty then rest else String.ofList ('-' :: cs) :: rest)
        | '0', _ =>
          read fuel { c with zeros := true }
            (if cs.isEmpty then rest else String.ofList ('-' :: cs) :: rest)
        | 'u', some name =>
          if name.isEmpty || name.toList.contains '=' then .error (.badName name)
          else read fuel { c with settings := c.settings.filter (·.1 ≠ name) } after
        | 'C', some dir => read fuel { c with dir? := some dir } after
        | 'S', some text => read fuel c (words (text.length + 1) text.toList none none ++ after)
        | d, _ =>
          .error (if d = 'u' || d = 'C' || d = 'S' then .noValue d else .unknownOption d)
      | _ => assigned c args

/-- What is asked for, starting from an environment. -/
def ofArgs (settings : List (String × String)) (args : List String) : Except Misuse Change :=
  let size := (args.map fun a => 2 * a.length + 2).foldr (· + ·) 0
  read (size + 1) ⟨settings, [], none, false⟩ args

end Change

/-- Whether help is offered. -/
def Misuse.isUsage : Misuse → Bool
  | .badName _ => false
  | _ => true

def Misuse.message : Misuse → String
  | .unknownWord option => "unrecognized option " ++ quote option
  | .unknownOption c => "invalid option -- " ++ quote (String.singleton c)
  | .noValue c => "option requires an argument -- " ++ quote (String.singleton c)
  | .badName name => "cannot unset " ++ quote name ++ ": Invalid argument"
  | .noCommand => "must specify command with --chdir (-C)"

end Culprit.Shell.Tools
