import Culprit.Shell.Act
import Culprit.Shell.Arithmetic

/-!
Conditions of `test`. A word is an operator only where what follows it can be its operands, so the
number of arguments matters. Conditions end where the last argument that they used stands; what
comes after it is too much.
-/

namespace Culprit.Shell.Test

inductive Operator where
  | unary
  | binary
  | negation
  | conjunction
  | disjunction
  | opening
  | closing
deriving DecidableEq, Repr

def unaryTests : List String :=
  ["-r", "-w", "-x", "-e", "-f", "-d", "-c", "-b", "-p", "-u", "-g", "-k", "-s", "-t", "-z", "-n",
    "-h", "-O", "-G", "-L", "-S"]

def binaryTests : List String :=
  ["=", "!=", "<", ">", "-eq", "-ne", "-ge", "-gt", "-le", "-lt", "-nt", "-ot", "-ef"]

def operator? (s : String) : Option Operator :=
  if unaryTests.contains s then some .unary
  else if binaryTests.contains s then some .binary
  else match s with
    | "!" => some .negation
    | "-a" => some .conjunction
    | "-o" => some .disjunction
    | "(" => some .opening
    | ")" => some .closing
    | _ => none

inductive Role where
  | finish
  | operand
  | operator (o : Operator)
deriving DecidableEq, Repr

/-- Before these arguments there is no place for an operator with one operand. -/
def standsAlone : List String → Bool
  | [] => true
  | [_] => false
  | a :: _ => operator? a = some .binary

/-- What the first of some arguments is taken for. -/
def role : List String → Role
  | [] => .finish
  | a :: rest =>
    match operator? a with
    | some .unary => if standsAlone rest then .operand else .operator .unary
    | some .opening => if rest.isEmpty then .operand else .operator .opening
    | some o => .operator o
    | none => .operand

def sameFile (a b : String) : Act Bool := do
  let t ← Act.files
  let a ← Act.path a
  let b ← Act.path b
  match t.find a, t.find b with
  | .ok (r, _), .ok (s, _) => pure (r = s)
  | _, _ => pure (a = b && (Surroundings.find t a).isOk)

def ofNode (test : String) : Node → Bool
  | .directory => ["-e", "-d", "-x", "-r", "-w", "-s", "-O", "-G"].contains test
  | .file bytes executable =>
    ["-e", "-f", "-r", "-w", "-O", "-G"].contains test || (test = "-x" && executable) ||
      (test = "-s" && bytes.size ≠ 0)

/-- What can be known of a file by its path. -/
def file (test path : String) : Act Bool := do
  let p ← Act.path path
  if Surroundings.devices.contains p then
    pure (["-c", "-e", "-r", "-w", "-O", "-G"].contains test)
  else match ← Act.node? path with
    | .ok n => pure (ofNode test n)
    | .error _ => pure false

def number (s : String) : Act Int := do
  match Arithmetic.ofText? (some 10) s with
  | some n => pure n
  | none => Act.fault ("Illegal number: " ++ s)

def compare (test : String) (a b : Int) : Bool :=
  match test with
  | "-eq" => a = b
  | "-ne" => a ≠ b
  | "-lt" => a < b
  | "-le" => a ≤ b
  | "-gt" => b < a
  | _ => b ≤ a

def binary (a test b : String) : Act Bool := do
  match test with
  | "=" => pure (a = b)
  | "!=" => pure (a ≠ b)
  | "<" => pure (a < b)
  | ">" => pure (b < a)
  | "-nt" => do Act.ask (System.isNewer (← Act.path a) (← Act.path b))
  | "-ot" => do Act.ask (System.isNewer (← Act.path b) (← Act.path a))
  | "-ef" => sameFile a b
  | test => do
    let x ← number a
    return compare test x (← number b)

def unary (test operand : String) : Act Bool := do
  match test with
  | "-z" => pure operand.isEmpty
  | "-n" => pure (!operand.isEmpty)
  | "-t" => do
    discard (number operand)
    pure false
  | test => file test operand

/-- Whether a condition holds, and the arguments from the last one on that it used. -/
abbrev Answer := Bool × List String

mutual

def primary : Nat → Role → List String → Act Answer
  | 0, _, args => pure (false, args)
  | fuel + 1, r, args => do
    match r, args with
    | .finish, args => pure (false, args)
    | .operator .opening, args => do
      let inner := args.drop 1
      match role inner with
      | .operator .closing => pure (false, inner)
      | r => do
        let (v, rest) ← disjunction fuel r inner
        let rest := rest.drop 1
        if role rest = .operator .closing then pure (v, rest)
        else Act.fault "closing paren expected"
    | .operator .unary, test :: rest =>
      match rest with
      | [] => Act.fault (test ++ ": argument expected")
      | operand :: _ => return (← unary test operand, rest)
    | _, a :: test :: rest =>
      if role (test :: rest) = .operator .binary then
        match rest with
        | [] => Act.fault (test ++ ": argument expected")
        | b :: _ => return (← binary a test b, rest)
      else pure (!a.isEmpty, args)
    | _, args => pure (!(args.headD "").isEmpty, args)

def negation : Nat → Role → List String → Act Answer
  | 0, _, args => pure (false, args)
  | fuel + 1, r, args => do
    if r = .operator .negation then do
      let rest := args.drop 1
      let next := role rest
      let (v, rest) ← negation fuel next (if next = .finish then args else rest)
      pure (!v, rest)
    else primary fuel r args

def conjunction : Nat → Role → List String → Act Answer
  | 0, _, args => pure (false, args)
  | fuel + 1, r, args => do
    let (v, rest) ← negation fuel r args
    if role (rest.drop 1) = .operator .conjunction then do
      let next := rest.drop 2
      let (w, rest) ← conjunction fuel (role next) next
      pure (v && w, rest)
    else pure (v, rest)

def disjunction : Nat → Role → List String → Act Answer
  | 0, _, args => pure (false, args)
  | fuel + 1, r, args => do
    let (v, rest) ← conjunction fuel r args
    if role (rest.drop 1) = .operator .disjunction then do
      let next := rest.drop 2
      let (w, rest) ← disjunction fuel (role next) next
      pure (v || w, rest)
    else pure (v, rest)

end

/-- All arguments are one condition that starts with the given role. -/
def whole (r : Role) (args : List String) : Act Bool := do
  let (v, rest) ← disjunction (8 * (args.length + 1)) r args
  match rest with
  | a :: _ :: _ =>
    Act.fault (if a.isEmpty then "unexpected operator" else a ++ ": unexpected operator")
  | _ => pure v

/-- Three and four arguments have rules of their own. -/
def holdsFrom : Nat → List String → Act Bool
  | 0, args => whole (role args) args
  | fuel + 1, args => do
    let inner := (args.drop 1).dropLast
    let bracketed := args.head? = some "(" && args.getLast? = some ")"
    match args with
    | [] => pure false
    | [_, op, _] =>
      if operator? op = some .binary then whole .operand args
      else if bracketed then holdsFrom fuel inner
      else if args.head? = some "!" then return !(← holdsFrom fuel (args.drop 1))
      else whole (role args) args
    | [_, _, _, _] =>
      if bracketed then holdsFrom fuel inner
      else if args.head? = some "!" then return !(← holdsFrom fuel (args.drop 1))
      else whole (role args) args
    | args => whole (role args) args

/-- No arguments are false. -/
def holds (args : List String) : Act Bool :=
  holdsFrom (args.length + 1) args

end Culprit.Shell.Test
