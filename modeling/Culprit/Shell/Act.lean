import Culprit.Shell.Frame
import Culprit.Shell.Routine
import Culprit.Shell.Signals

/-!
Actions of a process of the shell: what it asks of the system, what it changes of its own, and how
it stops going on with the next command.
-/

namespace Culprit.Shell

/-- What is left out when a command asks for it. -/
inductive Skip where
  /-- The rest of a function, with a status that may have been given. -/
  | function (given : Bool)
  | loops (count : Nat)
  | round (count : Nat)
deriving DecidableEq, Repr

/-- Why a script does not go on with the next command. -/
inductive Flow where
  /-- The script ends, once what is to be done at its end has been. If it was asked to, the status
  that was set aside counts. -/
  | leave (asked : Bool)
  /-- The process ends with its status at once. -/
  | gone
  /-- A mistake that has been complained about. -/
  | fault
  | skip (s : Skip)
deriving DecidableEq, Repr

abbrev Act (α : Type) := ExceptT Flow (StateT Frame Routine) α

namespace Act

def ask {α : Type} (r : Request α) : Act α :=
  ExceptT.lift (StateT.lift (.ask r .done))

/-- A process that begins with a copy of what this one knows. -/
def fork (child : Act Unit) : Act Nat := do
  let f ← get
  ExceptT.lift (StateT.lift (.fork (discard (child.run.run f)) .done))

def frame : Act Frame := do
  return (← get)

def setStatus (n : Nat) : Act Unit :=
  modify fun f => { f with status := n }

/-- The end of an action as a value. -/
def result {α : Type} (a : Act α) : Act (Except Flow α) :=
  ExceptT.lift a.run

/-- Goes on as the action did. -/
def resume {α : Type} (r : Except Flow α) : Act α :=
  ExceptT.mk (pure r)

/-- Does the second whatever the first comes to. -/
def ensuring {α : Type} (a : Act α) (after : Act Unit) : Act α := do
  let r ← result a
  after
  resume r

/-- More rounds than a loop over input or output ever takes. -/
def endless : Nat := 1000000000000

def writeFrom : Nat → Nat → ByteArray → Act (Option SystemFault)
  | 0, _, _ => pure none
  | fuel + 1, descriptor, bytes => do
    if bytes.isEmpty then pure none
    else match ← ask (System.write descriptor bytes) with
      | .error e => pure (some e)
      | .ok n => writeFrom fuel descriptor (bytes.extract n bytes.size)

/-- Writes all bytes, as room comes for them. -/
def writeBytes (descriptor : Nat) (bytes : ByteArray) : Act (Option SystemFault) :=
  writeFrom endless descriptor bytes

def write (descriptor : Nat) (text : String) : Act Unit := do
  discard (writeBytes descriptor (Bytes.toArray text))

/-- Bytes that are read at once. -/
def block : Nat := 65536

def readFrom : Nat → Nat → ByteArray → Act ByteArray
  | 0, _, bytes => pure bytes
  | fuel + 1, descriptor, bytes => do
    match ← ask (System.read descriptor block) with
    | .error _ => pure bytes
    | .ok part => if part.isEmpty then pure bytes else readFrom fuel descriptor (bytes ++ part)

/-- Everything that is left to read. -/
def readAll (descriptor : Nat) : Act ByteArray :=
  readFrom endless descriptor .empty

def readLineFrom : Nat → Nat → ByteArray → Act (ByteArray × Bool)
  | 0, _, bytes => pure (bytes, false)
  | fuel + 1, descriptor, bytes => do
    match ← ask (System.readLine descriptor block) with
    | .error _ => pure (bytes, false)
    | .ok part =>
      if part.isEmpty then pure (bytes, false)
      else if part[part.size - 1]?.getD 0 = 10 then
        pure (bytes ++ part.extract 0 (part.size - 1), true)
      else readLineFrom fuel descriptor (bytes ++ part)

/-- The next line without its line feed, and whether it has one. -/
def readLine (descriptor : Nat) : Act (ByteArray × Bool) :=
  readLineFrom endless descriptor .empty

def onMachine {α : Type} (a : StateM Machine α) : Act α :=
  ask (System.onMachine a)

def files : Act FileTree :=
  onMachine fun m => (m.files, m)

/-- A path as the machine knows it, seen from where the process stands. -/
def path (p : String) : Act String := do
  let f ← frame
  pure (if p.isEmpty then "" else Bytes.gather (Path.join f.cwd p))

/-- A change of the files that can be refused. -/
def change (p : String) (f : String → FileTree → Except SystemFault FileTree) :
    Act (Except SystemFault Unit) := do
  let p ← path p
  let r ← ask (System.onFile p (Machine.change fun t => f p (Surroundings.withParent t p)))
  pure (r.mapError (·.fault))

/-- What a path leads to. -/
def node? (p : String) : Act (Except SystemFault Node) := do
  let p ← path p
  return Surroundings.find (← files) p

/-- Opens a file; the number it is open under is not yet a descriptor. -/
def open_ (access : System.Access) (p : String) : Act (Except SystemFault Nat) := do
  ask (System.open_ access (← path p))

/-- What a command of the shell prints comes out when it is done. -/
def say (text : String) : Act Unit :=
  modify fun f => { f with output := f.output ++ text }

def sayLine (text : String) : Act Unit :=
  say (text ++ "\n")

/-- Prints what there is to print. -/
def flush : Act (Option SystemFault) := do
  let f ← frame
  set { f with output := "" }
  if f.output.isEmpty then pure none else writeBytes 1 (Bytes.toArray f.output)

/-- A complaint, with the name of the script, the line and the command of the shell. -/
def complain (text : String) : Act Unit := do
  let f ← frame
  let speaker := match f.speaker? with
    | some name => name ++ ": "
    | none => ""
  write 2 (f.zero ++ ": " ++ toString f.line ++ ": " ++ speaker ++ text ++ "\n")

/-- A complaint about something that ends a command of the shell, or the script. What has been
printed comes out after it. -/
def fault {α : Type} (text : String) : Act α := do
  complain text
  discard flush
  setStatus 2
  throw .fault

/-- The wording of a refusal without its number. -/
def faultText (f : SystemFault) : String :=
  match f with
  | .missing => "No such file or directory"
  | f => String.ofList ((f.message.toList.reverse.dropWhile (· ≠ '(')).drop 2).reverse

def value? (name : String) : Act (Option String) := do
  return (← frame).value? name

def badName {α : Type} (name : String) : Act α :=
  fault (name ++ ": bad variable name")

def refuseFixed (name : String) : Act Unit := do
  if (← frame).isFixed name then fault (name ++ ": is read only")

/-- Gives a variable its value, unless its name is none or its value is fixed. One variable has to
be a number. -/
def assign (name value : String) : Act Unit := do
  if !Grammar.isName name then badName name
  else do
    refuseFixed name
    if name = "OPTIND" && !Signals.isNumber value then fault ("Illegal number: " ++ value)
    modify (Frame.assign name value)

/-- Does an action under the name of a command of the shell. -/
def speaking {α : Type} (name : String) (a : Act α) : Act α := do
  let before := (← frame).speaker?
  modify fun f => { f with speaker? := some name }
  ensuring a (modify fun f => { f with speaker? := before })

end Act

end Culprit.Shell
