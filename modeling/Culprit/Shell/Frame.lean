import Culprit.Shell.Grammar
import Culprit.Shell.Pattern
import Culprit.Shell.System

/-!
What one shell knows by itself: its variables and functions, its options and traps, its jobs, and
where it stands. A process that is started gets a copy, and what it changes stays its own.
-/

namespace Culprit.Shell

structure Variable where
  /-- A variable that was only marked has no value. -/
  value? : Option String
  exported : Bool
  fixed : Bool
deriving DecidableEq, Repr

/-- What was there before something local took its place. -/
inductive Saved where
  | variable (name : String) (before? : Option Variable)
  | options (before : List String)

/-- A command in the background, with its processes and how those that ended did. -/
structure Job where
  number : Nat
  pids : List Nat
  endings : List (Nat × Ending)
  /-- Its status has been asked for. -/
  waited : Bool

namespace Job

/-- Of several processes the last one counts. -/
def last (j : Job) : Nat :=
  j.pids.getLast?.getD 0

def running (j : Job) : List Nat :=
  j.pids.filter fun pid => (j.endings.lookup pid).isNone

def isDone (j : Job) : Bool :=
  j.running.isEmpty

/-- How the last of its processes ended. -/
def ending (j : Job) : Ending :=
  (j.endings.lookup j.last).getD (.code 0)

def note (pid : Nat) (e : Ending) (j : Job) : Job :=
  if j.pids.contains pid then { j with endings := (pid, e) :: j.endings } else j

end Job

/-- The place of `getopts` among the arguments: the number of the next one, and how many characters
of the one before it have been taken; none of them when it is done. -/
structure OptionPlace where
  index : Nat
  taken : Nat

namespace OptionPlace

def start : OptionPlace := ⟨1, 0⟩

end OptionPlace

structure Frame where
  /-- The name of the script. -/
  zero : String
  /-- The line of the command that is carried out. -/
  line : Nat
  /-- The command of the shell that complaints are of. -/
  speaker? : Option String
  args : List String
  /-- In the order in which they came. -/
  vars : List (String × Variable)
  functions : List (String × Command)
  aliases : List (String × String)
  /-- Names of programs that have been looked for. -/
  hashed : List String
  /-- What is done on a signal; zero stands for the end of the script. -/
  traps : List (Nat × String)
  /-- Letters and names of the options in force. -/
  options : List String
  cwd : String
  mask : Nat
  status : Nat
  /-- The status of the last script inside a word. -/
  backStatus : Nat
  /-- The process that the script began as. -/
  pid : Nat
  lastJob? : Option Nat
  jobs : List Job
  /-- How many loops are around. -/
  loops : Nat
  /-- What is local, the innermost first. -/
  locals : List (List Saved)
  optionPlace : OptionPlace
  documents : Array Word
  /-- What a command of the shell has printed so far. -/
  output : String
  /-- The status that the script had when what is done on a signal began. -/
  before? : Option Nat

namespace Frame

/-- Options with their letters; two have none. -/
def optionNames : List (String × Option Char) :=
  [("errexit", some 'e'), ("noglob", some 'f'), ("ignoreeof", some 'I'), ("interactive", some 'i'),
    ("monitor", some 'm'), ("noexec", some 'n'), ("stdin", some 's'), ("xtrace", some 'x'),
    ("verbose", some 'v'), ("vi", some 'V'), ("emacs", some 'E'), ("noclobber", some 'C'),
    ("allexport", some 'a'), ("notify", some 'b'), ("nounset", some 'u'), ("privileged", some 'p'),
    ("nolog", none), ("debug", none)]

def has (f : Frame) (option : String) : Bool :=
  f.options.contains option

def setOption (name : String) (on : Bool) (f : Frame) : Frame :=
  let others := f.options.filter (· ≠ name)
  { f with options := if on then name :: others else others }

/-- The letters of the options in force, the last option first. -/
def optionLetters (f : Frame) : String :=
  String.ofList <| (optionNames.reverse.filter fun o => f.has o.1).filterMap (·.2)

def marking? (f : Frame) (name : String) : Option Variable :=
  f.vars.lookup name

def value? (f : Frame) (name : String) : Option String :=
  (f.marking? name).bind (·.value?)

def isFixed (f : Frame) (name : String) : Bool :=
  (f.marking? name).any (·.fixed)

def putVariable (name : String) (v : Variable) (f : Frame) : Frame :=
  if (f.vars.lookup name).isSome then
    { f with vars := f.vars.map fun p => if p.1 = name then (name, v) else p }
  else { f with vars := f.vars ++ [(name, v)] }

def dropVariable (name : String) (f : Frame) : Frame :=
  { f with vars := f.vars.filter (·.1 ≠ name) }

/-- What follows from the value of a variable for the shell itself. -/
def heed (name value : String) (f : Frame) : Frame :=
  if name = "OPTIND" then { f with optionPlace := ⟨max 1 ((value.toNat?).getD 1), 0⟩ }
  else if name = "PATH" then { f with hashed := [] }
  else f

/-- A value for a variable; what is marked stays marked. -/
def assign (name value : String) (f : Frame) : Frame :=
  let old := (f.marking? name).getD ⟨none, false, false⟩
  let f := f.putVariable name
    { old with value? := some value, exported := old.exported || f.has "allexport" }
  f.heed name value

def restore (f : Frame) : Saved → Frame
  | .options before => { f with options := before }
  | .variable name none => f.dropVariable name
  | .variable name (some v) => (f.putVariable name v).heed name (v.value?.getD "")

/-- Notes what a variable was, unless nothing around is local. -/
def save (s : Saved) (f : Frame) : Frame :=
  match f.locals with
  | [] => f
  | first :: rest => { f with locals := (s :: first) :: rest }

/-- The innermost local things are as they were before, the last change first. -/
def popLocals (f : Frame) : Frame :=
  match f.locals with
  | [] => f
  | first :: rest => first.foldl restore { f with locals := rest }

/-- Where the shell keeps a variable by the characters of its name; so they are told in this
order. -/
def bucket (name : String) : Nat :=
  match name.toList with
  | [] => 0
  | c :: r => ((c :: r).foldl (fun n c => n + c.toNat) (16 * c.toNat)) % 39

/-- Variables that are for others too, with their values. -/
def given (f : Frame) : List (String × String) :=
  f.vars.filterMap fun v =>
    if v.2.exported then v.2.value?.map fun value => (v.1, value) else none

/-- What programs are given of the variables by the shell. -/
def environment (f : Frame) : List (String × String) :=
  f.given.mergeSort fun a b => bucket a.1 ≤ bucket b.1

/-- Whether a job is of no interest any more. -/
def isStale (j : Job) : Bool :=
  j.isDone && j.waited

/-- The first number that no job needs, without the job that had it before. -/
def takeNumber (f : Frame) : Nat × Frame :=
  let isFree (n : Nat) : Bool := f.jobs.all fun j => j.number ≠ n || isStale j
  let n := ((List.range' 1 (f.jobs.length + 1)).find? isFree).getD 1
  (n, { f with jobs := f.jobs.filter (·.number ≠ n) })

end Frame

end Culprit.Shell
