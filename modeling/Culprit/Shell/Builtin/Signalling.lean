import Culprit.Shell.Builtin.Basic

/-!
Commands of the shell for signals: what is done when one comes, and sending one. The signals that a
script was told to ignore stay ignored in what it starts.
-/

namespace Culprit.Shell.Builtin

open Act

def showTraps : Act Unit := do
  let traps := (← frame).traps.mergeSort fun a b => a.1 ≤ b.1
  traps.forM fun t => sayLine ("trap -- " ++ quoted t.2 ++ " " ++ Signals.nameOf t.1)

/-- What is done on a signal from now on; nothing for what is usual. -/
def setTrap (signal : Nat) (action? : Option String) : Act Unit := do
  modify fun f => { f with
    traps := (action?.map fun a => (signal, a)).toList ++ f.traps.filter (·.1 ≠ signal) }
  if signal ≠ 0 then
    ask (System.arrange signal (action?.any fun a => !a.isEmpty) (action? = some ""))

def setTraps (action? : Option String) : List String → Act Nat
  | [] => pure 0
  | name :: rest =>
    match Signals.ofText? 0 name with
    | none => do
      write 2 ("trap: " ++ name ++ ": bad trap\n")
      pure 1
    | some n => do
      setTrap n action?
      setTraps action? rest

/-- A dash in place of an action brings back what is usual, and so does a number, which is taken for
a signal. -/
def trap (args : List String) : Act Nat := do
  let (_, args) ← readOptions "" args
  match args with
  | [] => do
    showTraps
    pure 0
  | [name] => setTraps none [name]
  | action :: names =>
    if Signals.isNumber action && (Signals.ofText? 0 action).isSome then
      setTraps none (action :: names)
    else setTraps (if action = "-" then none else some action) names

def killUsage {α : Type} : Act α :=
  fault "Usage: kill [-s sigspec | -signum | -sigspec] [pid | job]... or\nkill -l [exitstatus]"

/-- Names of signals: of all, or of the one that a status tells. -/
def listSignals (args : List String) : Act Nat := do
  match args with
  | [] => do
    sayLine "0"
    (List.range' 1 (Signals.count - 1)).forM fun n => sayLine (Signals.nameOf n)
  | a :: _ => do
    let n ← number a
    let n := if 128 < n then n - 128 else n
    if 0 < n && n < Signals.count then sayLine (Signals.nameOf n)
    else fault ("invalid signal number or exit status: " ++ a)
  pure 0

/-- The job that a text names with a percent sign: by its number, or one of the last two. -/
def job (name : String) : Act Job := do
  let jobs := (← frame).jobs
  let orRefuse (job? : Option Job) (text : String) : Act Job :=
    match job? with
    | some j => pure j
    | none => fault text
  match name with
  | "%" => orRefuse jobs.head? "No current job"
  | "%%" => orRefuse jobs.head? "No current job"
  | "%+" => orRefuse jobs.head? "No current job"
  | "%-" => orRefuse jobs[1]? "No previous job"
  | _ =>
    match name.toList with
    | '%' :: cs =>
      let number? := if cs.all Char.isDigit then (String.ofList cs).toNat? else none
      orRefuse (number?.bind fun n => jobs.find? fun j => j.number = n) ("No such job: " ++ name)
    | _ => fault ("No such job: " ++ name)

/-- A signal for a process. A job has no group of its own that could get it. -/
def sendTo (signal : Nat) (target : String) : Act Bool := do
  let known ← match target.toList with
    | '%' :: _ => do
      discard (job target)
      pure false
    | '-' :: cs => do
      discard (number (String.ofList cs))
      pure false
    | _ => do ask (System.kill (← number target) signal)
  if !known then complain "No such process\n"
  pure known

def send (signal : Nat) (targets : List String) : Act Nat := do
  let known ← targets.mapM (sendTo signal)
  pure (if known.all id then 0 else 1)

def kill (args : List String) : Act Nat := do
  match args with
  | [] => killUsage
  | a :: rest =>
    match a.toList with
    | '-' :: cs =>
      match Signals.ofText? 1 (String.ofList cs) with
      | some n => if rest.isEmpty then killUsage else send n rest
      | none => do
        let (options, rest) ← readOptions "ls:" args
        let signals ← (options.filter (·.1 = 's')).mapM fun o =>
          match Signals.ofText? 1 o.2 with
          | some n => pure n
          | none => fault ("invalid signal number or name: " ++ o.2)
        match options.any (·.1 = 'l'), signals.getLast? with
        | true, none => listSignals rest
        | true, some _ => if rest.isEmpty then killUsage else listSignals rest
        | false, n? => if rest.isEmpty then killUsage else send (n?.getD 15) rest
    | _ => send 15 args

end Culprit.Shell.Builtin
