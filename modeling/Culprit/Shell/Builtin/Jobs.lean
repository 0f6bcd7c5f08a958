import Culprit.Shell.Builtin.Signalling

/-!
Commands of the shell for what runs in the background. A shell that reads a script has no terminal,
so it cannot bring a job to the front.
-/

namespace Culprit.Shell.Builtin

open Act

/-- Takes note of how a process of a job ended. -/
def note (pid : Nat) (e : Ending) : Act Unit :=
  modify fun f => { f with jobs := f.jobs.map (Job.note pid e) }

/-- Takes note of all that ended since. -/
def noteAll : Act Unit := do
  let running := ((← frame).jobs.map Job.running).flatten
  if !running.isEmpty then
    (← ask (System.reap running)).forM fun e => note e.1 e.2

def endingText : Ending → String
  | .code 0 => "Done"
  | .code n => "Done(" ++ toString n ++ ")"
  | .signal n => (Signals.text? n).getD "Interrupt"

/-- The last two jobs have signs of their own. -/
def line (jobs : List Job) (j : Job) : String :=
  let place := jobs.findIdx fun k => k.number = j.number
  let sign := if place = 0 then "+" else if place = 1 then "-" else " "
  let start := "[" ++ toString j.number ++ "] " ++ sign ++ " "
  let text := start ++ (if j.isDone then endingText j.ending else "Running")
  text ++ String.ofList (List.replicate (max 1 (33 - text.length)) ' ')

/-- A job with its processes, if they are asked for, or with bars between them. -/
def lines (jobs : List Job) (withIds : Bool) (j : Job) : String :=
  if !withIds then
    line jobs j ++ String.join ((j.pids.drop 1).map fun _ => " | ") ++ "\n"
  else line jobs j ++ "\n"

/-- A job that is done is shown once, and the next job takes its sign. -/
def showJobs (withIds firstId : Bool) : List Job → Act Unit
  | [] => pure ()
  | j :: rest => do
    if firstId then sayLine (toString (j.pids.headD 0))
    else do
      say (lines (← frame).jobs withIds j)
      if j.isDone then
        modify fun f => { f with jobs := f.jobs.filter fun k => k.number ≠ j.number }
    showJobs withIds firstId rest

def jobs (args : List String) : Act Nat := do
  let (options, args) ← readOptions "lp" args
  noteAll
  let all := (← frame).jobs
  let chosen ← if args.isEmpty then pure all else args.mapM job
  showJobs (!options.isEmpty) ((options.getLast?.map (·.1)) = some 'p') chosen
  pure 0

/-- Says of a program that a signal ended which one it was. -/
def tellSignal (e : Ending) : Act Unit :=
  match e with
  | .signal n =>
    match Signals.text? n with
    | some text => write 2 (text ++ "\n")
    | none => pure ()
  | .code _ => pure ()

/-- Waits until some processes have ended, unless a signal comes that something is done on. -/
def awaitAll (tell : Nat → Bool) : Nat → List Nat → Act Bool
  | 0, _ => pure true
  | _, [] => pure true
  | fuel + 1, pids => do
    match ← ask (System.await pids true) with
    | some (pid, e) => do
      if tell pid then tellSignal e
      note pid e
      awaitAll tell fuel (pids.filter (· ≠ pid))
    | none => return (← ask System.pendingSignal).isNone

def interrupted : Act Nat := do
  return 128 + ((← ask System.pendingSignal).getD 0)

/-- The job that an argument of `wait` is for; the last process of a job stands for it. -/
def awaited? (a : String) : Act (Option Job) := do
  match a.toList with
  | '%' :: _ => pure (some (← job a))
  | _ => do
    let pid ← number a
    pure ((← frame).jobs.find? fun j => j.last = pid)

/-- What is unknown changes nothing. -/
def waitEach (status : Nat) : List String → Act Nat
  | [] => pure status
  | a :: rest => do
    match ← awaited? a with
    | none => waitEach status rest
    | some j => do
      let mine := j.pids
      if ← awaitAll mine.contains endless j.running then do
        modify fun f => { f with
          jobs := f.jobs.map fun k => if k.number = j.number then { k with waited := true } else k }
        let status := (((← frame).jobs.find? fun k => k.number = j.number).map fun k =>
          k.ending.status).getD status
        waitEach status rest
      else interrupted

def wait (args : List String) : Act Nat := do
  let (_, args) ← readOptions "" args
  if args.isEmpty then do
    let running := ((← frame).jobs.map Job.running).flatten
    if ← awaitAll (fun _ => false) endless running then do
      modify fun f => { f with jobs := f.jobs.map fun j => { j with waited := true } }
      pure 0
    else interrupted
  else waitEach 127 args

/-- There is no terminal that a job could have. -/
def resume (args : List String) : Act Nat := do
  let (_, args) ← readOptions "" args
  let name := args.headD "%"
  discard (job name)
  fault ("job " ++ (args.headD "(null)") ++ " not created under job control")

/-- Nothing has taken any time of the processor. -/
def times (_ : List String) : Act Nat := do
  sayLine "0m0.000000s 0m0.000000s"
  sayLine "0m0.000000s 0m0.000000s"
  pure 0

def limits : List (Char × String × String) :=
  [('t', "time(seconds)        ", "unlimited"), ('f', "file(blocks)         ", "unlimited"),
    ('d', "data(kbytes)         ", "unlimited"), ('s', "stack(kbytes)        ", "8192"),
    ('c', "coredump(blocks)     ", "0"), ('m', "memory(kbytes)       ", "unlimited"),
    ('l', "locked memory(kbytes) ", "8192"), ('p', "process              ", "unlimited"),
    ('n', "nofiles              ", "1048576"), ('v', "vmemory(kbytes)      ", "unlimited"),
    ('w', "locks                ", "unlimited"), ('r', "rtprio               ", "0")]

/-- Limits are shown; nothing comes of setting one. -/
def ulimit (args : List String) : Act Nat := do
  let (options, args) ← readOptions "HSatfdscmlpnvwr" args
  let chosen := (options.map (·.1)).filter fun c => c ≠ 'H' && c ≠ 'S'
  match chosen.getLast?, args with
  | some 'a', [] => limits.forM fun l => sayLine (l.2.1 ++ l.2.2)
  | some 'a', _ :: _ => fault "too many arguments"
  | _, _ :: _ :: _ => fault "too many arguments"
  | c?, [] =>
    match limits.find? fun l => l.1 = c?.getD 'f' with
    | some l => sayLine l.2.2
    | none => pure ()
  | _, [value] =>
    if value ≠ "unlimited" && !(value.toList.all Char.isDigit) then fault "bad number"
  pure 0

end Culprit.Shell.Builtin
