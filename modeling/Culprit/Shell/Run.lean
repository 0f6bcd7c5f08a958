import Culprit.Shell.Builtin
import Culprit.Shell.Redirect
import Culprit.Shell.Start
import Culprit.Shell.Tools.Environment

/-!
Carrying out commands. A command runs in the process of the shell unless it has to change nothing
there: then a process of its own begins. Signals that something is done on are looked at between
commands. Recursion is bounded by an amount of fuel that no script uses up.
-/

namespace Culprit.Shell.Run

open Act

/-- How a command is carried out. -/
structure Mode where
  /-- Its status is only looked at, so a failure does not end the script. -/
  tested : Bool
  /-- Nothing is left to do after it. -/
  last : Bool

namespace Mode

def plain : Mode := ⟨false, false⟩
def condition : Mode := ⟨true, false⟩
def final : Mode := ⟨false, true⟩

def notLast (m : Mode) : Mode := { m with last := false }

end Mode

def atLine (line : Nat) : Act Unit :=
  modify fun f => { f with line := line }

def succeeded : Act Bool := do
  return (← frame).status = 0

/-- A failure ends the script, where that is asked for, unless it is only looked at. -/
def check (m : Mode) : Act Unit := do
  let f ← frame
  if f.has "errexit" && !m.tested && f.status ≠ 0 then throw (.leave false)

/-- Commands that are no lists of others, and whose failure counts as such. -/
def counts : Command → Bool
  | .simple .. => true
  | .pipe _ => true
  | .isolated .. => true
  | _ => false

/-- Whether something is done on any signal, or at the end. -/
def hasTraps : Act Bool := do
  return (← frame).traps.any fun t => !t.2.isEmpty

/-- What a new process of the shell does not have from its parent. -/
def forget : Act Unit := do
  modify fun f => { f with
    traps := f.traps.filter (·.2.isEmpty), jobs := [], before? := none, output := "" }
  ask System.forgetCaught

/-- A process in the background is not interrupted from the terminal, and does not read from it. -/
def detach (isFirst : Bool) : Act Unit := do
  -- Interrupt and quit.
  ask (System.deafen [2, 3])
  if isFirst then
    match ← open_ .input Surroundings.nullDevice with
    | .ok id => ask (System.place 0 id)
    | .error _ => pure ()

/-- Ends the process with the status of the shell. -/
def leave : Act Unit := do
  ask (System.exit ((← frame).status % 256))
  throw .gone

/-- A number for a job is taken, and the job that had it is forgotten. -/
def takeNumber : Act Nat := do
  let (n, f) := (← frame).takeNumber
  set f
  pure n

/-- Waits for the processes of a job in the foreground, and gives the status of the last one. -/
def settle (pids : List Nat) : Act Nat := do
  let last := pids.getLast?.getD 0
  let status ← go last 0 endless pids
  Builtin.noteAll
  pure status
where
  go (last status : Nat) : Nat → List Nat → Act Nat
    | 0, _ => pure status
    | _, [] => pure status
    | fuel + 1, pids => do
      match ← ask (System.await pids false) with
      | none => pure status
      | some (pid, e) => do
        Builtin.tellSignal e
        go last (if pid = last then e.status else status) fuel (pids.filter (· ≠ pid))

/-- The two ends of a pipe, and the descriptors that keep them open for a while. -/
structure Pipe where
  source : Nat
  sink : Nat
  heldSource : Nat
  heldSink : Nat

def openPipe : Act Pipe := do
  let (source, sink) ← ask System.openPipe
  let heldSource ← ask (System.hold source)
  let heldSink ← ask (System.hold sink)
  pure ⟨source, sink, heldSource, heldSink⟩

/-- Connects the output of this process with a pipe. -/
def feed (p : Pipe) : Act Unit := do
  ask (System.close p.heldSource)
  ask (System.close p.heldSink)
  ask (System.place 1 p.sink)

/-- Connects the input of this process with a pipe. -/
def drain (p : Pipe) : Act Unit := do
  ask (System.close p.heldSource)
  ask (System.place 0 p.source)

/-- A variable that is set for one command; it is marked for what the command starts. -/
def setAside (name value : String) : Act Unit := do
  let f ← frame
  let before? := f.marking? name
  assign name value
  modify fun f =>
    let f := f.save (.variable name before?)
    match f.marking? name with
    | some v => f.putVariable name { v with exported := true }
    | none => f

/-- Which command is called, as far as the words in front tell. -/
structure Call where
  args : List String
  /-- Words that are still to be expanded. -/
  rest : List Word
  /-- Functions do not count. -/
  plain : Bool
  /-- Where programs are looked for, if not where they usually are. -/
  path? : Option String
  /-- Whether the first command of the shell that was named is a special one. -/
  special? : Option Bool

inductive Target where
  | nothing
  | builtin (name : String)
  | function (body : Command)
  | program

def targetOf (f : Frame) (plain : Bool) (name : String) : Target :=
  if name.toList.contains '/' then .program
  else match if plain then none else f.functions.lookup name with
    | some body => .function body
    | none => if Builtin.isName name then .builtin name else .program

/-- Fields of the first words that come to any. -/
def nextFields (run : Command → Act String) : List Word → Act (List String × List Word)
  | [] => pure ([], [])
  | w :: rest => do
    match ← Expansion.fields run w with
    | [] => nextFields run rest
    | fields => pure (fields, rest)

/-- Another argument for a call that has none left. -/
def refill (run : Command → Act String) (args : List String) (rest : List Word) :
    Act (List String × List Word) :=
  if args.isEmpty then nextFields run rest else pure (args, rest)

/-- What follows the options of `command`; nothing if it has another purpose than to call. -/
def pastOptions (run : Command → Act String) :
    Nat → Option String → List String → List String → List Word →
      Act (List String × List Word × Option (Option String × List String))
  | 0, _, seen, args, rest => pure (seen ++ args, rest, none)
  | fuel + 1, path?, seen, args, rest => do
    let (args, rest) ← refill run args rest
    match args with
    | [] => pure (seen, rest, none)
    | a :: more =>
      match a.toList with
      | '-' :: c :: cs =>
        -- Two dashes end the options.
        if c = '-' && cs.isEmpty then do
          let (more, rest) ← refill run more rest
          if more.isEmpty then pure (seen ++ [a], rest, none)
          else pure (seen ++ a :: more, rest, some (path?, more))
        else if (c :: cs).all (· = 'p') then
          pastOptions run fuel (some Builtin.usualPath) (seen ++ [a]) more rest
        else pure (seen ++ args, rest, none)
      | _ => pure (seen ++ args, rest, some (path?, args))

/-- Looks through `command` in front of a call. -/
def uncover (run : Command → Act String) : Nat → Call → Act Call
  | 0, c => pure c
  | fuel + 1, c => do
    match targetOf (← frame) c.plain (c.args.headD "") with
    | .builtin name => do
      let c := { c with special? := c.special?.or (some (Builtin.isSpecial name)) }
      if name ≠ "command" then pure c
      else do
        let (args, rest, inner?) ←
          pastOptions run endless c.path? ["command"] (c.args.drop 1) c.rest
        match inner? with
        | none => pure { c with args := args, rest := rest }
        | some (path?, args) =>
          uncover run fuel { c with args := args, rest := rest, path? := path?, plain := true }
    | _ => pure c

/-- All arguments of a call. What sets a variable for one that declares it is not split. -/
def complete (run : Command → Act String) (c : Call) (t : Target) : Act (List String) := do
  let declares := match t with
    | .builtin name => Builtin.declares name
    | _ => false
  let one (w : Word) : Act (List String) := do
    if declares && Grammar.isAssignment w then return [← Expansion.text run .assignment w]
    else Expansion.fields run w
  return c.args ++ (← c.rest.mapM one).flatten

/-- What is in front of commands that are shown. -/
def promptOf (run : Command → Act String) : Act String := do
  let f ← frame
  let text := (f.value? "PS4").getD ""
  if text.toList.all fun c => c ≠ '$' && c ≠ '\x60' && c ≠ '\\' then pure text
  else match Grammar.asDocument text f.documents with
    | none => pure text
    | some (w, documents) => do
      -- A command inside the prompt is not shown itself.
      set { f with documents := documents, options := f.options.filter (· ≠ "xtrace") }
      ensuring (Expansion.text run .document w) do
        modify fun g => { g with options := f.options }

/-- Shows a command, if commands are shown, where errors went before its redirections. -/
def trace (run : Command → Act String) (kept : List Redirect.Kept) (words : List String) :
    Act Unit := do
  if (← frame).has "xtrace" then
    let prompt ← promptOf run
    let place := match kept.find? fun k => k.descriptor = 2 with
      | some k => k.copy?
      | none => some 2
    match place with
    | some d => write d (prompt ++ String.intercalate " " words ++ "\n")
    | none => pure ()

/-- Something that the shell does itself, under its name. What was printed has to come out. -/
def perform (name : String) (action : Act Nat) : Act Unit :=
  speaking name do
    let status ← action
    match ← flush with
    | none => setStatus status
    | some _ => do
      complain (name ++ ": I/O error")
      setStatus (status ||| 1)

/-- Why no program is found for a name: its wording. -/
def absence (name path : String) : Act String := do
  if FileTree.nameLimit < name.length then pure "File name too long"
  else if name.isEmpty then pure "Permission denied"
  else do
    let f ← frame
    let places := (Start.directories path).map fun dir =>
      Path.join f.cwd (if dir.isEmpty then name else Path.join dir name)
    let files ← files
    let isDirectory (p : String) : Bool :=
      match Surroundings.find files (Bytes.gather p) with
      | .ok n => n.isDirectory
      | .error _ => false
    pure (if places.any isDirectory then "Permission denied" else "not found")

/-- Why a program cannot be started: its wording, and the status. -/
def refusal (e : SystemFault) : String × Nat :=
  match e with
  | .missing => ("not found", 127)
  | .notDirectory => ("not found", 127)
  | .nameTooLong => (faultText e, 127)
  | e => (faultText e, 126)

/-- The program that a call starts. A file without an interpreter is taken for a script of the
shell. -/
def program (path : String) (args : List String) : Act (Except SystemFault Start) := do
  let f ← frame
  let name := args.headD ""
  match Start.find (← files) f.cwd path name (args.drop 1) with
  | .error .notProgram => do
    let place? ← Builtin.located? name path
    let script := if name.toList.contains '/' then name else place?.getD name
    pure (.ok (.shell "/bin/sh" (script :: args.drop 1)))
  | r => pure r

/-- Variables that a shell has from the start, whatever its environment is. -/
def firstVariables (given : List (String × String)) (cwd : String) (parent : Nat) :
    List (String × Variable) :=
  let own : List (String × String) :=
    [("IFS", " \t\n"), ("OPTIND", "1"), ("PPID", toString parent)]
  let usual : List (String × String) :=
    [("PATH", Builtin.usualPath), ("PS1", "# "), ("PS2", "> "), ("PS4", "+ ")]
  let given := given.filter fun v => Grammar.isName v.1 && v.1 ≠ "PWD"
  let isGiven (name : String) : Bool := (given.lookup name).isSome
  (usual.filter fun v => !isGiven v.1).map (fun v => (v.1, ⟨some v.2, false, false⟩)) ++
    given.map (fun v => (v.1, ⟨some ((own.lookup v.1).getD v.2), true, false⟩)) ++
    (own.filter fun v => !isGiven v.1).map (fun v => (v.1, ⟨some v.2, false, false⟩)) ++
    [("PWD", ⟨some cwd, true, false⟩)]

/-- A shell that has just been started, under a name. -/
def fresh (zero : String) (pid parent : Nat) (f : Frame) : Frame where
  zero := zero
  line := 0
  speaker? := none
  args := []
  vars := firstVariables f.given f.cwd parent
  functions := []
  aliases := []
  hashed := []
  traps := []
  options := []
  cwd := f.cwd
  mask := f.mask
  status := 0
  backStatus := 0
  pid := pid
  lastJob? := none
  jobs := []
  loops := 0
  locals := []
  optionPlace := .start
  documents := #[]
  output := ""
  before? := none

/-- Options and arguments at the start of a shell, and whether the first of the arguments is the
script itself. -/
def startOptions : Nat → Bool → List String → Act (Bool × List String)
  | 0, script, args => pure (script, args)
  | _, script, [] => pure (script, [])
  | fuel + 1, script, a :: rest => do
    match a.toList with
    | ['-'] => pure (script, rest)
    | ['-', '-'] => pure (script, rest)
    | sign :: cs =>
      if sign = '-' || sign = '+' then do
        let own := cs.filter fun c => c ≠ 'c' && c ≠ 'l'
        let rest ← Builtin.toggleLetters (sign = '-') own rest
        startOptions fuel (script || cs.contains 'c') rest
      else pure (script, a :: rest)
    | [] => pure (script, a :: rest)

/-- The text of a script, from what is open under a descriptor. -/
def scriptFrom (descriptor : Nat) : Act String := do
  let bytes ← readAll descriptor
  pure (String.ofList ((Bytes.ofArray bytes).toList.filter (· ≠ '\x00')))

/-- The text of a script in a file. -/
def scriptOf (path : String) : Act String := do
  match ← open_ .input path with
  | .error e => Redirect.refuse false path e
  | .ok id => do
    let d ← ask (System.hold id)
    let text ← scriptFrom d
    ask (System.close d)
    pure text

/-- The file that a dot command reads: a path, or a name that is looked for like a program. -/
def scriptPath (name : String) : Act String := do
  if name.toList.contains '/' then pure name
  else match ← Builtin.located? name (← Builtin.searchPath) with
    | some p => pure p
    | none => fault (name ++ ": not found")

/-- The text between two places in a script. -/
def between (before after : Cursor) : String :=
  String.ofList (before.rest.take (before.rest.length - after.rest.length))

mutual

/-- Carries out a command, and what is to be done on signals before and after it. -/
def run : Nat → Mode → Command → Act Unit
  | 0, _, _ => throw .gone
  | fuel + 1, m, c => do
    if !(← frame).has "noexec" then do
      heed fuel
      match c with
      | .nothing => pure ()
      | .simple line assignments words redirections => do
        atLine line
        simple fuel m assignments words redirections
      | .sequence a b => do
        run fuel m.notLast a
        run fuel m b
      | .both a b => do
        run fuel .condition a
        if ← succeeded then run fuel m b
      | .either a b => do
        run fuel .condition a
        if !(← succeeded) then run fuel m b
      | .negation a => do
        run fuel .condition a
        let ok ← succeeded
        setStatus (if ok then 1 else 0)
      | .pipe stages => do
        discard takeNumber
        let pids ← pipeline fuel m false none stages
        setStatus (← settle pids)
      | .background a => background fuel a
      | .redirected line a redirections => do
        atLine line
        Redirect.around (substitute fuel) redirections (setStatus 2) (run fuel m.notLast a)
      | .isolated line a redirections => do
        atLine line
        isolated fuel m a redirections
      | .branch condition yes no => do
        run fuel .condition condition
        if ← succeeded then run fuel m yes
        else match no with
          | .nothing => setStatus 0
          | no => run fuel m no
      | .loop untilTrue condition body => do
        modify fun f => { f with loops := f.loops + 1 }
        ensuring (rounds fuel m.notLast untilTrue condition body 0)
          (modify fun f => { f with loops := f.loops - 1 })
      | .each line name words body => do
        atLine line
        let values ← words.mapM (Expansion.fields (substitute fuel))
        modify fun f => { f with loops := f.loops + 1 }
        ensuring (forEach fuel m.notLast name body 0 values.flatten)
          (modify fun f => { f with loops := f.loops - 1 })
      | .choice line word arms => do
        atLine line
        let text ← Expansion.text (substitute fuel) .text word
        choose fuel m text.toList arms
      | .define name body => do
        modify fun f => { f with
          functions := (name, body) :: f.functions.filter (·.1 ≠ name) }
        setStatus 0
    heed fuel
    if counts c then check m
    if m.last then throw (.leave false)

/-- Does what is to be done on the signals that came. The status stays as it was. -/
def heed : Nat → Act Unit
  | 0 => throw .gone
  | fuel + 1 => do
    match ← ask System.takeSignal with
    | none => pure ()
    | some n => do
      let f ← frame
      let status := f.before?.getD f.status
      match f.traps.lookup n with
      | none => pure ()
      | some action => do
        set { f with before? := some status }
        match ← result (script fuel .plain action) with
        | .ok _ => setStatus status
        | .error (.skip (.function true)) => do
          modify fun g => { g with before? := f.before? }
          throw (.skip (.function true))
        | .error (.skip s) => do
          setStatus status
          modify fun g => { g with before? := f.before? }
          throw (.skip s)
        | .error e => throw e
        modify fun g => { g with before? := f.before? }
      heed fuel

/-- Carries out a script line by line, and tells whether there was any command in it. -/
def script : Nat → Mode → String → Act Bool
  | 0, _, _ => throw .gone
  | fuel + 1, m, text => do
    let f ← frame
    lines fuel m false false (Cursor.start text f.aliases f.documents)

/-- The lines from a place on; each is shown as it is read, where that is asked for. -/
def lines : Nat → Mode → (shown any : Bool) → Cursor → Act Bool
  | 0, _, _, _, _ => throw .gone
  | fuel + 1, m, shown, any, c => do
    let f ← frame
    let (line, after) := Grammar.nextLine { c with aliases := f.aliases, documents := f.documents }
    modify fun f => { f with documents := after.documents }
    if shown && f.has "verbose" then write 2 (between c after)
    match line with
    | .finish => pure any
    | .fault e => do
      atLine e.line
      fault ("Syntax error: " ++ e.reason)
    | .command command isLast => do
      run fuel { m with last := m.last && isLast } command
      let isNone := match command with
        | .nothing => true
        | _ => false
      lines fuel m shown (any || !isNone) after

/-- What a command prints, and its status on the side. -/
def substitute : Nat → Command → Act String
  | 0, _ => throw .gone
  | fuel + 1, c => do
    match c with
    | .nothing => pure ""
    | c => do
      discard takeNumber
      let p ← openPipe
      let pid ← fork (child fuel do
        feed p
        run fuel .final c)
      ask (System.close p.heldSink)
      let bytes ← readAll p.heldSource
      ask (System.close p.heldSource)
      let status ← settle [pid]
      modify fun f => { f with backStatus := status }
      pure (String.ofList ((Bytes.ofArray bytes).toList.filter (· ≠ '\x00')))

/-- A new process of the shell, to its end. -/
def child : Nat → Act Unit → Act Unit
  | 0, _ => throw .gone
  | fuel + 1, body => do
    forget
    conclude fuel (← result body)

/-- Ends a process of the shell, with what is to be done at its end. -/
def conclude : Nat → Except Flow Unit → Act Unit
  | 0, _ => throw .gone
  | fuel + 1, r => do
    match r with
    | .error .gone => throw .gone
    | .error (.leave true) => do
      let f ← frame
      setStatus (f.before?.getD f.status)
    | _ => pure ()
    let f ← frame
    match f.traps.lookup 0 with
    | none => leave
    | some action => do
      set { f with traps := f.traps.filter (·.1 ≠ 0), before? := some f.status }
      match ← result (script fuel .plain action) with
      | .error .fault => leave
      | .error (.leave false) => leave
      | .error .gone => throw .gone
      | _ => do
        let f ← frame
        setStatus (f.before?.getD f.status)
        leave

/-- Starts the processes of a pipe, each with the one before it at its input. -/
def pipeline : Nat → Mode → (detached : Bool) → Option Pipe → List Command → Act (List Nat)
  | 0, _, _, _, _ => throw .gone
  | _, _, _, _, [] => pure []
  | fuel + 1, m, detached, before?, c :: rest => do
    let next? ← if rest.isEmpty then pure none else some <$> openPipe
    let pid ← fork (child fuel do
      if detached then detach before?.isNone
      match before? with
      | some p => drain p
      | none => pure ()
      match next? with
      | some p => feed p
      | none => pure ()
      run fuel { m with last := true } c)
    match before? with
    | some p => ask (System.close p.heldSource)
    | none => pure ()
    match next? with
    | some p => ask (System.close p.heldSink)
    | none => pure ()
    return pid :: (← pipeline fuel m detached next? rest)

/-- A job begins, and nobody waits for it. -/
def background : Nat → Command → Act Unit
  | 0, _ => throw .gone
  | fuel + 1, c => do
    let number ← takeNumber
    let pids ← match c with
      | .pipe stages => pipeline fuel .plain true none stages
      | c => do
        let pid ← fork (child fuel do
          detach true
          run fuel .final c)
        pure [pid]
    modify fun f => { f with
      jobs := ⟨number, pids, [], false⟩ :: f.jobs, lastJob? := pids.getLast? }
    setStatus 0

/-- In a process of its own, unless nothing is left to do after it. -/
def isolated : Nat → Mode → Command → List Redirection → Act Unit
  | 0, _, _, _ => throw .gone
  | fuel + 1, m, c, redirections => do
    let targets ← redirections.mapM (Redirect.target (substitute fuel))
    let body : Act Unit := do
      targets.forM (Redirect.perform (substitute fuel))
      run fuel { m with last := true } c
    if m.last && !(← hasTraps) then do
      forget
      body
    else do
      discard takeNumber
      let pid ← fork (child fuel body)
      setStatus (← settle [pid])

/-- Rounds of a loop; its status is that of the last round. -/
def rounds : Nat → Mode → Bool → Command → Command → Nat → Act Unit
  | 0, _, _, _, _, _ => throw .gone
  | fuel + 1, m, untilTrue, condition, body, status => do
    match ← result (run fuel .condition condition) with
    | .ok () => do
      if (← succeeded) = untilTrue then setStatus status
      else match ← result (run fuel m body) with
        | .ok () => rounds fuel m untilTrue condition body (← frame).status
        | .error (.skip (.round n)) =>
          if n ≤ 1 then rounds fuel m untilTrue condition body (← frame).status
          else throw (.skip (.round (n - 1)))
        | .error (.skip (.loops n)) => if 1 < n then throw (.skip (.loops (n - 1)))
        | .error e => throw e
    | .error (.skip (.round n)) =>
      if n ≤ 1 then rounds fuel m untilTrue condition body status
      else throw (.skip (.round (n - 1)))
    | .error (.skip (.loops n)) => do
      setStatus status
      if 1 < n then throw (.skip (.loops (n - 1)))
    | .error (.skip (.function false)) => do
      setStatus status
      throw (.skip (.function false))
    | .error e => throw e

def forEach : Nat → Mode → String → Command → Nat → List String → Act Unit
  | 0, _, _, _, _, _ => throw .gone
  | _, _, _, _, status, [] => setStatus status
  | fuel + 1, m, name, body, _, value :: values => do
    assign name value
    match ← result (run fuel m body) with
    | .ok () => forEach fuel m name body (← frame).status values
    | .error (.skip (.round n)) =>
      if n ≤ 1 then forEach fuel m name body (← frame).status values
      else throw (.skip (.round (n - 1)))
    | .error (.skip (.loops n)) => if 1 < n then throw (.skip (.loops (n - 1)))
    | .error e => throw e

/-- The first arm with a pattern that matches. -/
def choose : Nat → Mode → List Char → List (List Word × Command) → Act Unit
  | 0, _, _, _ => throw .gone
  | _, _, _, [] => setStatus 0
  | fuel + 1, m, text, (patterns, body) :: rest => do
    let fits ← patterns.anyM fun w => do
      return Glob.accepts (← Expansion.pattern (substitute fuel) w) text
    if !fits then choose fuel m text rest
    else match body with
      | .nothing => setStatus 0
      | body => run fuel m body

/-- A command that is called by its name, or settings alone. The words come first, then the
redirections, then the settings. -/
def simple : Nat → Mode → List Word → List Word → List Redirection → Act Unit
  | 0, _, _, _, _ => throw .gone
  | fuel + 1, m, assignments, words, redirections => do
    modify fun f => { f with backStatus := 0 }
    let own := substitute fuel
    let (first, rest) ← nextFields own words
    let call ← if first.isEmpty then pure ⟨[], [], false, none, none⟩
      else uncover own fuel ⟨first, rest, false, none, none⟩
    let f ← frame
    let target := if call.args.isEmpty then Target.nothing
      else targetOf f call.plain (call.args.headD "")
    let args ← complete own call target
    let special := call.special? = some true
    let targets ← redirections.mapM (Redirect.target own)
    let kept ← Redirect.keep targets
    match ← result (targets.forM (Redirect.perform own)) with
    | .error .fault => do
      Redirect.restore kept
      -- A special command that cannot be carried out ends the script.
      if special then throw .fault
    | .error e => throw e
    | .ok () => do
      let isLocal := match target with
        | .nothing => false
        | _ => !special
      let stays := match target with
        | .builtin name => name = "exec"
        | _ => false
      if isLocal then modify fun f => { f with locals := [] :: f.locals }
      ensuring
        (do
          let settings ← assignments.mapM (setting fuel isLocal (stays && 1 < args.length))
          trace own kept (settings ++ args)
          call_ fuel m call target args)
        (do
          if isLocal then modify Frame.popLocals
          if stays then Redirect.release kept else Redirect.restore kept)

/-- Makes a setting in front of a command, and gives it as it is shown. -/
def setting : Nat → (isLocal marked : Bool) → Word → Act String
  | 0, _, _, _ => throw .gone
  | fuel + 1, isLocal, marked, w => do
    let text ← Expansion.text (substitute fuel) .assignment w
    let (name, value?) := Builtin.definition text
    let value := value?.getD ""
    if isLocal then setAside name value
    else do
      assign name value
      if marked then
        modify fun f => match f.marking? name with
          | some v => f.putVariable name { v with exported := true }
          | none => f
    pure text

/-- Carries out what a call is for. -/
def call_ : Nat → Mode → Call → Target → List String → Act Unit
  | 0, _, _, _, _ => throw .gone
  | fuel + 1, m, call, target, args => do
    match target with
    | .nothing => do
      let f ← frame
      setStatus f.backStatus
    | .function body => callFunction fuel m body (args.drop 1)
    | .builtin name => do
      match ← result (perform name (builtin fuel m name (args.drop 1))) with
      | .ok () => pure ()
      | .error .fault => if call.special? = some true then throw .fault
      | .error e => throw e
    | .program => do
      let name := args.headD ""
      let path ← match call.path? with
        | some path => pure path
        | none => Builtin.searchPath
      let place? ← Builtin.located? name path
      if !name.toList.contains '/' && place?.isNone then do
        complain (name ++ ": " ++ (← absence name path))
        setStatus 127
      else do
        if call.path?.isNone && !name.toList.contains '/' then
          modify fun f => { f with hashed := name :: f.hashed.filter (· ≠ name) }
        -- With nothing left to do, the shell itself becomes the program.
        if m.last && !(← hasTraps) then become fuel path args
        else do
          discard takeNumber
          let pid ← fork (child fuel (become fuel path args))
          setStatus (← settle [pid])

/-- A command of the shell. Some of them carry out others. -/
def builtin : Nat → Mode → String → List String → Act Nat
  | 0, _, _, _ => throw .gone
  | fuel + 1, m, name, args => do
    match name with
    | "eval" => do
      if args.isEmpty then pure 0
      else do
        let any ← script fuel m.notLast (String.intercalate " " args)
        let f ← frame
        pure (if any then f.status else 0)
    | "." => do
      let (_, args) ← Builtin.readOptions "" args
      match args with
      | [] => pure 0
      | a :: _ => do
        let path ← scriptPath a
        let text ← scriptOf path
        let f ← frame
        speaking path do
          match ← result (lines fuel .plain true false
              (Cursor.start text f.aliases f.documents)) with
          | .ok any => do
            let f ← frame
            pure (if any then f.status else 0)
          | .error (.skip (.function _)) => do
            let f ← frame
            pure f.status
          | .error e => throw e
    | "exec" => do
      if args.isEmpty then pure 0
      else do
        become fuel (← Builtin.searchPath) args
        pure 0
    | name =>
      match Builtin.find? name with
      | some f => f args
      | none => pure 127

/-- A function with its arguments, options and loops of its own. -/
def callFunction : Nat → Mode → Command → List String → Act Unit
  | 0, _, _, _ => throw .gone
  | fuel + 1, m, body, args => do
    let before ← frame
    set { before with args := args, optionPlace := .start, loops := 0 }
    let r ← result (run fuel m.notLast body)
    modify fun f => { f with
      args := before.args, optionPlace := before.optionPlace, loops := before.loops }
    match r with
    | .error (.skip (.function _)) => pure ()
    | r => resume r

/-- The process becomes a program, or ends because it cannot. -/
def become : Nat → String → List String → Act Unit
  | 0, _, _ => throw .gone
  | fuel + 1, path, args => do
    match ← program path args with
    | .ok start => do
      modify fun f => { f with
        vars := f.environment.map fun v => (v.1, ⟨some v.2, true, false⟩) }
      begin_ fuel start
    | .error e => do
      let (text, status) := refusal e
      complain (args.headD "" ++ ": " ++ text)
      setStatus status
      throw (.leave false)

/-- A program from its first step to its last. -/
def begin_ : Nat → Start → Act Unit
  | 0, _ => throw .gone
  | fuel + 1, s => do
    ask System.closeOwn
    forget
    match s with
    | .tool name args => do
      match Tools.program? name with
      | some action =>
        match ← result (action args) with
        | .ok status => setStatus status
        | .error _ => pure ()
      | none => setStatus 127
      leave
    | .shell zero args => do
      let pid ← ask System.ownId
      let parent ← ask System.parentId
      let f ← frame
      ask System.keepIgnored
      set (fresh zero pid parent f)
      conclude fuel (← result (session fuel zero args))
    | .environment args => environment fuel args

/-- A shell with its own arguments: a script among them, in a file, or at the input. -/
def session : Nat → String → List String → Act Unit
  | 0, _, _ => throw .gone
  | fuel + 1, zero, args => do
    let (given, args) ← startOptions (args.length + 1) false args
    if (← frame).has "interactive" then Builtin.toggle true "monitor"
    Builtin.dropMonitor
    if given then
      match args with
      | [] => fault "-c requires an argument"
      | text :: rest => do
        modify fun f => { f with zero := rest.headD zero, args := rest.drop 1 }
        let more := (← frame).has "stdin"
        discard (script fuel { Mode.plain with last := !more } text)
        if more then input fuel
    else if (← frame).has "stdin" || args.isEmpty then do
      modify fun f => { f.setOption "stdin" true with args := args }
      input fuel
    else do
      let text ← scriptOf (args.headD "")
      modify fun f => { f with zero := args.headD zero, args := args.drop 1 }
      let f ← frame
      discard (lines fuel .plain true false (Cursor.start text f.aliases f.documents))

/-- The script at the input. -/
def input : Nat → Act Unit
  | 0 => throw .gone
  | fuel + 1 => do
    let text ← scriptFrom 0
    let f ← frame
    discard (lines fuel .plain true false (Cursor.start text f.aliases f.documents))

/-- The tool that changes the environment, and then calls a program. -/
def environment : Nat → List String → Act Unit
  | 0, _ => throw .gone
  | fuel + 1, args => do
    match Tools.Change.ofArgs (← frame).given args with
    | .error e => do
      Tools.complainOf "env" e.message
      if e.isUsage then write 2 "Try 'env --help' for more information.\n"
      setStatus 125
      leave
    | .ok change => do
      match change.dir? with
      | some dir =>
        if ← Builtin.isDirectory dir then do
          let cwd := (← frame).cwd
          modify fun f => { f with cwd := Builtin.tidied cwd dir }
        else do
          Tools.complainOf "env" ("cannot change directory to " ++ Tools.quote dir ++
            ": No such file or directory")
          setStatus 125
          leave
      | none => pure ()
      modify fun f => { f with
        vars := change.settings.map fun s => (s.1, ⟨some s.2, true, false⟩) }
      if change.command.isEmpty then do
        let ending := if change.zeros then "\x00" else "\n"
        write 1 (String.join (change.settings.map fun s => s.1 ++ "=" ++ s.2 ++ ending))
        setStatus 0
        leave
      else do
        let path := (change.settings.lookup "PATH").getD "/bin:/usr/bin"
        match ← program path change.command with
        | .ok start => begin_ fuel start
        | .error e => do
          let missing := e = .missing || e = .notDirectory
          Tools.complainOf "env" (Tools.quote (change.command.headD "") ++ ": " ++
            (if missing then "No such file or directory" else faultText e))
          setStatus (if missing then 127 else 126)
          leave

end

end Culprit.Shell.Run
