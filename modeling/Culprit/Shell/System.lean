import Culprit.Machine
import Culprit.Shell.Surroundings

/-!
What running programs share: the files of the machine, what is open and where it is read and
written next, the processes with their signals, and the clock. A request that cannot be answered yet
changes nothing that another process could see, and is made again later.
-/

namespace Culprit.Shell

/-- What an open file is about. -/
inductive Body where
  | path (path : String)
  /-- Bytes without a path. -/
  | memory (id : Nat)
  | pipe (id : Nat)
  | empty
  | zeros
  | full
deriving DecidableEq, Repr

/-- An open file. Those who share it share the position. -/
structure Opened where
  body : Body
  position : Nat
  readable : Bool
  writable : Bool
  /-- What is written goes to the end. -/
  appends : Bool

/-- How a process ended. -/
inductive Ending where
  | code (n : Nat)
  | signal (n : Nat)
deriving DecidableEq, Repr

namespace Ending

/-- As a status of the shell. -/
def status : Ending → Nat
  | .code n => n % 256
  | .signal n => 128 + n

end Ending

structure Process where
  pid : Nat
  parent : Nat
  /-- Each descriptor with what is open under it. -/
  descriptors : List (Nat × Nat)
  /-- When it stops sleeping. -/
  wake? : Option Nat
  /-- Signals that came and wait for the process to look at them. -/
  pending : List Nat
  caught : List Nat
  ignored : List Nat
  /-- Signals that stay ignored, whatever is asked for later. -/
  deaf : List Nat
  /-- It does nothing until it is told to go on. -/
  stopped : Bool
  /-- Signals that came while it was stopped. -/
  held : List Nat
  ending? : Option Ending

structure System where
  machine : Machine
  opened : Array Opened
  memory : Array ByteArray
  pipes : Array ByteArray
  processes : List Process
  /-- The process whose request is answered. -/
  self : Nat
  /-- Milliseconds since the start. -/
  clock : Nat
  /-- When files were written last, if they were written since the start. -/
  stamps : List (Route × Nat)

/-- A request of a process; no answer means not yet. -/
abbrev Request (α : Type) := System → Option α × System

namespace System

def answer {α : Type} (s : System) (a : α) : Option α × System :=
  (some a, s)

def process? (s : System) (pid : Nat) : Option Process :=
  s.processes.find? fun p => p.pid = pid

def change (pid : Nat) (f : Process → Process) (s : System) : System :=
  { s with processes := s.processes.map fun p => if p.pid = pid then f p else p }

def changeSelf (f : Process → Process) (s : System) : System :=
  s.change s.self f

/-- What is open under a descriptor. -/
def openedAt? (s : System) (descriptor : Nat) : Option (Nat × Opened) := do
  let p ← s.process? s.self
  let id ← p.descriptors.lookup descriptor
  let o ← s.opened[id]?
  pure (id, o)

/-- Whether a process that is running has an end of a pipe. -/
def holdsPipe (s : System) (id : Nat) (side : Opened → Bool) : Bool :=
  s.processes.any fun p => p.ending?.isNone && p.descriptors.any fun d =>
    match s.opened[d.2]? with
    | some o => o.body = .pipe id && side o
    | none => false

/-- A pipe that is full takes nothing more until it is read. -/
def pipeCapacity : Nat := 65536

def bind (descriptor id : Nat) : System → System :=
  changeSelf fun p =>
    { p with descriptors := (descriptor, id) :: p.descriptors.filter (·.1 ≠ descriptor) }

def add (o : Opened) (s : System) : Nat × System :=
  (s.opened.size, { s with opened := s.opened.push o })

def seek (id position : Nat) (s : System) : System :=
  { s with opened := s.opened.modify id fun o => { o with position := position } }

/-- The bytes of a file from a place on, replaced. A gap is filled with zeros. -/
def splice (old : ByteArray) (position : Nat) (bytes : ByteArray) : ByteArray :=
  if position = old.size then old ++ bytes
  else
    let start := old.extract 0 position
    let gap : ByteArray := ⟨Array.replicate (position - start.size) 0⟩
    start ++ gap ++ bytes ++ old.extract (position + bytes.size) old.size

/-- What is open, with all its bytes, where that can be said. -/
def contents (s : System) : Body → Except SystemFault ByteArray
  | .path p => s.machine.files.read p
  | .memory id => .ok ((s.memory[id]?).getD .empty)
  | _ => .ok .empty

/-- Takes note that a file is written now. -/
def stamp (path : String) (s : System) : System :=
  match s.machine.files.find path with
  | .ok (r, _) => { s with stamps := (r, s.clock) :: s.stamps.filter (·.1 ≠ r) }
  | .error _ => s

/-- Whether both files are there, and the first was written later. -/
def isNewer (a b : String) : Request Bool := fun s =>
  s.answer <| match s.machine.files.find a, s.machine.files.find b with
    | .ok (r, _), .ok (q, _) => (s.stamps.lookup q).getD 0 < (s.stamps.lookup r).getD 0
    | _, _ => false

/-- At most so many bytes, at least one unless it is the end. -/
def read (descriptor count : Nat) : Request (Except SystemFault ByteArray) := fun s =>
  match s.openedAt? descriptor with
  | none => s.answer (.error .badDescriptor)
  | some (id, o) =>
    if !o.readable then s.answer (.error .badDescriptor)
    else match o.body with
      | .empty => s.answer (.ok .empty)
      | .zeros => s.answer (.ok ⟨Array.replicate count 0⟩)
      | .full => s.answer (.ok ⟨Array.replicate count 0⟩)
      | .pipe pipe =>
        let bytes := (s.pipes[pipe]?).getD .empty
        if bytes.size ≠ 0 then
          let rest := bytes.extract (min count bytes.size) bytes.size
          ({ s with pipes := s.pipes.set! pipe rest }).answer (.ok (bytes.extract 0 count))
        else if s.holdsPipe pipe (·.writable) then (none, s)
        else s.answer (.ok .empty)
      | body =>
        match s.contents body with
        | .error .missing => s.answer (.ok .empty)
        | .error e => s.answer (.error e)
        | .ok bytes =>
          let part := bytes.extract o.position (o.position + count)
          (s.seek id (o.position + part.size)).answer (.ok part)

/-- As `read`, but nothing after the first line feed. -/
def readLine (descriptor count : Nat) : Request (Except SystemFault ByteArray) := fun s =>
  let upTo (bytes : ByteArray) (start : Nat) : Nat :=
    match (List.range (min count (bytes.size - start))).find? fun i =>
      bytes[start + i]?.getD 0 = 10 with
    | some i => i + 1
    | none => count
  match s.openedAt? descriptor with
  | none => read descriptor count s
  | some (_, o) =>
    match o.body with
    | .pipe pipe => read descriptor (upTo ((s.pipes[pipe]?).getD .empty) 0) s
    | body =>
      match s.contents body with
      | .error _ => read descriptor count s
      | .ok bytes => read descriptor (upTo bytes o.position) s

/-- Moves back by so many bytes, where a file has places. -/
def unread (descriptor count : Nat) : Request Unit := fun s =>
  match s.openedAt? descriptor with
  | some (id, o) =>
    match o.body with
    | .path _ => (s.seek id (o.position - count)).answer ()
    | .memory _ => (s.seek id (o.position - count)).answer ()
    | _ => s.answer ()
  | none => s.answer ()

/-- Signals that do nothing unless they are caught. -/
def harmless : List Nat := [17, 18, 23, 28]

/-- Ends a process, and closes what it had open. -/
def finish (pid : Nat) (e : Ending) (s : System) : System :=
  let parent := ((s.process? pid).map (·.parent)).getD 0
  let s := s.change pid fun p =>
    { p with ending? := p.ending?.or (some e), descriptors := [], wake? := none }
  s.change parent fun p =>
    if p.caught.contains 17 then { p with pending := p.pending ++ [17] } else p

/-- Signals that stop a process; the first of them cannot be caught. -/
def stopping : List Nat := [19, 20, 21, 22]

/-- What a signal does to a process that is running. -/
def strike (pid signal : Nat) (s : System) : System :=
  match s.process? pid with
  | none => s
  | some p =>
    if p.ending?.isSome then s
    else if signal ≠ 19 && p.ignored.contains signal then s
    else if signal ≠ 19 && p.caught.contains signal then
      s.change pid fun p => { p with pending := p.pending ++ [signal] }
    else if harmless.contains signal then s
    else if stopping.contains signal then s.change pid fun p => { p with stopped := true }
    else s.finish pid (.signal signal)

/-- A process gets a signal. One that is stopped gets it when it goes on, unless it ends it. -/
def deliver (pid signal : Nat) (s : System) : System :=
  match s.process? pid with
  | none => s
  | some p =>
    if p.ending?.isSome || signal = 0 then s
    else if signal = 9 then s.finish pid (.signal 9)
    else if signal = 18 then
      let s := s.change pid fun p => { p with stopped := false, held := [] }
      (p.held ++ [18]).foldl (fun s n => s.strike pid n) s
    else if p.stopped then s.change pid fun p => { p with held := p.held ++ [signal] }
    else s.strike pid signal

/-- Writes what there is room for, and says how much that was. What is written to a file that was
removed is lost. -/
def write (descriptor : Nat) (bytes : ByteArray) : Request (Except SystemFault Nat) := fun s =>
  match s.openedAt? descriptor with
  | none => s.answer (.error .badDescriptor)
  | some (id, o) =>
    if !o.writable then s.answer (.error .badDescriptor)
    else match o.body with
      | .empty => s.answer (.ok bytes.size)
      | .zeros => s.answer (.ok bytes.size)
      | .full => s.answer (.error .noSpace)
      | .pipe pipe =>
        if !s.holdsPipe pipe (·.readable) then
          (s.deliver s.self 13).answer (.error .brokenPipe)
        else
          let room := pipeCapacity - ((s.pipes[pipe]?).getD .empty).size
          if room = 0 then (none, s)
          else
            let part := bytes.extract 0 room
            ({ s with pipes := s.pipes.modify pipe (· ++ part) }).answer (.ok part.size)
      | .memory m =>
        let position := if o.appends then ((s.memory[m]?).getD .empty).size else o.position
        let s := { s with memory := s.memory.modify m fun old => splice old position bytes }
        (s.seek id (position + bytes.size)).answer (.ok bytes.size)
      | .path p =>
        match s.machine.files.read p with
        | .error .missing => s.answer (.ok bytes.size)
        | .error e => s.answer (.error e)
        | .ok old =>
          let position := if o.appends then old.size else o.position
          match s.machine.files.write p (splice old position bytes) with
          | .error e => s.answer (.error e)
          | .ok files =>
            let s := { s with machine := { s.machine with files := files } }
            ((s.stamp p).seek id (position + bytes.size)).answer (.ok bytes.size)

/-- How a file is opened. -/
structure Access where
  readable : Bool
  writable : Bool
  appends : Bool
  creates : Bool
  truncates : Bool

namespace Access

def input : Access := ⟨true, false, false, false, false⟩
def output : Access := ⟨false, true, false, true, true⟩
def append : Access := ⟨false, true, true, true, false⟩
def both : Access := ⟨true, true, false, true, false⟩

end Access

/-- The descriptor that a path stands for. -/
def descriptorOf? (path : String) : Option Nat :=
  match path with
  | "/dev/stdin" => some 0
  | "/dev/stdout" => some 1
  | "/dev/stderr" => some 2
  | _ =>
    match Path.parent? path, Path.fileName? path with
    | some "/dev/fd", some name => name.toNat?
    | some "/proc/self/fd", some name => name.toNat?
    | _, _ => none

/-- Empties what is opened anew. -/
def truncate (body : Body) (s : System) : Except SystemFault System :=
  match body with
  | .memory m => .ok { s with memory := s.memory.setIfInBounds m .empty }
  | .path p =>
    (s.machine.files.write p .empty).map fun files =>
      ({ s with machine := { s.machine with files := files } }).stamp p
  | _ => .ok s

/-- What a path leads to, made if it is missing and may be made. -/
def bodyOf (access : Access) (path : String) (s : System) : Except SystemFault (Body × System) :=
  match path with
  | "/dev/null" => .ok (.empty, s)
  | "/dev/zero" => .ok (.zeros, s)
  | "/dev/full" => .ok (.full, s)
  | "/dev/tty" => .error .noDevice
  | _ =>
    match descriptorOf? path with
    | some d =>
      match s.openedAt? d with
      | some (_, o) => .ok (o.body, s)
      | none => .error .missing
    | none =>
      match s.machine.files.find path with
      | .ok (r, .file ..) => .ok (.path (FileTree.text r), s)
      | .ok (_, .directory) =>
        if access.writable then .error .isDirectory else .ok (.path path, s)
      | .error .missing =>
        match Surroundings.node? path with
        | some .directory => if access.writable then .error .isDirectory else .ok (.path path, s)
        | some (.file ..) => .ok (.empty, s)
        | none =>
          if access.creates then
            ((Surroundings.withParent s.machine.files path).write path .empty).map fun files =>
              (.path path, ({ s with machine := { s.machine with files := files } }).stamp path)
          else .error .missing
      | .error e => .error e

def open_ (access : Access) (path : String) : Request (Except SystemFault Nat) := fun s =>
  match s.bodyOf access path with
  | .error e => s.answer (.error e)
  | .ok (body, s) =>
    match if access.truncates then s.truncate body else .ok s with
    | .error e => s.answer (.error e)
    | .ok s =>
      let (id, s) := s.add ⟨body, 0, access.readable, access.writable, access.appends⟩
      s.answer (.ok id)

/-- Bytes to be read, as from a pipe that nobody writes to any more. -/
def openBytes (bytes : ByteArray) : Request Nat := fun s =>
  let (id, s) := { s with pipes := s.pipes.push bytes }.add
    ⟨.pipe s.pipes.size, 0, true, false, false⟩
  s.answer id

/-- Both ends of a new pipe, the one to read from first. -/
def openPipe : Request (Nat × Nat) := fun s =>
  let pipe := Body.pipe s.pipes.size
  let (source, s) := { s with pipes := s.pipes.push .empty }.add ⟨pipe, 0, true, false, false⟩
  let (sink, s) := s.add ⟨pipe, 0, false, true, false⟩
  s.answer (source, sink)

def place (descriptor id : Nat) : Request Unit := fun s =>
  (s.bind descriptor id).answer ()

def close (descriptor : Nat) : Request Unit := fun s =>
  (s.changeSelf fun p =>
    { p with descriptors := p.descriptors.filter (·.1 ≠ descriptor) }).answer ()

def lookUp (descriptor : Nat) : Request (Option Nat) := fun s =>
  s.answer ((s.process? s.self).bind fun p => p.descriptors.lookup descriptor)

/-- Descriptors from here on belong to the shell itself; a program that is started has none of
them. -/
def firstOwn : Nat := 10

/-- Puts what is open under the first free descriptor of the shell itself. -/
def hold (id : Nat) : Request Nat := fun s =>
  let used := ((s.process? s.self).map (·.descriptors)).getD []
  let isFree (d : Nat) : Bool := (used.lookup d).isNone
  let d := ((List.range' firstOwn (used.length + 1)).find? isFree).getD firstOwn
  (s.bind d id).answer d

/-- Closes what belongs to the shell itself. -/
def closeOwn : Request Unit := fun s =>
  (s.changeSelf fun p =>
    { p with descriptors := p.descriptors.filter (·.1 < firstOwn) }).answer ()

/-- Whether what is open has bytes and places. -/
def isPlain (id : Nat) : Request Bool := fun s =>
  s.answer <| match s.opened[id]? with
    | some o =>
      match o.body with
      | .path _ => true
      | .memory _ => true
      | _ => false
    | none => false

def onMachine {α : Type} (a : StateM Machine α) : Request α := fun s =>
  let (r, machine) := a.run s.machine
  { s with machine := machine }.answer r

/-- A change of the machine that leaves a file written. -/
def onFile {α : Type} (path : String) (a : StateM Machine α) : Request α := fun s =>
  let (r, machine) := a.run s.machine
  (({ s with machine := machine }).stamp path).answer r

def now : Request Nat := fun s =>
  s.answer s.clock

/-- Answered when the clock has come so far. -/
def sleepUntil (time : Nat) : Request Unit := fun s =>
  if time ≤ s.clock then (s.changeSelf fun p => { p with wake? := none }).answer ()
  else (none, s.changeSelf fun p => { p with wake? := some time })

/-- The first of some processes that ended; it is not known any more afterwards. Without an answer
when none of them is known, or when a signal came that is to be looked at. -/
def await (pids : List Nat) (breakable : Bool) : Request (Option (Nat × Ending)) := fun s =>
  let mine := s.processes.filter fun p => pids.contains p.pid
  let interrupted := breakable && ((s.process? s.self).any fun p => !p.pending.isEmpty)
  match mine.findSome? fun p => p.ending?.map fun e => (p.pid, e) with
  | some (pid, e) =>
    { s with processes := s.processes.filter fun p => p.pid ≠ pid }.answer (some (pid, e))
  | none => if mine.isEmpty || interrupted then s.answer none else (none, s)

/-- Those of some processes that have ended; they are not known any more afterwards. -/
def reap (pids : List Nat) : Request (List (Nat × Ending)) := fun s =>
  let ended := (s.processes.filter fun p => pids.contains p.pid).filterMap fun p =>
    p.ending?.map fun e => (p.pid, e)
  if ended.isEmpty then s.answer []
  else { s with processes := s.processes.filter fun p =>
    (ended.lookup p.pid).isNone }.answer ended

/-- The lowest of the signals that came, which has then been looked at. -/
def takeSignal : Request (Option Nat) := fun s =>
  match ((s.process? s.self).map (·.pending)).getD [] with
  | [] => s.answer none
  | n :: rest =>
    let least := rest.foldl min n
    (s.changeSelf fun p =>
      { p with pending := p.pending.filter (· ≠ least) }).answer (some least)

/-- The lowest of the signals that came. -/
def pendingSignal : Request (Option Nat) := fun s =>
  s.answer (((s.process? s.self).map (·.pending)).getD []).min?

/-- What becomes of a signal from now on. -/
def arrange (signal : Nat) (caught ignored : Bool) : Request Unit := fun s =>
  (s.changeSelf fun p =>
    if p.deaf.contains signal then p
    else { p with
      caught := p.caught.filter (· ≠ signal) ++ (if caught then [signal] else [])
      ignored := p.ignored.filter (· ≠ signal) ++ (if ignored then [signal] else []) }).answer ()

/-- Some signals are ignored from now on for good. -/
def deafen (signals : List Nat) : Request Unit := fun s =>
  (s.changeSelf fun p => { p with
    caught := p.caught.filter fun n => !signals.contains n
    ignored := p.ignored ++ signals
    deaf := p.deaf ++ signals }).answer ()

/-- What is ignored now is ignored for good. -/
def keepIgnored : Request Unit := fun s =>
  (s.changeSelf fun p => { p with deaf := p.ignored }).answer ()

/-- Signals that were caught do again what they usually do. -/
def forgetCaught : Request Unit := fun s =>
  (s.changeSelf fun p => { p with caught := [], pending := [] }).answer ()

/-- Whether there is such a process. Zero stands for all; the first process of the machine is always
there. -/
def kill (pid signal : Nat) : Request Bool := fun s =>
  if pid = 0 then ((s.processes.map (·.pid)).foldl (fun s p => s.deliver p signal) s).answer true
  else if (s.process? pid).isSome then (s.deliver pid signal).answer true
  else if pid = 1 then s.answer true
  else s.answer false

/-- A process ends by its own will. -/
def exit (code : Nat) : Request Unit := fun s =>
  (s.finish s.self (.code code)).answer ()

def ownId : Request Nat := fun s =>
  s.answer s.self

def parentId : Request Nat := fun s =>
  s.answer (((s.process? s.self).map (·.parent)).getD 0)

/-- A new process with everything open that its parent has open. -/
def spawn (s : System) : Nat × System :=
  let pid := s.processes.foldl (fun n p => max n p.pid) s.self + 1
  match s.process? s.self with
  | none => (pid, s)
  | some p =>
    (pid, { s with processes := s.processes ++
      [{ p with
        pid := pid, parent := s.self, wake? := none, pending := [], held := [], stopped := false
        ending? := none }] })

end System

end Culprit.Shell
