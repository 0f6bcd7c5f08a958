import Culprit.Report.Codec
import Culprit.Shell.Run

/-!
Starting a program on the machine. A program that cannot be started is an error; one that was
started ends by itself, by a signal, by running out of time or because the run was asked to stop,
and keeps what it has printed. The shell and its tools are there for the command line, which runs
real programs; what is proved about the search holds whatever a runner does.
-/

namespace Culprit.Shell

/-- The process that a program begins as. -/
def firstPid : Nat := 100

/-- Milliseconds between two looks at a program that is running. -/
def lookInterval : Nat := 20

/-- Variables that a program finds. -/
def firstVariables : List (String × String) :=
  [("PATH", String.intercalate ":" Surroundings.toolDirectories), ("HOME", "/root")]

/-- The directory that a program starts in. -/
def directoryOf (m : Machine) (i : Invocation) : Except SystemFault String :=
  match i.cwd? with
  | none => .ok m.cwd
  | some dir =>
    match m.files.find (m.absolute dir) with
    | .error fault => .error fault
    | .ok (_, .file ..) => .error .notDirectory
    | .ok (r, .directory) => .ok (FileTree.text r)

def firstFrame (cwd : String) : Frame :=
  let given : List (String × Variable) :=
    firstVariables.map fun v => (v.1, ⟨some v.2, true, false⟩)
  { Run.fresh "" firstPid 1 ⟨"", 0, none, [], given, [], [], [], [], [], Bytes.spread cwd, 0o022, 0,
      0, firstPid, none, [], 0, [], .start, #[], "", none⟩ with vars := given }

/-- Nothing to read, and a file each for the output and the errors. -/
def firstSystem (m : Machine) : System where
  machine := m
  opened := #[⟨.empty, 0, true, false, false⟩, ⟨.memory 0, 0, true, true, false⟩,
    ⟨.memory 1, 0, true, true, false⟩]
  memory := #[.empty, .empty]
  pipes := #[]
  processes := [⟨firstPid, 1, [(0, 0), (1, 1), (2, 2)], none, [], [], [], [], false, [], none⟩]
  self := firstPid
  clock := 0
  stamps := []

def hasZero (s : String) : Bool :=
  s.toList.contains '\x00'

/-- What is started, and in which directory. -/
def prepare (m : Machine) (i : Invocation) (program : String) (args : List String) :
    Except SystemFault (Start × String) :=
  if (i.argv ++ i.cwd?.toList).any hasZero then .error .zeroByte
  else match directoryOf m i with
    | .error fault => .error fault
    | .ok cwd =>
      let path := (firstVariables.lookup "PATH").getD ""
      (Start.find m.files (Bytes.spread cwd) path (Bytes.spread program)
        (args.map Bytes.spread)).map fun start => (start, cwd)

/-- A program that ended, with the bytes that it printed. -/
structure Finished where
  exit : Exit
  stdout : ByteArray
  stderr : ByteArray
  ms : Nat

namespace Finished

/-- What is no text is replaced. -/
def ended (f : Finished) : Ended :=
  ⟨f.exit, Text.Utf8.toStringLossy f.stdout, Text.Utf8.toStringLossy f.stderr, f.ms⟩

def cancelled : Finished := ⟨.cancelled, .empty, .empty, 0⟩

/-- How a program ended, when nothing more is seen of it. One that is still running has run out of
time. -/
def of (s : System) : Finished where
  exit := match (s.process? firstPid).bind (·.ending?) with
    | some (.code n) => .code n
    | some (.signal _) => .signaled
    | none => .timedOut
  stdout := (s.memory[0]?).getD .empty
  stderr := (s.memory[1]?).getD .empty
  ms := s.clock

end Finished

/-- Runs what was started, and what it starts. -/
def carryOut (start : Start) (cwd : String) (limit : Nat) (m : Machine) : System :=
  let main : Act Unit := Run.begin_ Act.endless start
  let first : Thread := ⟨firstPid, discard (main.run.run (firstFrame cwd))⟩
  (turns ⟨firstPid, lookInterval, limit⟩ patience share 0 [first] ⟨firstSystem m, none⟩).system

/-- A machine that was asked to stop ends a program before it prints anything. -/
def follow (start : Start) (cwd : String) (limit : Nat) : StateM Machine Finished := fun m =>
  if m.cancelled then (.cancelled, m)
  else
    let s := carryOut start cwd limit m
    (Finished.of s, s.machine)

def launch (i : Invocation) (limit : Nat) : Attempt Machine Finished :=
  match i.argv with
  | [] => throw .emptyInvocation
  | program :: args => do
    match prepare (← get) i program args with
    | .error fault => throw (.run (.spawn program { fault := fault }))
    | .ok (start, cwd) => ExceptT.lift (follow start cwd limit)

def runner : Runner Machine := fun i limit => do
  let done ← launch i limit
  pure done.ended

/-- The first line that a compiler prints of its version, if it prints one. -/
def banner? (binary : String) : StateM Machine (Option String) := do
  match ← (launch ⟨binary, ["--version"], none, []⟩ 0).run with
  | .error _ => pure none
  | .ok done =>
    if done.exit ≠ .code 0 then pure none
    else
      let text := (Text.Utf8.toString? done.stdout).getD ""
      let line := Text.trim ((Text.lines text).headD "")
      pure (if line.isEmpty then none else some line)

/-- Asks each compiler for its version; one that does not answer is left out. -/
def banners (e : Environment) : List String → StateM Machine Environment
  | [] => pure e
  | binary :: rest => do
    match ← banner? binary with
    | none => banners e rest
    | some line =>
      banners { e with compilers := Environment.insertSorted binary line e.compilers } rest

@[simp] theorem banners_nil (e : Environment) : banners e [] = pure e := rfl

end Culprit.Shell
