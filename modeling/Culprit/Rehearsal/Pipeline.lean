import Culprit.Json.Reader
import Culprit.Machine
import Culprit.Rehearsal.Script
import Culprit.TrialLog
import Culprit.Workspace

/-!
A rehearsal of a bisection. Builds write a manifest and a file of the size of an executable instead
of compiling; programs are answered by rules that look at the manifest.
-/

namespace Culprit.Rehearsal

/-- The project that is rehearsed. -/
structure Project where
  units : List SourceUnit
  symbols : List (String × List LinkSymbol)
  /-- Units that do not compile with variant flags, ascending. -/
  failing : List String
  executableBytes : Nat
  /-- Why the units cannot be listed, if so. -/
  unitsError? : Option String
  /-- Why the symbols of a unit cannot be listed, by unit key. -/
  symbolErrors : List (String × String)
  /-- The build before which the run is asked to stop, from one; zero for none. -/
  cancelOnBuild : Nat

/-- The symbols that a unit is said to have, one every ten lines. -/
def symbolsOf (unit : String) (names : List String) : List LinkSymbol :=
  names.zipIdx.map fun p => ⟨unit, p.1, p.1 ++ "()", some unit, some (10 * (p.2 + 1))⟩

def numbered (count : Nat) : List SourceUnit :=
  (List.range count).map fun i => ⟨"unit" ++ toString (i + 1) ++ ".cpp"⟩

structure World where
  machine : Machine
  rules : List Rule
  /-- Programs started, cancelled ones included. -/
  runs : Nat
  /-- Times that the rules were consulted. -/
  calls : Nat
  builds : Nat
  /-- The trials that were shown, by their numbers. -/
  shown : List Nat

namespace World

def onMachine {α : Type} (a : StateM Machine α) : StateM World α := fun w =>
  let (r, machine) := a w.machine
  (r, { w with machine := machine })

def attempt {α : Type} (a : ExceptT Error (StateM Machine) α) : Attempt World α :=
  ExceptT.mk (onMachine a.run)

end World

/-- What a rule does before it answers. -/
def Rule.obey (i : Invocation) (r : Rule) : StateM Machine Unit := do
  if r.cancels then Machine.cancel
  match r.writes?, i.cwd? with
  | some (name, text), some cwd => discard (Machine.writeText (Path.join cwd name) text)
  | _, _ => pure ()

/-- The rules answer. -/
def consult (manifest? : Option Manifest) (i : Invocation) : Attempt World Ended := do
  let w ← get
  let o : Occasion := ⟨manifest?, i, w.calls + 1⟩
  set { w with calls := w.calls + 1 }
  match firstRule o w.rules with
  | none => pure ⟨.code 0, "", "", 1⟩
  | some rule => do
    ExceptT.lift (World.onMachine (rule.obey i))
    Attempt.of ((rule.reply.ended o).mapError fun reason => .run (.reported reason))

def cancelledEnd : Ended := ⟨.cancelled, "", "", 0⟩

/-- The manifest beside an executable. -/
def loadManifest (executable : String) : Attempt World Manifest := do
  let path := Path.join ((Path.parent? executable).getD ".") Manifest.fileName
  match ← ExceptT.lift (World.onMachine (Machine.readText path)) with
  | .error e => throw (.file (.read path) e)
  | .ok text =>
    match (Json.parse? text).bind Manifest.ofJson? with
    | some m => pure m
    | none => throw (.reported "")

/-- Runs the executable of a rehearsed build. -/
def runner : Runner World := fun i _ => do
  modify fun w => { w with runs := w.runs + 1 }
  if ← ExceptT.lift (World.onMachine Machine.isCancelled) then pure cancelledEnd
  else
    match ← ExceptT.lift (loadManifest i.program).result with
    | .ok m => consult (some m) i
    | .error e => pure ⟨.code 127, "", e.message, 1⟩

namespace Project

variable (p : Project)

/-- The first failing unit that has anything variant. -/
def failingUnit? (m : Manifest) : Option String :=
  p.failing.find? fun u => m.isVariantUnit u || !(m.symbolsOf u).isEmpty

def listUnits : Attempt World (List SourceUnit) :=
  match p.unitsError? with
  | some reason => throw (.reported reason)
  | none => pure p.units

def listSymbols (unit : SourceUnit) : Attempt World (List LinkSymbol) :=
  match p.symbolErrors.lookup unit.key with
  | some reason => throw (.build (.reported reason))
  | none => pure ((p.symbols.reverse.lookup unit.key).getD [])

def writeFile (task : FileTask) (path : String) (bytes : ByteArray) : Attempt World Unit := do
  match ← ExceptT.lift (World.onMachine (Machine.write path bytes)) with
  | .error e => throw (.file task e)
  | .ok () => pure ()

def executableName : String := "test-bin"

def build (q : BuildRequest) : Attempt World Built := do
  modify fun w => { w with builds := w.builds + 1 }
  if (← get).builds = p.cancelOnBuild then
    ExceptT.lift (World.onMachine Machine.cancel)
  if ← ExceptT.lift (World.onMachine Machine.isCancelled) then throw (.build .cancelled)
  else
    let m := Manifest.of q.partition q.trusted.display q.variant.display
    match p.failingUnit? m with
    | some unit => throw (.build (.rehearsed unit))
    | none => do
      let executable := Path.join q.workdir executableName
      writeFile .writeManifest (Path.join q.workdir Manifest.fileName) m.toJson.pretty.toUTF8
      writeFile .writeExecutable executable ⟨Array.replicate p.executableBytes 0⟩
      pure ⟨executable, 1, p.units.length⟩

def pipeline : Pipeline World where
  name := "mock"
  units := p.listUnits
  symbols unit _ _ _ := p.listSymbols unit
  build := p.build
  compilerOf f := f.compiler

/-- The collaborators of a rehearsal. The log is kept in a file when a path is given. -/
def lab (area : WorkArea) (comparator : Comparator) (log? : Option String) (cwd : String) :
    Lab World where
  cancelled := World.onMachine Machine.isCancelled
  pipeline := p.pipeline
  runner := runner
  comparator := comparator
  readText path := World.onMachine (Machine.readText path)
  makeDirectory label := World.attempt (area.makeDirectory label)
  removeDirectory path := World.attempt (WorkArea.removeDirectory path)
  deletes := area.deletes
  appendLog t :=
    match log? with
    | some path => World.attempt (TrialLog.append path t)
    | none => pure ()
  observe t := modify fun w => { w with shown := w.shown ++ [t.seq] }
  now := pure ""
  cwd := cwd

end Project

end Culprit.Rehearsal
