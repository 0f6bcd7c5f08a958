import Culprit.Rehearsal.Pipeline
import Culprit.Toolchain.Pipeline

/-!
A toolchain whose tools are scripted: every call of a compiler, of `nm` or of `objcopy` is answered
by a rule and kept. A call that comes after the run was asked to stop is cancelled and not kept.
-/

namespace Culprit.Rehearsal

structure Workbench where
  machine : Machine
  rules : List Rule
  /-- Times that the rules were consulted. -/
  calls : Nat
  /-- What was called, in order. -/
  seen : List Invocation

namespace Workbench

def onMachine {α : Type} (a : StateM Machine α) : StateM Workbench α := fun w =>
  let (r, machine) := a w.machine
  (r, { w with machine := machine })

def answer (i : Invocation) : StateM Workbench (Except Error Ended) := do
  let w ← get
  let o : Occasion := ⟨none, i, w.calls + 1⟩
  set { w with calls := w.calls + 1, seen := w.seen ++ [i] }
  match firstRule o w.rules with
  | none => pure (.ok ⟨.code 0, "", "", 1⟩)
  | some rule => do
    onMachine (rule.obey i)
    pure ((rule.reply.ended o).mapError fun reason => .run (.reported reason))

def runner : Runner Workbench := fun i _ => ExceptT.mk do
  if ← onMachine Machine.isCancelled then pure (.ok cancelledEnd) else answer i

/-- Calls take no time that a clock would show. -/
def host (cwd : String) : Toolchain.Host Workbench where
  runner := runner
  cancelled := onMachine Machine.isCancelled
  clock := pure 0
  createDirectories path := onMachine (Machine.createDirectories path)
  walk path := onMachine (Machine.walk path)
  cwd := cwd

end Workbench

end Culprit.Rehearsal
