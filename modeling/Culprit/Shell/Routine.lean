import Culprit.Shell.System

/-!
What a process does, one request after the other, and how several processes take turns. A process
goes on until it has to wait or has had its share; when all of them wait, the clock goes on to the
moment at which the next one wakes.
-/

namespace Culprit.Shell

inductive Routine : Type → Type 1 where
  | done {α : Type} (a : α) : Routine α
  | ask {α β : Type} (request : Request β) (next : β → Routine α) : Routine α
  /-- A new process begins beside this one, which learns its number. -/
  | fork {α : Type} (child : Routine Unit) (next : Nat → Routine α) : Routine α

namespace Routine

def bind {α β : Type} : Routine α → (α → Routine β) → Routine β
  | .done a, f => f a
  | .ask request next, f => .ask request fun b => (next b).bind f
  | .fork child next, f => .fork child fun pid => (next pid).bind f

instance : Monad Routine where
  pure := .done
  bind := bind

@[simp] theorem done_bind {α β : Type} (a : α) (f : α → Routine β) : (done a).bind f = f a := rfl

@[simp] theorem bind_done {α : Type} (r : Routine α) : r.bind done = r := by
  induction r with
  | done a => rfl
  | ask request next ih => simp [bind, ih]
  | fork child next _ ih => simp [bind, ih]

theorem bind_assoc {α β γ : Type} (r : Routine α) (f : α → Routine β) (g : β → Routine γ) :
    (r.bind f).bind g = r.bind fun a => (f a).bind g := by
  induction r with
  | done a => rfl
  | ask request next ih => simp [bind, ih]
  | fork child next _ ih => simp [bind, ih]

end Routine

/-- A process with what it has still to do. -/
structure Thread where
  pid : Nat
  routine : Routine Unit

/-- Requests that a process makes before another one has its turn; they take a millisecond. -/
def share : Nat := 300

/-- When to look whether the program has ended: every so many milliseconds. -/
structure Watch where
  /-- The process that the program is. -/
  main : Nat
  every : Nat
  /-- How long it may take; zero for any time. -/
  limit : Nat

namespace Watch

/-- The first look at this time or after it. -/
def look (w : Watch) (time : Nat) : Nat :=
  (time + w.every - 1) / w.every * w.every

/-- The time at which the program is stopped if it has not ended. -/
def deadline? (w : Watch) : Option Nat :=
  if w.limit = 0 then none else some (w.look w.limit)

end Watch

/-- How far the processes have come, with the time at which they are looked at for the last time
once the program has ended. -/
structure Progress where
  system : System
  stop? : Option Nat

namespace Progress

/-- Notices that the program has ended. -/
def noted (w : Watch) (p : Progress) : Progress :=
  if p.stop?.isSome then p
  else match (p.system.process? w.main).bind (·.ending?) with
    | some _ => { p with stop? := some (max w.every (w.look p.system.clock)) }
    | none => p

/-- Whether there is nothing more to see. -/
def isOver (w : Watch) (p : Progress) : Bool :=
  match p.stop?, w.deadline? with
  | some stop, _ => stop ≤ p.system.clock
  | none, some deadline => deadline ≤ p.system.clock
  | none, none => false

/-- The clock goes on to the next moment at which a process wakes, or to the last look. -/
def wake? (w : Watch) (p : Progress) : Option Progress :=
  let wakes := p.system.processes.filterMap fun q =>
    if q.ending?.isSome || q.stopped then none else q.wake?
  let moments := wakes ++ p.stop?.toList ++ (if p.stop?.isSome then [] else w.deadline?.toList)
  (moments.min?).map fun t => { p with system := { p.system with clock := max t p.system.clock } }

end Progress

/-- The next process is the first of the queue. `left` counts what remains of its share, and `idle`
the processes that have been found waiting in a row. -/
def turns (w : Watch) : Nat → (left idle : Nat) → List Thread → Progress → Progress
  | 0, _, _, _, p => p
  | _, _, _, [], p => p
  | steps + 1, left, idle, t :: rest, p =>
    let p := p.noted w
    if p.isOver w then p
    else if ((p.system.process? t.pid).bind (·.ending?)).isSome ||
        (p.system.process? t.pid).isNone then
      turns w steps share 0 rest p
    else if left = 0 then
      let clock := p.system.clock + 1
      turns w steps share 0 (rest ++ [t]) { p with system := { p.system with clock := clock } }
    else
      let system := { p.system with self := t.pid }
      match t.routine with
      | .done () =>
        turns w steps share 0 rest { p with system := system.finish t.pid (.code 0) }
      | .fork child next =>
        let (pid, system) := system.spawn
        turns w steps (left - 1) 0 (⟨t.pid, next pid⟩ :: rest ++ [⟨pid, child⟩])
          { p with system := system }
      | .ask request next =>
        let isStopped := (p.system.process? t.pid).any (·.stopped)
        match if isStopped then (none, system) else request system with
        | (some b, system) =>
          turns w steps (left - 1) 0 (⟨t.pid, next b⟩ :: rest) { p with system := system }
        | (none, system) =>
          let p := { p with system := system }
          if idle < rest.length then turns w steps share (idle + 1) (rest ++ [t]) p
          else match p.wake? w with
            | some p => turns w steps share 0 (t :: rest) p
            | none => p

/-- More turns than any program is given. -/
def patience : Nat := 30000000

end Culprit.Shell
