import Culprit.Process
import Culprit.Rehearsal.Manifest

/-!
Scripted answers in place of running programs. Rules are tried in order, and the first whose
condition holds answers; without such a rule a program ends well and prints nothing.
-/

namespace Culprit.Rehearsal

inductive Condition where
  | unit (unit : String)
  | symbol (unit symbol : String)
  | allTrusted
  | minUnits (count : Nat)
  | variantFlags (text : String)
  | program (path : String)
  | argument (text : String)
  | argumentEnd (text : String)
  /-- The number of the consultation, from one. -/
  | call (number : Nat)
  | callFrom (number : Nat)
  | any (conditions : List Condition)
  | all (conditions : List Condition)
  | not (condition : Condition)
deriving Inhabited

/-- What a rule may look at. -/
structure Occasion where
  manifest? : Option Manifest
  invocation : Invocation
  call : Nat

namespace Occasion

def about (o : Occasion) (f : Manifest → Bool) : Bool :=
  match o.manifest? with
  | some m => f m
  | none => false

end Occasion

namespace Condition

mutual

def holds (o : Occasion) : Condition → Bool
  | .unit u => o.about (·.isVariantUnit u)
  | .symbol u s => o.about (·.isVariantSymbol u s)
  | .allTrusted => o.about (·.isAllTrusted)
  | .minUnits n => o.about fun m => n ≤ m.units.length
  | .variantFlags t => o.about fun m => m.variant = t
  | .program p => o.invocation.program = p
  | .argument a => o.invocation.args.contains a
  | .argumentEnd a => o.invocation.args.any fun x => a.toList.isSuffixOf x.toList
  | .call n => o.call = n
  | .callFrom n => n ≤ o.call
  | .any cs => anyHolds o cs
  | .all cs => allHold o cs
  | .not c => !holds o c

def anyHolds (o : Occasion) : List Condition → Bool
  | [] => false
  | c :: cs => holds o c || anyHolds o cs

def allHold (o : Occasion) : List Condition → Bool
  | [] => true
  | c :: cs => holds o c && allHold o cs

end

end Condition

inductive Reply where
  | refuse (reason : String)
  | exit (code : Int) (stderr : String)
  | hang
  /-- The base and the terms whose conditions hold, added up and printed on a line. -/
  | sum (base : Int) (terms : List (Condition × Int))
  | print (text : String)

structure Rule where
  /-- Nothing for a rule that always answers. -/
  when? : Option Condition
  /-- Ask for the run to stop. -/
  cancels : Bool
  /-- A file to write where the program runs, with its text. -/
  writes? : Option (String × String)
  reply : Reply

namespace Rule

def applies (o : Occasion) (r : Rule) : Bool :=
  match r.when? with
  | none => true
  | some c => c.holds o

end Rule

def total (o : Occasion) (base : Int) (terms : List (Condition × Int)) : Int :=
  base + ((terms.filter fun t => t.1.holds o).map (·.2)).foldr (· + ·) 0

/-- A reply as the end of a program that ran for a millisecond, or the reason of a refusal. -/
def Reply.ended (o : Occasion) : Reply → Except String Ended
  | .refuse reason => .error reason
  | .exit code stderr => .ok ⟨.code code, "", stderr, 1⟩
  | .hang => .ok ⟨.timedOut, "", "", 1⟩
  | .sum base terms => .ok ⟨.code 0, toString (total o base terms) ++ "\n", "", 1⟩
  | .print text => .ok ⟨.code 0, text, "", 1⟩

def firstRule (o : Occasion) (rules : List Rule) : Option Rule :=
  rules.find? (·.applies o)

end Culprit.Rehearsal
