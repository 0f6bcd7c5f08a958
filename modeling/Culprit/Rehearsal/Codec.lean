import Culprit.Json.Decode
import Culprit.Rehearsal.Script

/-!
Scripts as JSON. A condition is an object with one field, named for what it looks at; a rule has a
field for each thing that it does. Of several replies in one rule the first counts, in the order
refusal, exit, hanging, sum, output.
-/

namespace Culprit.Rehearsal

def integer? : Json → Option Int
  | .integer n => some n
  | _ => none

namespace Condition

mutual

def ofJson? : Json → Option Condition
  | .object [("unit", .string u)] => some (.unit u)
  | .object [("symbol", .array [.string u, .string s])] => some (.symbol u s)
  | .object [("all_trusted", _)] => some .allTrusted
  | .object [("min_units", .integer n)] => some (.minUnits n.toNat)
  | .object [("variant_flags", .string t)] => some (.variantFlags t)
  | .object [("program", .string p)] => some (.program p)
  | .object [("arg", .string a)] => some (.argument a)
  | .object [("arg_ends", .string a)] => some (.argumentEnd a)
  | .object [("call", .integer n)] => some (.call n.toNat)
  | .object [("call_ge", .integer n)] => some (.callFrom n.toNat)
  | .object [("any", .array cs)] => (listOfJson? cs).map .any
  | .object [("all", .array cs)] => (listOfJson? cs).map .all
  | .object [("not", c)] => (ofJson? c).map .not
  | _ => none

def listOfJson? : List Json → Option (List Condition)
  | [] => some []
  | j :: rest => do
    let c ← ofJson? j
    let cs ← listOfJson? rest
    pure (c :: cs)

end

end Condition

def termOfJson? : Json → Option (Condition × Int)
  | .array [c, .integer n] => (Condition.ofJson? c).map fun c => (c, n)
  | _ => none

def sumOfJson? (j : Json) : Option Reply := do
  let f ← j.fields? ["base", "terms"]
  let base ← f.withDefault? "base" 0 integer?
  let terms ← f.withDefault? "terms" [] (Json.array? termOfJson?)
  pure (.sum base terms)

namespace Rule

def known : List String :=
  ["when", "cancel", "write", "text", "spawn_error", "exit", "stderr", "hang", "sum", "output"]

def replyOf? (f : Json.Fields) : Option Reply := do
  let refusal? ← f.optional? "spawn_error" Json.string?
  let exit? ← f.optional? "exit" integer?
  let stderr ← f.withDefault? "stderr" "" Json.string?
  let hangs ← f.withDefault? "hang" false Json.bool?
  let sum? ← f.optional? "sum" sumOfJson?
  let output? ← f.optional? "output" Json.string?
  pure <| match refusal?, exit?, hangs, sum? with
    | some reason, _, _, _ => .refuse reason
    | none, some code, _, _ => .exit code stderr
    | none, none, true, _ => .hang
    | none, none, false, some sum => sum
    | none, none, false, none => .print (output?.getD "")

def ofJson? (j : Json) : Option Rule := do
  let f ← j.fields? known
  let when? ← f.optional? "when" Condition.ofJson?
  let cancels ← f.withDefault? "cancel" false Json.bool?
  let file? ← f.optional? "write" Json.string?
  let text? ← f.optional? "text" Json.string?
  let reply ← replyOf? f
  pure ⟨when?, cancels, file?.map fun name => (name, text?.getD ""), reply⟩

end Rule

end Culprit.Rehearsal
