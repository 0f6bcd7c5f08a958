import Culprit.Text.Hex

/-!
Integer expressions of the shell, with 64 bits and the operators of C. Reading and evaluating are
two steps: the tree of an expression is read first, with what is wrong kept at the place where it is
found, so that a mistake counts only after what stands before it has been evaluated.
-/

namespace Culprit.Shell.Arithmetic

/-- Integers of 64 bits with their sign. -/
def wrap (n : Int) : Int :=
  Int.bmod n (Nat.pow 2 64)

def largest : Int := Int.pow 2 63 - 1

def smallest : Int := -Int.pow 2 63

def isBlank (c : Char) : Bool :=
  c = ' ' || c = '\t' || c = '\n'

/-- What the library of C counts as a blank. -/
def isSpace (c : Char) : Bool :=
  c = ' ' || ('\t' ≤ c && c ≤ '\r')

def isDigitOf (base : Nat) (c : Char) : Bool :=
  (Text.Hex.digitValue? c).any fun d => d < base

def ofDigits (base : Nat) (cs : List Char) : Nat :=
  cs.foldl (fun n c => base * n + (Text.Hex.digitValue? c).getD 0) 0

/-- The base that the first digits tell, and the other digits. -/
def baseOf : List Char → Nat × List Char
  | '0' :: x :: d :: r =>
    if (x = 'x' || x = 'X') && isDigitOf 16 d then (16, d :: r)
    else if (x = 'b' || x = 'B') && isDigitOf 2 d then (2, d :: r)
    else (8, '0' :: x :: d :: r)
  | '0' :: r => (8, '0' :: r)
  | cs => (10, cs)

/-- The number at the start of a text, which a sign may precede, and the text after it; nothing when
no digit comes. -/
def leading? (base? : Option Nat) (cs : List Char) : Option (Int × List Char) :=
  let cs := cs.dropWhile isSpace
  let (negative, cs) := match cs with
    | '-' :: r => (true, r)
    | '+' :: r => (false, r)
    | cs => (false, cs)
  let (base, cs) := match base? with
    | some b => (b, cs)
    | none => baseOf cs
  let digits := cs.takeWhile (isDigitOf base)
  if digits.isEmpty then none
  else
    let n : Int := ofDigits base digits
    some (if negative then -n else n, cs.drop digits.length)

/-- The number that a text is. Blanks may stand around it. -/
def ofText? (base? : Option Nat) (text : String) : Option Int := do
  let (n, rest) ← leading? base? text.toList
  if (rest.dropWhile isSpace).isEmpty && smallest ≤ n && n ≤ largest then some n else none

/-- The number that a variable holds; one that is empty holds zero. -/
def valueOf? (text : String) : Option Int :=
  if text.toList.all isSpace then some 0 else ofText? none text

inductive Binary where
  | multiply | divide | remainder | add | subtract | shiftLeft | shiftRight | less | lessOrEqual
  | greater | greaterOrEqual | equal | notEqual | bitAnd | bitXor | bitOr
deriving DecidableEq, Repr

namespace Binary

/-- The lower, the tighter it binds. -/
def rank : Binary → Nat
  | .multiply | .divide | .remainder => 0
  | .add | .subtract => 1
  | .shiftLeft | .shiftRight => 2
  | .less | .lessOrEqual | .greater | .greaterOrEqual => 3
  | .equal | .notEqual => 4
  | .bitAnd => 5
  | .bitXor => 6
  | .bitOr => 7

/-- More than any rank. -/
def loosest : Nat := 8

end Binary

inductive Unary where
  | minus
  | logicalNot
  | bitNot
deriving DecidableEq, Repr

inductive Token where
  | finish
  | number (n : Int)
  | name (s : String)
  | opening
  | closing
  | question
  | colon
  | both
  | either
  | logicalNot
  | bitNot
  | binary (op : Binary)
  | assign (op? : Option Binary)
  | bad
deriving DecidableEq, Repr

namespace Token

/-- Operators that an equals sign makes into assignments. -/
def updating : List (String × Binary) :=
  [("<<", .shiftLeft), (">>", .shiftRight), ("*", .multiply), ("/", .divide), ("%", .remainder),
    ("+", .add), ("-", .subtract), ("|", .bitOr), ("&", .bitAnd), ("^", .bitXor)]

/-- Of two signs that begin alike, the longer comes first. -/
def signs : List (String × Token) :=
  updating.map (fun u => (u.1 ++ "=", assign (some u.2))) ++
    [("==", .binary .equal), ("!=", .binary .notEqual), ("<=", .binary .lessOrEqual),
      (">=", .binary .greaterOrEqual), ("&&", .both), ("||", .either)] ++
    updating.map (fun u => (u.1, binary u.2)) ++
    [("<", .binary .less), (">", .binary .greater), ("=", .assign none), ("!", .logicalNot),
      ("~", .bitNot), ("(", .opening), (")", .closing), ("?", .question), (":", .colon)]

def isNameChar (c : Char) : Bool :=
  c.isAlphanum || c = '_'

def clamp (n : Int) : Int :=
  if largest < n then largest else n

/-- Every sign that is none stays where it is, so nothing is read behind it. -/
def all : Nat → List Char → List Token
  | 0, _ => [.finish]
  | fuel + 1, cs =>
    match cs.dropWhile isBlank with
    | [] => [.finish]
    | c :: r =>
      if c.isDigit then
        match leading? none (c :: r) with
        | some (n, rest) => .number (clamp n) :: all fuel rest
        | none => [.bad]
      else if isNameChar c then
        .name (String.ofList ((c :: r).takeWhile isNameChar)) ::
          all fuel ((c :: r).dropWhile isNameChar)
      else match signs.find? fun s => s.1.toList.isPrefixOf (c :: r) with
        | some (s, t) => t :: all fuel ((c :: r).drop s.length)
        | none => [.bad]

end Token

/-- What is wrong with the form of an expression. -/
inductive Mistake where
  | noOperand
  | noEnd
  | noBracket
  | noColon
  | division
deriving DecidableEq, Repr

def Mistake.message : Mistake → String
  | .noOperand => "expecting primary"
  | .noEnd => "expecting EOF"
  | .noBracket => "expecting ')'"
  | .noColon => "expecting ':'"
  | .division => "division by zero"

/-- Why an expression has no value. -/
inductive Fault where
  | mistake (m : Mistake)
  | notNumber (text : String)
  | readOnly (name : String)
  /-- A division whose result has no 64 bits. -/
  | overflow
deriving DecidableEq, Repr

/-- Bits above the lowest 64 do not count. -/
def bits (f : BitVec 64 → BitVec 64 → BitVec 64) (a b : Int) : Int :=
  (f (BitVec.ofInt 64 a) (BitVec.ofInt 64 b)).toInt

def ofBool (b : Bool) : Int :=
  if b then 1 else 0

def Binary.apply (op : Binary) (a b : Int) : Except Fault Int :=
  match op with
  | .multiply => .ok (wrap (a * b))
  | .divide =>
    if b = 0 then .error (.mistake .division)
    else if a = smallest && b = -1 then .error .overflow else .ok (a.tdiv b)
  | .remainder =>
    if b = 0 then .error (.mistake .division)
    else if a = smallest && b = -1 then .error .overflow else .ok (a.tmod b)
  | .add => .ok (wrap (a + b))
  | .subtract => .ok (wrap (a - b))
  | .shiftLeft => .ok (wrap (a * Int.pow 2 (b % 64).toNat))
  | .shiftRight => .ok (a.fdiv (Int.pow 2 (b % 64).toNat))
  | .less => .ok (ofBool (a < b))
  | .lessOrEqual => .ok (ofBool (a ≤ b))
  | .greater => .ok (ofBool (b < a))
  | .greaterOrEqual => .ok (ofBool (b ≤ a))
  | .equal => .ok (ofBool (a = b))
  | .notEqual => .ok (ofBool (a ≠ b))
  | .bitAnd => .ok (bits (· &&& ·) a b)
  | .bitXor => .ok (bits (· ^^^ ·) a b)
  | .bitOr => .ok (bits (· ||| ·) a b)

def Unary.apply (op : Unary) (a : Int) : Int :=
  match op with
  | .minus => wrap (-a)
  | .logicalNot => ofBool (a = 0)
  | .bitNot => -a - 1

/-- The variables of the shell, as far as expressions read and set them. -/
structure Store where
  settings : List (String × String)
  fixed : List String

namespace Store

def value (s : Store) (name : String) : Except Fault Int :=
  let text := (s.settings.lookup name).getD ""
  match valueOf? text with
  | some n => .ok n
  | none => .error (.notNumber text)

def put (s : Store) (name : String) (n : Int) : Except Fault Store :=
  if s.fixed.contains name then .error (.readOnly name)
  else .ok { s with settings := (name, toString n) :: s.settings }

end Store

/-- The tokens that are left, and the variables. -/
abbrev Eval := StateT (List Token × Store) (Except Fault)

namespace Eval

def peek : Eval Token := do
  return ((← get).1.head?.getD .finish)

def skip : Eval Unit :=
  modify fun s => (s.1.drop 1, s.2)

def mistake {α : Type} (m : Mistake) : Eval α :=
  throw (.mistake m)

def valueOf (name : String) : Eval Int := do
  ((← get).2.value name : Except Fault Int)

def put (name : String) (n : Int) : Eval Int := do
  let (ts, store) ← get
  let store ← (store.put name n : Except Fault Store)
  set (ts, store)
  pure n

end Eval

open Eval

/-- The name and the operator of an assignment that begins here. -/
def assignment? : List Token → Option (String × Option Binary × List Token)
  | .name s :: .assign op? :: r => some (s, op?, r)
  | _ => none

mutual

/-- An operand. Of what is not needed, nothing is looked up and nothing can fail but its form. -/
def operand (live : Bool) : Nat → Eval Int
  | 0 => mistake .noOperand
  | fuel + 1 => do
    let t ← peek
    match t with
    | .number n => do
      skip
      pure n
    | .name s => do
      skip
      if live then valueOf s else pure 0
    | .opening => do
      skip
      let n ← assignment live fuel
      if (← peek) = .closing then do
        skip
        pure n
      else mistake .noBracket
    | .binary .add => do
      skip
      operand live fuel
    | .binary .subtract => do
      skip
      return Unary.minus.apply (← operand live fuel)
    | .logicalNot => do
      skip
      return Unary.logicalNot.apply (← operand live fuel)
    | .bitNot => do
      skip
      return Unary.bitNot.apply (← operand live fuel)
    | _ => mistake .noOperand

/-- Operators that bind tighter than a rank, from the left. -/
def sum (live : Bool) (least : Nat) : Nat → Eval Int
  | 0 => mistake .noOperand
  | fuel + 1 => do sumFrom live least (← operand live fuel) fuel

def sumFrom (live : Bool) (least : Nat) (left : Int) : Nat → Eval Int
  | 0 => mistake .noOperand
  | fuel + 1 => do
    match ← peek with
    | .binary op =>
      if op.rank < least then do
        skip
        let right ← sum live op.rank fuel
        let n ← if live then (op.apply left right : Except Fault Int) else pure right
        sumFrom live least n fuel
      else pure left
    | _ => pure left

def conjunction (live : Bool) : Nat → Eval Int
  | 0 => mistake .noOperand
  | fuel + 1 => do
    let a ← sum live Binary.loosest fuel
    if (← peek) = .both then do
      skip
      let b ← conjunction (live && a ≠ 0) fuel
      pure (ofBool (a ≠ 0 && b ≠ 0))
    else pure a

def disjunction (live : Bool) : Nat → Eval Int
  | 0 => mistake .noOperand
  | fuel + 1 => do
    let a ← conjunction live fuel
    if (← peek) = .either then do
      skip
      let b ← disjunction (live && a = 0) fuel
      pure (ofBool (a ≠ 0 || b ≠ 0))
    else pure a

/-- A condition may choose between two values. -/
def condition (live : Bool) : Nat → Eval Int
  | 0 => mistake .noOperand
  | fuel + 1 => do
    let a ← disjunction live fuel
    if (← peek) = .question then do
      skip
      let yes ← assignment (live && a ≠ 0) fuel
      if (← peek) = .colon then do
        skip
        let no ← condition (live && a = 0) fuel
        pure (if a = 0 then no else yes)
      else mistake .noColon
    else pure a

def assignment (live : Bool) : Nat → Eval Int
  | 0 => mistake .noOperand
  | fuel + 1 => do
    let (ts, store) ← get
    match assignment? ts with
    | some (name, op?, rest) => do
      set (rest, store)
      let n ← assignment live fuel
      if !live then pure n
      else match op? with
        | none => put name n
        | some op => do
          let old ← valueOf name
          let n ← (op.apply old n : Except Fault Int)
          put name n
    | none => condition live fuel

end

/-- The value of an expression, and the variables after it. -/
def evaluate (text : String) (store : Store) : Except Fault (Int × Store) := do
  let cs := text.toList
  let ts := Token.all (cs.length + 1) cs
  let fuel := 10 * (ts.length + 1)
  let (n, rest, store) ← (assignment true fuel).run (ts, store)
  if rest.head?.getD .finish = .finish then pure (n, store) else throw (.mistake .noEnd)

end Culprit.Shell.Arithmetic
