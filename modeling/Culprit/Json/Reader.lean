import Culprit.Json.Token
import Culprit.Json.Value

/-!
Reading JSON text. The reader takes one token at a time and keeps the open arrays and objects on a
stack, however many there are. A field that comes twice is kept twice.
-/

namespace Culprit.Json

/-- An open array or object with what it holds so far, newest first. An object remembers the key
whose value comes next. -/
inductive Frame where
  | array (items : List Json)
  | object (fields : List (String × Json)) (key : String)

/-- What may come next. -/
inductive Expect where
  | value
  | valueOrClose
  | key
  | keyOrClose
  | colon
  | commaOrClose
  | nothing
deriving DecidableEq, Repr

/-- The value that was complete last is kept once the stack is empty. -/
structure State where
  stack : List Frame
  expect : Expect
  last : Json

/-- A value is complete. -/
def put (s : State) (j : Json) : State :=
  match s.stack with
  | [] => ⟨[], .nothing, j⟩
  | .array items :: rest => ⟨.array (j :: items) :: rest, .commaOrClose, .null⟩
  | .object fields key :: rest => ⟨.object ((key, j) :: fields) "" :: rest, .commaOrClose, .null⟩

/-- An array or an object begins. -/
def push (s : State) (f : Frame) (e : Expect) : State :=
  ⟨f :: s.stack, e, .null⟩

def closeArray? (s : State) : Option State :=
  match s.stack with
  | .array items :: rest => some (put { s with stack := rest } (.array items.reverse))
  | _ => none

def closeObject? (s : State) : Option State :=
  match s.stack with
  | .object fields _ :: rest => some (put { s with stack := rest } (.object fields.reverse))
  | _ => none

def valueToken? (s : State) : Token → Option State
  | .leftBracket => some (push s (.array []) .valueOrClose)
  | .leftBrace => some (push s (.object [] "") .keyOrClose)
  | .null => some (put s .null)
  | .bool b => some (put s (.bool b))
  | .integer n => some (put s (.integer n))
  | .real x => some (put s (.real x))
  | .string t => some (put s (.string t))
  | .halved => some (put s .halved)
  | _ => none

def keyToken? (s : State) : Token → Option State
  | .string t =>
    match s.stack with
    | .object fields _ :: rest => some ⟨.object fields t :: rest, .colon, .null⟩
    | _ => none
  | _ => none

/-- After a comma an array goes on with a value and an object with a key. -/
def commaToken? (s : State) : Option State :=
  match s.stack with
  | .array _ :: _ => some { s with expect := .value }
  | .object .. :: _ => some { s with expect := .key }
  | [] => none

def advance? (s : State) (t : Token) : Option State :=
  match s.expect with
  | .value => valueToken? s t
  | .valueOrClose => if t = .rightBracket then closeArray? s else valueToken? s t
  | .key => keyToken? s t
  | .keyOrClose => if t = .rightBrace then closeObject? s else keyToken? s t
  | .colon => if t = .colon then some { s with expect := .value } else none
  | .commaOrClose =>
    if t = .comma then commaToken? s
    else if t = .rightBracket then closeArray? s
    else if t = .rightBrace then closeObject? s
    else none
  | .nothing => none

def readTokens? : State → List Token → Option Json
  | s, [] => if s.expect = .nothing then some s.last else none
  | s, t :: rest =>
    match advance? s t with
    | none => none
    | some s => readTokens? s rest

def parse? (text : String) : Option Json := do
  let ts ← tokens? text.toList
  readTokens? ⟨[], .value, .null⟩ ts

end Culprit.Json
