import Culprit.Json.Reader
import Culprit.Machine
import Culprit.Report.Codec
import Culprit.Text.Blank

/-!
The trial log holds one trial a line, as JSON. Records of another version are refused before the
file is touched. Reading skips blank lines and stops at the first line that is no trial.
-/

namespace Culprit.TrialLog

def line (t : Trial) : String :=
  t.toJson.compact ++ "\n"

/-- Makes the directory of the log if it is missing. -/
def makeParent (path : String) : StateM Machine (Except SystemError Unit) := do
  match Path.directory? path with
  | none => pure (.ok ())
  | some dir =>
    if ← Machine.isThere dir then pure (.ok ()) else Machine.createDirectories dir

def append (path : String) (t : Trial) : ExceptT Error (StateM Machine) Unit := do
  if t.version ≠ Trial.formatVersion then throw (.logVersion t.version)
  else
    match ← ExceptT.lift (makeParent path) with
    | .error e => throw (.file .createParent e)
    | .ok () => do
      match ← ExceptT.lift (Machine.appendText path (line t)) with
      | .error e => throw (.file (.open path) e)
      | .ok () => pure ()

/-- The bytes between line feeds. -/
def splitLines : List UInt8 → List (List UInt8)
  | [] => [[]]
  | b :: r =>
    if b = 10 then [] :: splitLines r
    else match splitLines r with
      | [] => [[b]]
      | piece :: pieces => (b :: piece) :: pieces

def dropReturn (bytes : List UInt8) : List UInt8 :=
  if bytes.getLast? = some 13 then bytes.dropLast else bytes

/-- The last line has no line feed; it is a line only when it is not empty. -/
def linesOf : List (List UInt8) → List (List UInt8)
  | [] => []
  | [last] => if last.isEmpty then [] else [last]
  | l :: rest => dropReturn l :: linesOf rest

/-- One line; nothing when it is blank. -/
def readLine (number : Nat) (bytes : List UInt8) : Except Error (Option Trial) :=
  match Text.Utf8.decode? bytes with
  | none => .error (.file (.readLine number) { fault := .notText })
  | some cs =>
    if (Text.trimChars cs).isEmpty then .ok none
    else match (Json.parse? (String.ofList cs)).bind Trial.ofJson? with
      | some t => .ok (some t)
      | none => .error (.logLine number)

def readLines (number : Nat) : List (List UInt8) → Except Error (List Trial)
  | [] => .ok []
  | bytes :: rest =>
    match readLine number bytes with
    | .error e => .error e
    | .ok t? =>
      match readLines (number + 1) rest with
      | .error e => .error e
      | .ok ts => .ok (t?.toList ++ ts)

def readBytes (bytes : List UInt8) : Except Error (List Trial) :=
  readLines 1 (linesOf (splitLines bytes))

def readAll (path : String) : ExceptT Error (StateM Machine) (List Trial) := do
  if ← ExceptT.lift (Machine.isThere path) then
    match ← ExceptT.lift (Machine.read path) with
    | .error e =>
      -- A directory can be opened, but its first line cannot be read.
      throw (.file (if e.fault = .isDirectory then .readLine 1 else .open path) e)
    | .ok bytes => ExceptT.mk (pure (readBytes bytes.toList))
  else throw (.logMissing path)

@[simp] theorem readBytes_nil : readBytes [] = .ok [] := rfl

end Culprit.TrialLog
