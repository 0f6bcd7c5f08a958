import Culprit.Decimal.Notation
import Culprit.Text.Escaped

/-!
Why something could not be done. Each cause is a constructor; `Error.message` holds every wording
and `Error.area` says which part of the work stopped.
-/

namespace Culprit

/-- What the file system or the program loader refuses. -/
inductive SystemFault where
  | missing
  | denied
  | exists
  | notDirectory
  | isDirectory
  | notProgram
  | notEmpty
  | nameTooLong
  | badDescriptor
  | noSpace
  | noDevice
  | brokenPipe
  | notText
  | zeroByte
  | zeroInName
deriving DecidableEq, Repr

def SystemFault.message : SystemFault → String
  | .missing => "No such file or directory (os error 2)"
  | .denied => "Permission denied (os error 13)"
  | .exists => "File exists (os error 17)"
  | .notDirectory => "Not a directory (os error 20)"
  | .isDirectory => "Is a directory (os error 21)"
  | .notProgram => "Exec format error (os error 8)"
  | .notEmpty => "Directory not empty (os error 39)"
  | .nameTooLong => "File name too long (os error 36)"
  | .badDescriptor => "Bad file descriptor (os error 9)"
  | .noSpace => "No space left on device (os error 28)"
  | .noDevice => "No such device or address (os error 6)"
  | .brokenPipe => "Broken pipe (os error 32)"
  | .notText => "stream did not contain valid UTF-8"
  | .zeroByte => "nul byte found in provided data"
  | .zeroInName => "file name contained an unexpected NUL byte"

/-- A refusal, with the path it concerns where the request did not name it. -/
structure SystemError where
  fault : SystemFault
  path? : Option String := none
deriving DecidableEq, Repr

def SystemError.message (e : SystemError) : String :=
  match e.path? with
  | none => e.fault.message
  | some p => e.fault.message ++ " at path " ++ Text.Escaped.quote p

/-- What was attempted on the file system. -/
inductive FileTask where
  | create (path : String)
  | createParent
  | createWorkspace (root : String)
  | resolve (path : String)
  | delete (path : String)
  | read (path : String)
  | readLine (number : Nat)
  | write (path : String)
  | writeManifest
  | writeExecutable
  | open (path : String)
deriving DecidableEq, Repr

def FileTask.message : FileTask → String
  | .create p => "failed to create " ++ p
  | .createParent => "failed to create directory"
  | .createWorkspace root => "failed to create workspace in " ++ root
  | .resolve p => "failed to resolve " ++ p
  | .delete p => "failed to delete " ++ p
  | .read p => "failed to read " ++ p
  | .readLine n => "failed to read line " ++ toString n
  | .write p => "failed to write " ++ p
  | .writeManifest => "failed to write manifest"
  | .writeExecutable => "failed to write mock executable"
  | .open p => "failed to open " ++ p

/-- Why an executable was not built. -/
inductive BuildFault where
  | cancelled
  | compile (unit flags summary : String)
  | listing (object summary : String)
  | restricting (object summary : String)
  | link (summary : String)
  | rehearsed (unit : String)
  | reported (text : String)
deriving DecidableEq, Repr

def BuildFault.message : BuildFault → String
  | .cancelled => "cancelled"
  | .compile unit flags summary => unit ++ " (" ++ flags ++ "): " ++ summary
  | .listing object summary => "nm " ++ object ++ ": " ++ summary
  | .restricting object summary => "objcopy " ++ object ++ ": " ++ summary
  | .link summary => "link: " ++ summary
  | .rehearsed unit => unit ++ ": mock compile error"
  | .reported text => text

/-- Why a program was not started. -/
inductive RunFault where
  | spawn (program : String) (cause : SystemError)
  | reported (text : String)
deriving DecidableEq, Repr

def RunFault.message : RunFault → String
  | .spawn program cause => "failed to spawn " ++ program ++ ": " ++ cause.message
  | .reported text => text

/-- What is wrong with a project description. -/
inductive ProjectFault where
  | format
  | emptyCompiler
  | badTolerance (tolerance : Float)
  | emptyArgument
deriving DecidableEq, Repr

/-- The text of a format fault is left to the reader of the format. -/
def ProjectFault.message : ProjectFault → String
  | .format => ""
  | .emptyCompiler => "ground_truth.compiler must not be empty"
  | .badTolerance t =>
    "compare.tolerance must be a non-negative number, got " ++ Decimal.plain t
  | .emptyArgument => "run.args and run.launcher must not contain empty strings"

inductive Error where
  | unbalancedQuotes (identifier : String)
  | noCompiler
  | notACandidate (key scope : String)
  | assignedTwice (key : String)
  | noUnits (pipeline : String)
  | noSources (directory : String)
  | project (path? : Option String) (fault : ProjectFault)
  | logVersion (found : Nat)
  | logMissing (path : String)
  | logLine (number : Nat)
  | resultsRow (number : Nat) (reason : String)
  | notCompleted
  | emptyInvocation
  | reported (text : String)
  | baseline (context detail : String)
  | build (fault : BuildFault)
  | run (fault : RunFault)
  | file (task : FileTask) (cause : SystemError)
  /-- A report file that could not be written; the cause is told apart from the task. -/
  | output (task : FileTask) (cause : SystemError)
deriving DecidableEq, Repr

/-- The part of the work that an error belongs to. -/
inductive Area where
  | request
  | baseline
  | build
  | run
  | file
  | output
deriving DecidableEq, Repr

namespace Error

def area : Error → Area
  | .baseline .. => .baseline
  | .build .. => .build
  | .run .. => .run
  | .file .. => .file
  | .output .. => .output
  | _ => .request

def message : Error → String
  | .unbalancedQuotes identifier =>
    "unbalanced quoting in compiler identifier: " ++ identifier
  | .noCompiler => "empty compiler identifier"
  | .notACandidate key scope => key ++ " is not part of the candidate set for " ++ scope
  | .assignedTwice key => key ++ " assigned twice"
  | .noUnits pipeline => "build pipeline '" ++ pipeline ++ "' lists no compilation units"
  | .noSources directory => "no sources found in " ++ directory
  | .project none fault => fault.message
  | .project (some path) fault => path ++ ": " ++ fault.message
  | .logVersion found =>
    "schema version mismatch: record has v" ++ toString found ++ ", expected v1"
  | .logMissing path => "file not found: " ++ path
  | .logLine number => "failed to parse line " ++ toString number
  | .resultsRow number reason =>
    "failed to parse results row " ++ toString number ++ ": " ++ reason
  | .notCompleted => "bisection did not complete"
  | .emptyInvocation => "empty invocation"
  | .reported text => text
  | .baseline context detail => "ground truth failed for " ++ context ++ ": " ++ detail
  | .build fault => "build failed: " ++ fault.message
  | .run fault => "run failed: " ++ fault.message
  | .file task cause => task.message ++ ": " ++ cause.message
  | .output task _ => task.message

/-- The message with every cause spelled out, as the command line prints it. -/
def fullMessage : Error → String
  | .output task cause => task.message ++ ": " ++ cause.message
  | e => e.message

end Error

end Culprit
