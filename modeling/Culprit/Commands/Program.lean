import Culprit.Commands.Auto
import Culprit.Commands.Bisect

/-!
The program as a whole: its arguments choose a command, and what comes of it is told by an exit code
and two texts.
-/

namespace Culprit.Commands

inductive Command where
  | bisect (c : Bisect)
  | auto (c : Auto)
deriving DecidableEq, Repr

namespace Command

def names : List String :=
  ["bisect", "auto"]

/-- What can be asked about. -/
def topics : List String :=
  names ++ ["help"]

/-- The words after the name of a command. -/
def named (name : String) (words : List String) : Except Refusal Command :=
  match name with
  | "bisect" => (Bisect.form.read? words).map fun g => .bisect (.ofGiven g)
  | "auto" => (Auto.form.read? words).map fun g => .auto (.ofGiven g)
  | "help" => .error (if words.isEmpty || words.length = 1 && words.all topics.contains then .help
      else .usage)
  | _ => .error .usage

/-- One switch may precede the name of the command. -/
def read (verbose : Bool) : List String → Except Refusal Command
  | [] => .error .usage
  | word :: rest =>
    match Item.of word with
    | .plain => named word rest
    | .long "verbose" none => if verbose then .error .usage else read true rest
    | .long "help" none => .error .help
    | .short 'h' _ => .error .help
    | _ => .error .usage

def ofArguments (args : List String) : Except Refusal Command :=
  read false args

def run : Command → Attempt Terminal Unit
  | .bisect c => c.run
  | .auto c => c.run

end Command

/-- What a call leaves behind, besides the files. -/
structure Finish where
  code : Nat
  stdout : String
  stderr : String
deriving DecidableEq, Repr

def usage : String :=
  "Usage: fp-bisect [--verbose] bisect [OPTIONS] <PRECISION> <COMPILATION> <TEST>\n" ++
  "       fp-bisect [--verbose] auto [OPTIONS] <RESULTS>\n"

/-- Carries out a call. An error is printed with its causes; what was printed before it stays. -/
def program (args : List String) : StateM Terminal Finish := do
  match Command.ofArguments args with
  | .error .help => pure ⟨0, usage, ""⟩
  | .error .usage => pure ⟨2, "", usage⟩
  | .ok command => do
    let done ← command.run.run
    let printed := (← get).printed
    match done with
    | .ok () => pure ⟨0, printed, ""⟩
    | .error e => pure ⟨1, printed, e.fullMessage ++ "\n"⟩

@[simp] theorem Command.ofArguments_nil : Command.ofArguments [] = .error .usage := rfl

end Culprit.Commands
