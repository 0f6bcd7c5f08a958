import Culprit.Error
import Culprit.Text.Blank
import Culprit.Text.ShellWords

/-!
A flag set is a compiler with the optimization level and the switches it is called with.
-/

namespace Culprit

structure Flags where
  compiler : String
  optimization : String
  switches : List String
deriving DecidableEq, Repr, Inhabited

/-- Splits a switch text the way a shell would; a text with unbalanced quotes is split at white
space instead. -/
def splitSwitches (switches : String) : List String :=
  (Text.ShellWords.split switches).getD (Text.words switches)

namespace Flags

def isLevel (word : String) : Bool :=
  "-O".toList.isPrefixOf word.toList

/-- The first word that looks like a level is the optimization; every other word after the
compiler is a switch. -/
def ofWords : List String → Except Error Flags
  | [] => .error .noCompiler
  | compiler :: rest =>
    .ok ⟨compiler, (rest.find? isLevel).getD "", rest.eraseP isLevel⟩

def parse (identifier : String) : Except Error Flags :=
  match Text.ShellWords.split identifier with
  | none => .error (.unbalancedQuotes identifier)
  | some words => ofWords words

/-- The arguments without the compiler; empty texts are not passed on. -/
def args (f : Flags) : List String :=
  (f.optimization :: f.switches).filter (!·.isEmpty)

def display (f : Flags) : String :=
  String.intercalate " " (f.compiler :: f.args)

@[simp] theorem parse_empty : parse "" = .error .noCompiler := by
  simp [parse, Text.ShellWords.split, Text.ShellWords.splitChars, Text.ShellWords.splitAux, ofWords]

end Flags

end Culprit
