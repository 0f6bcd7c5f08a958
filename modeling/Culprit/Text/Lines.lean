/-!
Cutting text at a separator. `lines` ends a line at each line feed, drops one carriage return
before it, and yields no empty line after a final line feed.
-/

namespace Culprit.Text

/-- The pieces between the separators, one more than there are separators. -/
def splitAtChar (sep : Char) : List Char → List (List Char)
  | [] => [[]]
  | c :: r =>
    if c = sep then [] :: splitAtChar sep r
    else match splitAtChar sep r with
      | [] => [[c]]
      | piece :: pieces => (c :: piece) :: pieces

/-- At the first separator. -/
def splitFirst? (sep : Char) : List Char → Option (List Char × List Char)
  | [] => none
  | c :: r =>
    if c = sep then some ([], r)
    else (splitFirst? sep r).map fun p => (c :: p.1, p.2)

/-- At the last separator. -/
def splitLast? (sep : Char) (cs : List Char) : Option (List Char × List Char) :=
  (splitFirst? sep cs.reverse).map fun p => (p.2.reverse, p.1.reverse)

def dropReturn (cs : List Char) : List Char :=
  if cs.getLast? = some '\r' then cs.dropLast else cs

/-- Each line that a line feed ends loses one carriage return; the rest after the last line feed
is a line only when it is not empty, and keeps its carriage return. -/
def linesAux : List (List Char) → List (List Char)
  | [] => []
  | [last] => if last.isEmpty then [] else [last]
  | line :: rest => dropReturn line :: linesAux rest

def linesOf (cs : List Char) : List (List Char) :=
  linesAux (splitAtChar '\n' cs)

def lines (s : String) : List String :=
  (linesOf s.toList).map String.ofList

theorem splitAtChar_ne_nil (sep : Char) (cs : List Char) : splitAtChar sep cs ≠ [] := by
  cases cs with
  | nil => simp [splitAtChar]
  | cons c r =>
    simp only [splitAtChar]
    split
    · simp
    · split <;> simp

@[simp] theorem linesOf_nil : linesOf [] = [] := rfl

end Culprit.Text
