/-!
Replacing every occurrence of a pattern, from the left and without overlap. What a replacement
puts in is not searched again.
-/

namespace Culprit.Text

/-- `skip` characters of the input still belong to the occurrence that was just replaced. -/
def substituteAux (pattern value : List Char) : Nat → List Char → List Char
  | _, [] => []
  | skip + 1, _ :: r => substituteAux pattern value skip r
  | 0, c :: r =>
    if pattern.isPrefixOf (c :: r) then
      value ++ substituteAux pattern value (pattern.length - 1) r
    else c :: substituteAux pattern value 0 r

/-- The pattern is not empty wherever the library uses this. -/
def substituteChars (pattern value cs : List Char) : List Char :=
  substituteAux pattern value 0 cs

def substitute (pattern value s : String) : String :=
  String.ofList (substituteChars pattern.toList value.toList s.toList)

end Culprit.Text
