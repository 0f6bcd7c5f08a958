import Culprit.Text.Lines

/-!
File paths as text. A path is read as a list of components; repeated slashes and single dots
inside it carry no meaning, two dots are kept as they are.
-/

namespace Culprit.Path

/-- A single dot counts only where a relative path begins with it. -/
inductive Component where
  | root
  | here
  | up
  | name (text : String)
deriving DecidableEq, Repr

def isAbsolute (p : String) : Bool :=
  p.toList.head? = some '/'

def pieces (p : String) : List String :=
  (Text.splitAtChar '/' p.toList).map String.ofList

/-- The components after the first piece. -/
def inner (ps : List String) : List Component :=
  (ps.filter fun s => s ≠ "" && s ≠ ".").map fun s => if s = ".." then .up else .name s

def components (p : String) : List Component :=
  match pieces p with
  | "" :: rest => (if rest.isEmpty then [] else [.root]) ++ inner rest
  | "." :: rest => .here :: inner rest
  | ps => inner ps

/-- The steps by which the file system follows a path; it looks at every single dot. -/
def steps (p : String) : List Component :=
  (if isAbsolute p then [.root] else []) ++ ((pieces p).filter (· ≠ "")).map fun s =>
    if s = "." then .here else if s = ".." then .up else .name s

def Component.rank : Component → Nat
  | .root => 0
  | .here => 1
  | .up => 2
  | .name _ => 3

def Component.le : Component → Component → Bool
  | .name a, .name b => a ≤ b
  | a, b => a.rank ≤ b.rank

/-- Component by component; a path comes before the paths below it. -/
def componentsLe : List Component → List Component → Bool
  | [], _ => true
  | _ :: _, [] => false
  | a :: r, b :: s => if a = b then componentsLe r s else a.le b

def le (p q : String) : Bool :=
  componentsLe (components p) (components q)

/-- `q` seen from `p`. An absolute `q` stands alone, and an empty one leaves a final slash. -/
def join (p q : String) : String :=
  if isAbsolute q || p.isEmpty then q
  else if p.toList.getLast? = some '/' then p ++ q
  else p ++ "/" ++ q

def isSilent (s : String) : Bool :=
  s = "" || s = "."

/-- Pieces at the end that name nothing are dropped; the first piece stays. -/
def dropSilent : List String → List String
  | [] => []
  | first :: rest => first :: (rest.reverse.dropWhile isSilent).reverse

/-- The path without its last component; nothing for a root and for the empty path. -/
def parent? (p : String) : Option String :=
  match dropSilent (pieces p) with
  | [] => none
  | [first] => if first = "" then none else some ""
  | first :: rest =>
    match dropSilent (first :: rest.dropLast) with
    -- Nothing but what precedes the first slash is left.
    | [""] => some "/"
    | shorter => some (String.intercalate "/" shorter)

/-- The path and the paths above it, as long as they name a directory below the root. -/
def ancestorsFrom : Nat → String → List String
  | 0, _ => []
  | levels + 1, p =>
    match parent? p with
    | none => []
    | some above => p :: ancestorsFrom levels above

def ancestors (p : String) : List String :=
  ancestorsFrom (pieces p).length p

/-- The directory to create before a file is written; nothing when it is the working directory. -/
def directory? (p : String) : Option String :=
  (parent? p).filter (!·.isEmpty)

def fileName? (p : String) : Option String :=
  match (components p).getLast? with
  | some (.name s) => some s
  | _ => none

/-- What follows the last dot of the file name, if something precedes it. -/
def extension? (p : String) : Option String := do
  let name ← fileName? p
  let (stem, ext) ← Text.splitLast? '.' name.toList
  if stem.isEmpty then none else some (String.ofList ext)

def push (p : String) : Component → String
  | .root => "/"
  | .here => join p "."
  | .up => join p ".."
  | .name s => join p s

/-- `p` seen from the working directory `cwd`. Exactly two leading slashes are kept; a final slash
stays. -/
def absolute (cwd p : String) : String :=
  if p.isEmpty then cwd
  else
    let cs := p.toList
    let double := "//".toList.isPrefixOf cs && !"///".toList.isPrefixOf cs
    let start := if double then "//" else if isAbsolute p then "/" else cwd
    let body := (components p).filter fun c => c ≠ .root && c ≠ .here
    let whole := body.foldl push start
    if cs.getLast? = some '/' then join whole "" else whole

@[simp] theorem join_of_isAbsolute {p q : String} (h : isAbsolute q = true) : join p q = q := by
  simp [join, h]

end Culprit.Path
