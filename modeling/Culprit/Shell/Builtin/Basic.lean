import Culprit.Shell.Act
import Culprit.Shell.Arithmetic
import Culprit.Shell.Signals

/-!
What the commands of the shell have in common: their options, their numbers, and text in quotes from
which the shell would read the same text again.
-/

namespace Culprit.Shell.Builtin

open Act

/-- Options in front of the other arguments, up to two dashes. A colon in the specification follows
a letter that takes a value. -/
def options (known : String) : Nat → List String → Act (List (Char × String) × List String)
  | 0, args => pure ([], args)
  | _, [] => pure ([], [])
  | fuel + 1, a :: rest =>
    match a.toList with
    | '-' :: c :: cs =>
      if c = '-' && cs.isEmpty then pure ([], rest)
      else letters known fuel (c :: cs) rest
    | _ => pure ([], a :: rest)
where
  letters (known : String) : Nat → List Char → List String →
      Act (List (Char × String) × List String)
    | 0, _, rest => pure ([], rest)
    | fuel + 1, [], rest => options known fuel rest
    | fuel + 1, c :: cs, rest => do
      match known.toList.dropWhile (· ≠ c) with
      | [] => fault ("Illegal option -" ++ String.singleton c)
      | _ :: ':' :: _ =>
        match cs, rest with
        | [], [] => fault ("No arg for -" ++ String.singleton c ++ " option")
        | [], value :: rest => do
          let (os, rest) ← options known fuel rest
          pure ((c, value) :: os, rest)
        | cs, rest => do
          let (os, rest) ← options known fuel rest
          pure ((c, String.ofList cs) :: os, rest)
      | _ => do
        let (os, rest) ← letters known fuel cs rest
        pure ((c, "") :: os, rest)

def readOptions (known : String) (args : List String) :
    Act (List (Char × String) × List String) :=
  options known ((args.map (·.length + 1)).foldr (· + ·) 0 + 1) args

def badNumber {α : Type} (s : String) : Act α :=
  fault ("Illegal number: " ++ s)

/-- A number that is not negative. -/
def number (s : String) : Act Nat := do
  match Arithmetic.ofText? (some 10) s with
  | some n => if 0 ≤ n && n < Int.pow 2 31 then pure n.toNat else badNumber s
  | none => badNumber s

/-- The texts between the characters of a kind, and the runs of those. -/
def runs (p : Char → Bool) : List Char → List (List Char × List Char)
  | [] => []
  | c :: r =>
    let plain := (c :: r).takeWhile fun d => !p d
    let rest := (c :: r).dropWhile fun d => !p d
    match _h : rest with
    | [] => [(plain, [])]
    | d :: s => (plain, (d :: s).takeWhile p) :: runs p (s.dropWhile p)
termination_by cs => cs.length
decreasing_by
  have h1 : (c :: r).dropWhile (fun d => !p d) = d :: s := _h
  have h2 := (List.dropWhile_suffix (fun d => !p d) (l := c :: r)).length_le
  have h3 := (List.dropWhile_suffix p (l := s)).length_le
  rw [h1] at h2
  simp at h2 ⊢
  omega

/-- In single quotes; single quotes themselves are put in double quotes. -/
def quoted (s : String) : String :=
  let cs := s.toList
  let ends := if cs.isEmpty then "''" else ""
  ends ++ String.join ((runs (· = '\'') cs).map fun r =>
    "'" ++ String.ofList r.1 ++ "'" ++
      (if r.2.isEmpty then "" else "\"" ++ String.ofList r.2 ++ "\""))

/-- Name and value around the first equals sign. -/
def definition (a : String) : String × Option String :=
  match Culprit.Text.splitFirst? '=' a.toList with
  | some (name, value) => (String.ofList name, some (String.ofList value))
  | none => (a, none)

end Culprit.Shell.Builtin
