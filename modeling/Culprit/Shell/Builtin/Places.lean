import Culprit.Shell.Builtin.Basic

/-!
Commands of the shell for the directory it stands in, and for the mask of new files.
-/

namespace Culprit.Shell.Builtin

open Act

/-- A path without dots and double slashes, seen from a directory. Two slashes at its start stay. -/
def tidied (cwd path : String) : String :=
  let full := (if path.startsWith "/" then path else cwd ++ "/" ++ path).toList
  let slashes := (if path.startsWith "/" then path else cwd).toList.takeWhile (· = '/')
  let names := (Culprit.Text.splitAtChar '/' full).filter fun n => !n.isEmpty && n ≠ ['.']
  let kept := names.foldl (fun ns n => if n = ['.', '.'] then ns.dropLast else ns ++ [n]) []
  (if slashes.length = 2 then "//" else "/") ++ String.intercalate "/" (kept.map String.ofList)

/-- Whether a directory is told without links; of two letters the last counts. -/
def isPhysical (options : List (Char × String)) : Bool :=
  (options.getLast?.map (·.1)) = some 'P'

def isDirectory (p : String) : Act Bool := do
  match ← node? p with
  | .ok n => pure n.isDirectory
  | .error _ => pure false

/-- Stands in a directory from now on, and remembers the one before. -/
def enter (dir : String) : Act Unit := do
  let before := (← frame).cwd
  modify fun f => { f with cwd := dir }
  let mark (name value : String) (f : Frame) : Frame :=
    f.putVariable name ⟨some value, true, f.isFixed name⟩
  refuseFixed "OLDPWD"
  modify (mark "OLDPWD" before)
  refuseFixed "PWD"
  modify (mark "PWD" dir)

/-- Where a name is looked for if it does not say itself where to begin. -/
def placesOf (target : String) : Act (List String) := do
  let cs := target.toList
  let own := cs.takeWhile (· ≠ '/')
  if cs.head? = some '/' || own = ['.'] || own = ['.', '.'] then pure []
  else match ← value? "CDPATH" with
    | some path => pure ((Culprit.Text.splitAtChar ':' path.toList).map String.ofList)
    | none => pure []

def cd (args : List String) : Act Nat := do
  let (options, args) ← readOptions "LP" args
  let (target, back) ← match args with
    | [] => pure ((← value? "HOME").getD "", false)
    | ["-"] => pure ((← value? "OLDPWD").getD "", true)
    | "-" :: _ => pure ((← value? "OLDPWD").getD "", true)
    | a :: _ => pure (a, false)
  let places ← placesOf target
  let target := if target.isEmpty then "." else target
  let join (place : String) : String := if place.isEmpty then target else place ++ "/" ++ target
  let found? ← places.filterM fun place => isDirectory (join place)
  let goal := (found?.head?.map join).getD target
  let dir := tidied (← frame).cwd goal
  if ← isDirectory (if isPhysical options then goal else dir) then do
    enter dir
    if back || (found?.head?.any fun place => !place.isEmpty) then sayLine dir
    pure 0
  else fault ("can't cd to " ++ target)

def pwd (args : List String) : Act Nat := do
  discard (readOptions "LP" args)
  sayLine (← frame).cwd
  pure 0

/-- A mode in letters changes what the mask lets through: by groups of those it is for, an operator,
and what may be done. Nothing comes of a mode that is none. -/
def symbolicMode (old : Nat) : Nat → (who now : Nat) → List Char → Option Nat
  | 0, _, _, _ => none
  | fuel + 1, who, now, cs =>
    let own := cs.takeWhile "augo".toList.contains
    let positionOf (c : Char) : Nat :=
      if c = 'a' then 0o111 else if c = 'u' then 0o100 else if c = 'g' then 0o010 else 0o001
    let who := own.foldl (fun n c => n ||| positionOf c) who
    let who := if who = 0 then 0o111 else who
    match cs.drop own.length with
    | [] => some now
    | op :: r =>
      if op ≠ '=' && op ≠ '+' && op ≠ '-' then none
      else
        let letters := r.takeWhile "rwxugoXs".toList.contains
        let bitsOf (c : Char) : Nat :=
          match c with
          | 'r' => 4
          | 'w' => 2
          | 'x' => 1
          | 'u' => old / 64
          | 'g' => old / 8
          | 'o' => old
          | 'X' => if old &&& 0o111 = 0 then 0 else 1
          | _ => 0
        let bits := ((letters.foldl (fun n c => n ||| bitsOf c) 0) &&& 7) * who
        let off (n m : Nat) : Nat := n - (n &&& m)
        let now := match op with
          | '-' => off now bits
          | '=' => bits ||| off now (who * 7)
          | _ => now ||| bits
        match r.drop letters.length with
        | [] => some now
        | ',' :: rest => symbolicMode old fuel 0 now rest
        | d :: rest =>
          if d = '=' || d = '+' || d = '-' then symbolicMode old fuel who now (d :: rest) else none

/-- Four digits of base eight. -/
def octal (n : Nat) : String :=
  String.ofList ('0' :: [n / 64 % 8, n / 8 % 8, n % 8].map Nat.digitChar)

/-- What the mask lets through, in letters. -/
def letters (mask : Nat) : String :=
  let group (name : String) (n : Nat) : String :=
    let one (bit : Nat) (c : String) : String := if (n &&& bit) = 0 then c else ""
    name ++ "=" ++ one 4 "r" ++ one 2 "w" ++ one 1 "x"
  String.intercalate "," [group "u" (mask / 64), group "g" (mask / 8), group "o" mask]

def umask (args : List String) : Act Nat := do
  let (options, args) ← readOptions "S" args
  let mask := (← frame).mask
  match args with
  | [] => sayLine (if options.isEmpty then octal mask else letters mask)
  | a :: _ =>
    let cs := a.toList
    if (cs.head?.any Char.isDigit) then
      if cs.all fun c => '0' ≤ c && c ≤ '7' then
        modify fun f => { f with
          mask := (cs.foldl (fun n c => 8 * n + (c.toNat - 48)) 0) % 512 }
      else badNumber a
    else
      match symbolicMode (0o777 - mask) (cs.length + 1) 0 (0o777 - mask) cs with
      | some n => modify fun f => { f with mask := 0o777 - n }
      | none => fault ("Illegal mode: " ++ a)
  pure 0

end Culprit.Shell.Builtin
