import Culprit.Shell.Expansion

/-!
Redirections. All targets of a command are worked out first; then the descriptors that they change
are kept aside, each target is opened in turn, and at the end what was kept is put back.
-/

namespace Culprit.Shell.Redirect

open Act

/-- Where a redirection leads, once its words have been expanded. -/
inductive Target where
  | file (descriptor : Nat) (direction : Direction) (path : String)
  /-- To another descriptor, or nowhere. -/
  | duplicate (descriptor : Nat) (source? : Option Nat)
  | document (descriptor number : Nat)
deriving DecidableEq, Repr

def Target.descriptor : Target → Nat
  | .file d _ _ => d
  | .duplicate d _ => d
  | .document d _ => d

def target (run : Command → Act String) : Redirection → Act Target
  | .file d direction w => do
    return .file d direction (← Expansion.text run .text w)
  | .document d number => pure (.document d number)
  | .duplicate d w => do
    match (← Expansion.text run .text w).toList with
    | ['-'] => pure (.duplicate d none)
    | [c] =>
      if c.isDigit then pure (.duplicate d (some (c.toNat - 48)))
      else fault "Syntax error: Bad fd number"
    | _ => fault "Syntax error: Bad fd number"

def refuse {α : Type} (creates : Bool) (path : String) (e : SystemFault) : Act α :=
  let isMissing := e = .missing || e = .notDirectory
  let why := if !isMissing then faultText e
    else if creates then "Directory nonexistent" else "No such file"
  fault ((if creates then "cannot create " else "cannot open ") ++ path ++ ": " ++ why)

/-- A file that is there may be protected. -/
def protect (path : String) : Act Unit := do
  if (← frame).has "noclobber" then
    match ← node? path with
    | .ok (.file ..) =>
      if !Surroundings.devices.contains (← Act.path path) then refuse true path .exists
    | .ok .directory => refuse false path .isDirectory
    | _ => pure ()

def openFile (direction : Direction) (path : String) : Act Nat := do
  if direction = .output then protect path
  let access := match direction with
    | .input => System.Access.input
    | .output => .output
    | .overwrite => .output
    | .append => .append
    | .both => .both
  match ← open_ access path with
  | .ok id => pure id
  | .error e => refuse access.creates path e

/-- Carries out one redirection. -/
def perform (run : Command → Act String) : Target → Act Unit
  | .file d direction path => do ask (System.place d (← openFile direction path))
  | .document d number => do
    let text ← Expansion.document run number
    ask (System.place d (← ask (System.openBytes (Bytes.toArray text))))
  | .duplicate d none => ask (System.close d)
  | .duplicate d (some source) => do
    if d ≠ source then
      match ← ask (System.lookUp source) with
      | some id => ask (System.place d id)
      | none => fault (toString source ++ ": Bad file descriptor")

/-- What was open under a descriptor, and where it is kept; nothing if it was closed. -/
structure Kept where
  descriptor : Nat
  copy? : Option Nat

def keep (targets : List Target) : Act (List Kept) :=
  (targets.map (·.descriptor)).eraseDups.mapM fun d => do
    match ← ask (System.lookUp d) with
    | some id => return ⟨d, some (← ask (System.hold id))⟩
    | none => return ⟨d, none⟩

/-- Puts back what was kept. -/
def restore (kept : List Kept) : Act Unit :=
  kept.forM fun k => do
    match k.copy? with
    | none => ask (System.close k.descriptor)
    | some copy => do
      match ← ask (System.lookUp copy) with
      | some id => ask (System.place k.descriptor id)
      | none => pure ()
      ask (System.close copy)

/-- Lets the redirections stay. -/
def release (kept : List Kept) : Act Unit :=
  kept.forM fun k => do
    match k.copy? with
    | some copy => ask (System.close copy)
    | none => pure ()

/-- Does something while redirections hold. A redirection that fails is complained about, and then
`failed` is done in place of it. -/
def around (run : Command → Act String) (rs : List Redirection) (failed body : Act Unit) :
    Act Unit := do
  let targets ← rs.mapM (target run)
  let kept ← keep targets
  match ← result (targets.forM (perform run)) with
  | .ok () => ensuring body (restore kept)
  | .error .fault => do
    restore kept
    failed
  | .error e => do
    restore kept
    throw e

end Culprit.Shell.Redirect
