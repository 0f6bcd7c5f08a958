import Culprit.Flags
import Culprit.Partition
import Culprit.Path
import Culprit.Toolchain.Listing

/-!
The objects of a build. A partition of units gives one object for each unit, with the flags of its
side. A partition of the symbols of one unit gives that unit an object for each side that is not
empty, spliced when both are there; every other unit is compiled with the trusted flags.

When two objects of one unit are spliced, each candidate is owned by one of them and must keep its
only strong definition there.

* A strong candidate that the object does not own becomes weak.
* An object that does not own the data of the unit gives up its other strong globals too.
* An owned candidate that is weak is renamed and added again as a strong global at its address.
-/

namespace Culprit.Toolchain

/-! ### Splices -/

structure Splice where
  /-- The candidates that this object supplies. -/
  owned : List String
  /-- All candidates of the unit. -/
  candidates : List String
  /-- Whether the globals that are no candidates stay strong here. -/
  ownsData : Bool
deriving DecidableEq, Repr

/-- What is done to one global. -/
inductive Edit where
  | weaken (name : String)
  /-- Rename, then add under the old name. -/
  | promote (g : Global)
deriving DecidableEq, Repr

namespace Splice

def promotedName (name : String) : String :=
  name ++ ".fpbisect"

def givesUp (s : Splice) (g : Global) : Bool :=
  if g.name ∈ s.candidates then g.name ∉ s.owned else !s.ownsData

def edit? (s : Splice) (g : Global) : Option Edit :=
  if g.isStrong then if s.givesUp g then some (.weaken g.name) else none
  -- Without a section there is no address at which to add the name again.
  else if g.isWeak && g.name ∈ s.owned && !g.place.isEmpty then some (.promote g)
  else none

def edits (s : Splice) (globals : List Global) : List Edit :=
  globals.filterMap s.edit?

end Splice

/-- The arguments that ask `objcopy` for an edit. -/
def Edit.args : Edit → List String
  | .weaken name => ["--weaken-symbol=" ++ name]
  | .promote g =>
    ["--redefine-sym", g.name ++ "=" ++ Splice.promotedName g.name, "--add-symbol",
      g.name ++ "=" ++ g.place ++ ":" ++ toString g.value ++ ",global," ++
        (if g.cls = 'V' then "object" else "function")]

def Splice.args (s : Splice) (globals : List Global) : List String :=
  (s.edits globals).flatMap Edit.args

/-! ### Plans -/

/-- One object to make. -/
structure CompileJob where
  unit : SourceUnit
  flags : Flags
  object : String
  /-- Position-independent code, so that calls between functions can be redirected. -/
  pic : Bool
  splice? : Option Splice
deriving DecidableEq, Repr

namespace Plan

def objectPath (objectDir : String) (unit : SourceUnit) (suffix : String) : String :=
  Path.join objectDir (unit.objectStem ++ suffix ++ ".o")

def plainJob (objectDir : String) (unit : SourceUnit) (flags : Flags) : CompileJob :=
  ⟨unit, flags, objectPath objectDir unit "", false, none⟩

def unitJob (p : Partition) (trusted variant : Flags) (objectDir : String) (unit : SourceUnit) :
    CompileJob :=
  plainJob objectDir unit (if p.isVariant unit.key then variant else trusted)

/-- Both sides have symbols. -/
def contested (p : Partition) : Bool :=
  !p.trusted.isEmpty && !p.variant.isEmpty

def splice? (p : Partition) (owned : List String) (ownsData : Bool) : Option Splice :=
  if contested p then some ⟨owned, p.trusted ++ p.variant, ownsData⟩ else none

/-- The objects of the unit whose symbols are divided. With no symbols at all it is trusted. -/
def scopedJobs (p : Partition) (trusted variant : Flags) (objectDir : String)
    (unit : SourceUnit) : List CompileJob :=
  (if !p.trusted.isEmpty || p.variant.isEmpty then
    [⟨unit, trusted, objectPath objectDir unit "_trusted", true, splice? p p.trusted true⟩]
  else []) ++
  (if !p.variant.isEmpty then
    [⟨unit, variant, objectPath objectDir unit "_variant", true, splice? p p.variant false⟩]
  else [])

def jobsOf (p : Partition) (trusted variant : Flags) (objectDir : String) (unit : SourceUnit) :
    List CompileJob :=
  match p.scope with
  | .units => [unitJob p trusted variant objectDir unit]
  | .symbols divided =>
    if (SourceUnit.mk divided).key = unit.key then scopedJobs p trusted variant objectDir unit
    else [plainJob objectDir unit trusted]

end Plan

/-- The jobs of a build, in the order in which their objects are linked. -/
def plan (units : List SourceUnit) (p : Partition) (trusted variant : Flags)
    (objectDir : String) : List CompileJob :=
  units.flatMap (Plan.jobsOf p trusted variant objectDir)

end Culprit.Toolchain
