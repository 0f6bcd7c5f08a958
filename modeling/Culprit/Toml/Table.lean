/-!
Values of a TOML document, and its tables while it is read. What a key or a header may still add to
a table hangs on how the table came about, so that no table and no key is defined twice.
-/

namespace Culprit

inductive Toml where
  | string (value : String)
  | integer (value : Int)
  | real (value : Float)
  | bool (value : Bool)
  /-- A date, a time or both, as written. -/
  | moment (text : String)
  | array (items : List Toml)
  | table (fields : List (String × Toml))
deriving Repr, Inhabited

namespace Toml

/-- How a table came about. -/
inductive Origin where
  /-- Under a header of its own. -/
  | header
  /-- On the way to the table of a longer header. -/
  | passage
  /-- On the way to the value of a dotted key. -/
  | dotted
deriving DecidableEq, Repr

def Origin.isDotted (o : Origin) : Bool :=
  o = .dotted

inductive Item where
  | value (v : Toml)
  | table (origin : Origin) (entries : List (String × Item))
  /-- Tables under headers of one name in double brackets. -/
  | series (tables : List (List (String × Item)))

abbrev Entries := List (String × Item)

def Entries.put (es : Entries) (key : String) (i : Item) : Entries :=
  es.map fun e => if e.1 = key then (key, i) else e

/-- What a way through tables does to the last of the way. -/
abbrev Change := Origin → Entries → Option Entries

/-- Goes along a path and makes the tables that are missing. A dotted key may not enter a table
that has a header. In a series the way leads through the last table. -/
def reach (dotted : Bool) (change : Change) : List String → Change
  | [], o, es => change o es
  | key :: path, _, es =>
    match es.lookup key with
    | none => do
      let origin := if dotted then .dotted else .passage
      let inner ← reach dotted change path origin []
      pure (es ++ [(key, .table origin inner)])
    | some (.value _) => none
    | some (.table origin inner) =>
      if dotted && origin = .header then none
      else do
        let inner ← reach dotted change path origin inner
        pure (Entries.put es key (.table origin inner))
    | some (.series tables) => do
      let last ← tables.getLast?
      let last ← reach dotted change path .header last
      pure (Entries.put es key (.series (tables.dropLast ++ [last])))

/-- A new key. A dotted key defines only in tables that dotted keys made. -/
def define (way : List String) (key : String) (v : Toml) : Change :=
  reach true (fun o es =>
    if o.isDotted = way.isEmpty then none
    else if (es.lookup key).isSome then none
    else some (es ++ [(key, .value v)])) way

mutual

def Item.close : Item → Toml
  | .value v => v
  | .table _ es => .table (closeEntries es)
  | .series tables => .array (closeSeries tables)

def closeEntries : List (String × Item) → List (String × Toml)
  | [] => []
  | (key, i) :: rest => (key, i.close) :: closeEntries rest

def closeSeries : List (List (String × Item)) → List Toml
  | [] => []
  | es :: rest => .table (closeEntries es) :: closeSeries rest

end

/-- A document up to some line: the closed tables, and the one that is open. -/
structure Draft where
  root : Entries
  entries : Entries
  /-- Where the open table belongs; empty for the keys before the first header. -/
  path : List String
  inSeries : Bool

namespace Draft

def start : Draft := ⟨[], [], [], false⟩

def placeTable (d : Draft) (key : String) : Change := fun _ es =>
  if (es.lookup key).isSome then none else some (es ++ [(key, .table .header d.entries)])

def placeElement (d : Draft) (key : String) : Change := fun _ es =>
  match es.lookup key with
  | none => some (es ++ [(key, .series [d.entries])])
  | some (.series tables) => some (Entries.put es key (.series (tables ++ [d.entries])))
  | some _ => none

/-- The whole document once the open table is in its place. -/
def close? (d : Draft) : Option Entries :=
  match d.path.getLast? with
  | none => some d.entries
  | some key =>
    reach false (if d.inSeries then d.placeElement key else d.placeTable key) d.path.dropLast
      .header d.root

def define? (d : Draft) (way : List String) (key : String) (v : Toml) : Option Draft :=
  (define way key v .header d.entries).map fun es => { d with entries := es }

/-- A table that was only passed through keeps its entries under its own header. -/
def taken? (key : String) (es : Entries) : Option Entries :=
  match es.lookup key with
  | none => some []
  | some (.table .passage inner) => some inner
  | some _ => none

/-- The entries that a table has before its header. -/
def entriesBefore? (path : List String) (root : Entries) : Option Entries :=
  match path with
  | [] => none
  | [key] => taken? key root
  | key :: rest =>
    match root.lookup key with
    | none => some []
    | some (.value _) => none
    | some (.table _ inner) => entriesBefore? rest inner
    | some (.series tables) => tables.getLast?.bind (entriesBefore? rest)

def withoutTable (key : String) : Change := fun _ es =>
  some (es.filter (·.1 ≠ key))

/-- A header in single brackets. -/
def openTable? (d : Draft) (path : List String) : Option Draft := do
  let root ← d.close?
  let key ← path.getLast?
  let entries ← entriesBefore? path root
  let root ← reach false (withoutTable key) path.dropLast .header root
  pure ⟨root, entries, path, false⟩

/-- A header in double brackets. -/
def openElement? (d : Draft) (path : List String) : Option Draft := do
  let root ← d.close?
  pure ⟨root, [], path, true⟩

end Draft

end Toml

end Culprit
