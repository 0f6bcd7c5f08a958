import Culprit.Csv
import Culprit.Decimal.Literal
import Culprit.Results
import Culprit.Text.Blank

/-!
Results as comma-separated values. The first record names the columns, which may come in any order;
unknown columns are ignored. Names and fields lose the white space around them. Every record must
have as many fields as the first. When the first record is not text, the columns are taken in their
standard order.
-/

namespace Culprit.Results

inductive Column where
  | name
  | precision
  | compiler
  | optimization
  | switches
  | comparison
deriving DecidableEq, Repr

namespace Column

def all : List Column :=
  [.name, .precision, .compiler, .optimization, .switches, .comparison]

def title : Column → String
  | .name => "name"
  | .precision => "precision"
  | .compiler => "compiler"
  | .optimization => "optl"
  | .switches => "switches"
  | .comparison => "comparison"

def ofTitle? (s : String) : Option Column :=
  all.find? fun c => c.title = s

end Column

/-- What is wrong with a record. -/
inductive Fault where
  | fieldCount (found expected : Nat)
  | notText (field validBytes : Nat)
  | duplicate (column : Column)
  | missing (column : Column)
  | badNumber (field : Nat)
  | tooShort (fields : Nat)
deriving DecidableEq, Repr

def place (p : Csv.Position) : String :=
  "record " ++ toString p.record ++ " (line: " ++ toString p.line ++ ", byte: " ++
    toString p.byte ++ "): "

def Fault.message (p : Csv.Position) : Fault → String
  | .fieldCount found expected =>
    "CSV error: " ++ place p ++ "found record with " ++ toString found ++
      " fields, but the previous record has " ++ toString expected ++ " fields"
  | .notText field valid =>
    "CSV parse error: record " ++ toString p.record ++ " (line " ++ toString p.line ++
      ", field: " ++ toString field ++ ", byte: " ++ toString p.byte ++
      "): invalid utf-8: invalid UTF-8 in field " ++ toString field ++ " near byte index " ++
      toString valid
  | .duplicate c =>
    "CSV deserialize error: " ++ place p ++ "duplicate field \x60" ++ c.title ++ "\x60"
  | .missing c => "CSV deserialize error: " ++ place p ++ "missing field \x60" ++ c.title ++ "\x60"
  | .badNumber field =>
    "CSV deserialize error: " ++ place p ++ "field " ++ toString field ++ ": invalid float literal"
  | .tooShort fields =>
    "CSV deserialize error: " ++ place p ++ "invalid length " ++ toString fields ++
      ", expected struct ResultRow with 6 elements"

/-- A row as far as it has been read. -/
structure Draft where
  seen : List Column
  row : ResultRow

namespace Draft

def start : Draft := ⟨[], ⟨"", "", "", "", "", none⟩⟩

/-- An empty comparison is none. -/
def put (d : Draft) (c : Column) (field : Nat) (text : String) : Except Fault Draft :=
  let done (row : ResultRow) : Except Fault Draft := .ok ⟨c :: d.seen, row⟩
  match c with
  | .name => done { d.row with name := text }
  | .precision => done { d.row with precision := text }
  | .compiler => done { d.row with compiler := text }
  | .optimization => done { d.row with optimization := text }
  | .switches => done { d.row with switches := text }
  | .comparison =>
    if text.isEmpty then done { d.row with comparison? := none }
    else match Decimal.parse? text with
      | some x => done { d.row with comparison? := some x }
      | none => .error (.badNumber field)

/-- Fields under their columns, from the left; `field` is the number of the next. -/
def fill (d : Draft) (field : Nat) : List (Option Column × String) → Except Fault Draft
  | [] => .ok d
  | (none, _) :: rest => fill d (field + 1) rest
  | (some c, text) :: rest =>
    if c ∈ d.seen then .error (.duplicate c)
    else match d.put c field text with
      | .error e => .error e
      | .ok d => fill d (field + 1) rest

/-- Precision and compiler must be there; the lack of the first is told. -/
def finish (d : Draft) (lack : Column → Fault) : Except Fault ResultRow :=
  match [Column.precision, .compiler].find? (· ∉ d.seen) with
  | some c => .error (lack c)
  | none => .ok d.row

end Draft

def isAsciiBlank (b : UInt8) : Bool :=
  b = 32 || b = 9 || b = 10 || b = 12 || b = 13

def trimAscii (bytes : List UInt8) : List UInt8 :=
  ((bytes.dropWhile isAsciiBlank).reverse.dropWhile isAsciiBlank).reverse

/-- The trimmed texts of the fields, or the first field that is no text. What is wrong in it is
counted from its first byte that is not blank. -/
def texts (field : Nat) : List (List UInt8) → Except Fault (List String)
  | [] => .ok []
  | bytes :: rest =>
    match Text.Utf8.decode? bytes with
    | none => .error (.notText field (Text.Utf8.validLength (trimAscii bytes)))
    | some cs =>
      match texts (field + 1) rest with
      | .error e => .error e
      | .ok others => .ok (String.ofList (Text.trimChars cs) :: others)

/-- The columns that the first record names; nothing when it is not text. -/
def columns? (header : List (List UInt8)) : Option (List (Option Column)) :=
  match texts 0 header with
  | .ok names => some (names.map Column.ofTitle?)
  | .error _ => none

def rowOf (columns? : Option (List (Option Column))) (fields : List String) :
    Except Fault ResultRow :=
  match columns? with
  | some columns =>
    match Draft.start.fill 0 (columns.zip fields) with
    | .error e => .error e
    | .ok d => d.finish .missing
  | none =>
    match Draft.start.fill 0 ((Column.all.map some).zip fields) with
    | .error e => .error e
    | .ok d => d.finish fun _ => .tooShort fields.length

def readRow (columns? : Option (List (Option Column))) (width : Nat) (r : Csv.Record) :
    Except Fault ResultRow :=
  if r.fields.length ≠ width then .error (.fieldCount r.fields.length width)
  else match texts 0 r.fields with
    | .error e => .error e
    | .ok fields => rowOf columns? fields

/-- The first row that is wrong ends the reading. -/
def readRows (columns? : Option (List (Option Column))) (width number : Nat) :
    List Csv.Record → Except Error (List ResultRow)
  | [] => .ok []
  | r :: rest =>
    match readRow columns? width r with
    | .error fault => .error (.resultsRow number (fault.message r.start))
    | .ok row =>
      match readRows columns? width (number + 1) rest with
      | .error e => .error e
      | .ok rows => .ok (row :: rows)

def read (bytes : List UInt8) : Except Error (List ResultRow) :=
  match Csv.read bytes with
  | [] => .ok []
  | header :: rest => readRows (columns? header.fields) header.fields.length 1 rest

@[simp] theorem read_nil : read [] = .ok [] := rfl

end Culprit.Results
