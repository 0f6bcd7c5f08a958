import Culprit.Text.Utf8

/-!
Comma-separated values: a field with a comma, a quote or a line break is quoted, and a quote inside
it is written twice. Each record is a line.

They are read from bytes. A record ends at a line feed or a carriage return, lines without any field
are skipped, and a line feed right after a carriage return is one of those. A quote at the start of
a field opens it up to the next single quote; what follows that quote still belongs to the field.

Each record knows where the reader stood when it began: right after the byte that ended the record
before.
-/

namespace Culprit.Csv

/-- A place in the input: the number of the record that comes next, the line and the byte. -/
structure Position where
  record : Nat
  line : Nat
  byte : Nat
deriving DecidableEq, Repr

structure Record where
  start : Position
  fields : List (List UInt8)
deriving DecidableEq, Repr

inductive Mode where
  | startRecord
  | startField
  | inField
  | inQuotes
  /-- After a quote inside quotes: it closes the field unless another follows. -/
  | afterQuote
deriving DecidableEq, Repr

/-- `field`, `fields` and `records` are kept newest first. -/
structure State where
  mode : Mode
  field : List UInt8
  fields : List (List UInt8)
  records : List Record
  start : Position
  line : Nat
  byte : Nat
deriving DecidableEq, Repr

def comma : UInt8 := 44

def quote : UInt8 := 34

def lineFeed : UInt8 := 10

def carriageReturn : UInt8 := 13

def isTerminator (b : UInt8) : Bool :=
  b = lineFeed || b = carriageReturn

namespace State

def endField (s : State) : State :=
  { s with mode := .startField, field := [], fields := s.field.reverse :: s.fields }

def endRecord (s : State) : State :=
  let s := s.endField
  { s with
    mode := .startRecord
    fields := []
    records := ⟨s.start, s.fields.reverse⟩ :: s.records
    start := ⟨s.start.record + 1, s.line, s.byte⟩ }

def copy (s : State) (mode : Mode) (b : UInt8) : State :=
  { s with mode := mode, field := b :: s.field }

/-- A byte that is not inside quotes. -/
def plain (s : State) (b : UInt8) : State :=
  if b = comma then s.endField
  else if isTerminator b then s.endRecord
  else s.copy .inField b

/-- The byte is counted before it is looked at. -/
def count (s : State) (b : UInt8) : State :=
  { s with byte := s.byte + 1, line := if b = lineFeed then s.line + 1 else s.line }

def step (s : State) (b : UInt8) : State :=
  let s := s.count b
  match s.mode with
  | .startRecord =>
    -- An empty line; the record may still begin on the next one.
    if isTerminator b then s
    else if b = quote then { s with mode := .inQuotes }
    else s.plain b
  | .startField => if b = quote then { s with mode := .inQuotes } else s.plain b
  | .inField => s.plain b
  | .inQuotes => if b = quote then { s with mode := .afterQuote } else s.copy .inQuotes b
  | .afterQuote => if b = quote then s.copy .inQuotes b else s.plain b

/-- The input may end inside a record. -/
def finish (s : State) : List Record :=
  match s.mode with
  | .startRecord => s.records.reverse
  | _ => s.endRecord.records.reverse

end State

def byteOrderMark : List UInt8 := [0xEF, 0xBB, 0xBF]

/-- A byte order mark at the start is no text, but its bytes count. -/
def read (bytes : List UInt8) : List Record :=
  let marked := byteOrderMark.isPrefixOf bytes
  let skipped := if marked then 3 else 0
  let s : State := ⟨.startRecord, [], [], [], ⟨0, 1, 0⟩, 1, skipped⟩
  ((bytes.drop skipped).foldl State.step s).finish

/-! ### Writing -/

def needsQuotes (c : Char) : Bool :=
  c = ',' || c = '"' || c = '\r' || c = '\n'

def doubleQuotes (cs : List Char) : List Char :=
  cs.flatMap fun c => if c = '"' then ['"', '"'] else [c]

def writeField (cs : List Char) : List Char :=
  if cs.any needsQuotes then '"' :: doubleQuotes cs ++ ['"'] else cs

def fieldsText : List (List Char) → List Char
  | [] => []
  | [f] => writeField f
  | f :: rest => writeField f ++ ',' :: fieldsText rest

/-- A record of one empty field is quoted, since an empty line is no record. -/
def recordText (fields : List (List Char)) : List Char :=
  (if fields = [[]] then ['"', '"'] else fieldsText fields) ++ ['\n']

def writeRecord (fields : List String) : String :=
  String.ofList (recordText (fields.map String.toList))

def write (records : List (List String)) : String :=
  String.join (records.map writeRecord)

end Culprit.Csv
