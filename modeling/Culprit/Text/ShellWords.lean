/-!
Command lines in the quoting of a POSIX shell: `split` reads one into its words, `join` writes
words so that `split` reads them back.

Words are separated by space, tab and line feed. A `#` where a word could start begins a comment
to the end of the line. A backslash outside quotes keeps the next character, and with a line feed
both vanish. Single quotes keep everything; double quotes keep all but a backslash before a
dollar sign, a backtick, a double quote, a backslash or a line feed.
-/

namespace Culprit.Text.ShellWords

/-- Where the reader stands: between words, in a comment, or inside a word. -/
inductive Mode where
  | between
  | comment
  | bare
  | bareEscape
  | single
  | double
  | doubleEscape
deriving DecidableEq, Repr

def isSeparator (c : Char) : Bool :=
  c = ' ' || c = '\t' || c = '\n'

/-- The characters that a backslash inside double quotes takes with it. -/
def escapedInDouble (c : Char) : Bool :=
  c = '$' || c = '\x60' || c = '"' || c = '\\'

/-- `word` is the word being read, newest character first. Nothing is returned for an open quote
or a final backslash. -/
def splitAux : Mode → List Char → List Char → Option (List (List Char))
  | .between, _, [] => some []
  | .comment, _, [] => some []
  | .bare, word, [] => some [word.reverse]
  | .bareEscape, _, [] => none
  | .single, _, [] => none
  | .double, _, [] => none
  | .doubleEscape, _, [] => none
  | .between, _, c :: r =>
    if isSeparator c then splitAux .between [] r
    else if c = '#' then splitAux .comment [] r
    else if c = '\\' then splitAux .bareEscape [] r
    else if c = '\'' then splitAux .single [] r
    else if c = '"' then splitAux .double [] r
    else splitAux .bare [c] r
  | .comment, _, c :: r => splitAux (if c = '\n' then .between else .comment) [] r
  | .bare, word, c :: r =>
    if isSeparator c then (splitAux .between [] r).map (word.reverse :: ·)
    else if c = '\\' then splitAux .bareEscape word r
    else if c = '\'' then splitAux .single word r
    else if c = '"' then splitAux .double word r
    else splitAux .bare (c :: word) r
  | .bareEscape, word, c :: r => splitAux .bare (if c = '\n' then word else c :: word) r
  | .single, word, c :: r =>
    if c = '\'' then splitAux .bare word r else splitAux .single (c :: word) r
  | .double, word, c :: r =>
    if c = '"' then splitAux .bare word r
    else if c = '\\' then splitAux .doubleEscape word r
    else splitAux .double (c :: word) r
  | .doubleEscape, word, c :: r =>
    if c = '\n' then splitAux .double word r
    else if escapedInDouble c then splitAux .double (c :: word) r
    else splitAux .double (c :: '\\' :: word) r

def splitChars (cs : List Char) : Option (List (List Char)) :=
  splitAux .between [] cs

def split (s : String) : Option (List String) :=
  (splitChars s.toList).map (·.map String.ofList)

/-- The ways a stretch of a word can be written. -/
structure Styles where
  bare : Bool
  single : Bool
  double : Bool
deriving DecidableEq, Repr

def Styles.any (s : Styles) : Bool :=
  s.bare || s.single || s.double

def Styles.and (s t : Styles) : Styles :=
  ⟨s.bare && t.bare, s.single && t.single, s.double && t.double⟩

def isPlain (c : Char) : Bool :=
  c.isAlphanum || "+-./:@]_".toList.contains c

/-- The styles in which `c` can stand. -/
def stylesOf (c : Char) : Styles :=
  { bare := isPlain c
    single := !(c = '\'' || c = '^' || c = '\\')
    double := !(c = '\x60' || c = '$' || c = '!' || c = '^') }

/-- A stretch that a caret begins is written in single quotes, caret included. -/
def startStyles (c : Char) : Styles :=
  if c = '^' then ⟨false, true, false⟩ else stylesOf c

/-- How many more characters can be written in one of `styles`, and the styles that remain. -/
def stretch (styles : Styles) : List Char → Nat × Styles
  | [] => (0, styles)
  | c :: r =>
    let narrowed := styles.and (stylesOf c)
    if narrowed.any then
      let (n, final) := stretch narrowed r
      (n + 1, final)
    else (0, styles)

def writeStretch (styles : Styles) (cs : List Char) : List Char :=
  if styles.bare then cs
  else if styles.single then '\'' :: cs ++ ['\'']
  else '"' :: (cs.flatMap fun c => if escapedInDouble c then ['\\', c] else [c]) ++ ['"']

/-- `skip` characters were written with the stretch before. -/
def quoteAux : Nat → List Char → List Char
  | _, [] => []
  | skip + 1, _ :: r => quoteAux skip r
  | 0, c :: r =>
    let (n, styles) := stretch (startStyles c) r
    writeStretch styles (c :: r.take n) ++ quoteAux n r

def quoteChars (word : List Char) : List Char :=
  if word.isEmpty then ['\'', '\''] else quoteAux 0 word

/-- A word with a NUL cannot be quoted; then the words are joined as they are. -/
def join (words : List String) : String :=
  if words.any (·.toList.contains '\x00') then String.intercalate " " words
  else String.intercalate " " (words.map fun w => String.ofList (quoteChars w.toList))

end Culprit.Text.ShellWords
