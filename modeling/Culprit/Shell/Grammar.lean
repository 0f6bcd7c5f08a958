import Culprit.Shell.Cursor

/-!
Reading commands. A reserved word counts only where a command may begin, and only when no part of
it is quoted. A script is read one command line at a time, since what one line does may change how
the next is read.
-/

namespace Culprit.Shell.Grammar

open Read (peek peekRaw skip fail expect setQuoting pushBack setLast)

def isNameStart (c : Char) : Bool :=
  c.isAlpha || c = '_'

def isNameChar (c : Char) : Bool :=
  c.isAlphanum || c = '_'

def isName (s : String) : Bool :=
  s.toList.all isNameChar && (s.toList.head?.map isNameStart).getD false

def isSpecial (c : Char) : Bool :=
  c.isDigit || "@*#?-$!".toList.contains c

def reservedWords : List String :=
  ["!", "case", "do", "done", "elif", "else", "esac", "fi", "for", "if", "in", "then", "until",
    "while", "\x7b", "\x7d"]

/-- Reserved words that end a list of commands. -/
def closers : List String :=
  ["do", "done", "elif", "else", "esac", "fi", "then", "\x7d"]

/-- Commands of the shell whose names no function can have. -/
def specialCommands : List String :=
  [".", ":", "break", "continue", "eval", "exec", "exit", "export", "local", "readonly", "return",
    "set", "shift", "times", "trap", "unset"]

def closesList : Token → Bool
  | .finish => true
  | .sign s => s = ")" || s = ";;"
  | .reserved s => closers.contains s
  | _ => false

def inQuotes (s : String) : String :=
  "\"" ++ s ++ "\""

/-- How a complaint calls a token. -/
def nameOf : Token → String
  | .finish => "end of file"
  | .lineBreak => "newline"
  | .sign s => inQuotes s
  | .reserved s => inQuotes s
  | .redirection => "redirection"
  | .word => "word"

/-- The last token is none that may come here. -/
def unexpected {α : Type} (expected? : Option Token) : Read α := do
  let expected := match expected? with
    | some t => " (expecting " ++ nameOf t ++ ")"
    | none => ""
  fail (nameOf (← get).last ++ " unexpected" ++ expected)

/-- Where a text stands that is being read as parts of a word. -/
inductive Place where
  | word
  /-- Between the braces of a parameter, outside quotes. -/
  | braces
  /-- Between double quotes, which may stand between braces. -/
  | quotes (braced : Bool)
  /-- Between braces in double quotes; more quotes may stand in between. -/
  | quotedBraces (inner : Bool)
  | document
  /-- In an arithmetic expression, so many brackets deep. -/
  | sum (depth : Nat)

namespace Place

def quoted : Place → Bool
  | .word => false
  | .braces => false
  | _ => true

/-- Whether there are braces around. -/
def braced : Place → Bool
  | .braces => true
  | .quotes b => b
  | .quotedBraces _ => true
  | _ => false

/-- Where the word of a parameter stands, unless it is a pattern. -/
def inside : Place → Place
  | .word => .braces
  | .braces => .braces
  | _ => .quotedBraces false

end Place

/-- What is missing where the text ends too early. -/
def incomplete {α : Type} (place : Place) : Read α := do
  let inDocument := (← get).document?.isSome
  match place with
  | .braces => fail "Missing '\x7d'"
  | .sum _ => fail "Missing '))'"
  | _ => fail (if inDocument then "Missing '\x7d'" else "Unterminated quoted string")

def endsWord (c : Char) : Bool :=
  " \t\n;&|<>()".toList.contains c

/-- At the start of a line of a document: whether the document ends here. Its last line is
passed. -/
def atDocumentEnd : Read Bool := do
  if (← get).document?.any fun d => !d.plain then discard peek
  let c ← get
  match c.document? with
  | none => pure false
  | some d =>
    let text := if d.tabless then c.ahead.dropWhile (· = '\t') else c.ahead
    let last := d.last.toList
    if last.isPrefixOf text && ((text.drop last.length).head?.getD '\n') = '\n' then do
      let below := text.drop last.length
      modify fun c => { c.replaceAhead (below.drop 1) with
        line := c.line + (if below.isEmpty then 0 else 1) }
      pure true
    else do
      modify fun c => c.replaceAhead text
      pure false

/-- The rest of a single-quoted text. -/
def singleQuoted : Nat → String → Read String
  | 0, _ => fail "Unterminated quoted string"
  | fuel + 1, s => do
    match ← peekRaw with
    | none => incomplete (.quotes false)
    | some c => do
      skip
      if c = '\'' then pure s else singleQuoted fuel (s.push c)

/-- The script between back quotes, with what the backslashes in it stand for. -/
def backQuoted (quoted : Bool) : Nat → String → Read String
  | 0, _ => fail "EOF in backquote substitution"
  | fuel + 1, s => do
    match ← peek with
    | none => fail "EOF in backquote substitution"
    | some '\x60' => do
      skip
      pure s
    | some '\\' => do
      skip
      match ← peekRaw with
      | none => fail "EOF in backquote substitution"
      | some c => do
        skip
        let own := c = '\\' || c = '\x60' || c = '$' || (quoted && c = '"')
        backQuoted quoted fuel (if own then s.push c else (s.push '\\').push c)
    | some c => do
      skip
      backQuoted quoted fuel (s.push c)

def while_ (p : Char → Bool) : Nat → String → Read String
  | 0, s => pure s
  | fuel + 1, s => do
    match ← peek with
    | some c =>
      if p c then do
        skip
        while_ p fuel (s.push c)
      else pure s
    | none => pure s

/-- What is done to a parameter, before the word that belongs to it is known. -/
inductive Subtype where
  | bad
  | plain
  | length
  | fallback (kind : Fallback) (emptyToo : Bool)
  /-- A colon without anything to do. -/
  | colon
  | cut (atEnd longest : Bool)

def fallbackOf? : Char → Option Fallback
  | '-' => some .use
  | '+' => some .replace
  | '?' => some .refuse
  | '=' => some .assign
  | _ => none

/-- The sign after the name of a parameter in braces. The closing brace may be that sign. -/
def subtype : Read Subtype := do
  match ← peek with
  | none => pure .bad
  | some ':' => do
    skip
    match ← peek with
    | none => pure .bad
    | some c => do
      skip
      if c = '\x7d' then pure .colon
      else pure ((fallbackOf? c).elim .bad fun k => .fallback k true)
  | some c => do
    skip
    if c = '\x7d' then pure .plain
    else if c = '%' || c = '#' then do
      if (← peek) = some c then do
        skip
        pure (.cut (c = '%') true)
      else pure (.cut (c = '%') false)
    else pure ((fallbackOf? c).elim .bad fun k => .fallback k false)

/-- A name that begins with a letter, or a number. -/
def name (fuel : Nat) (c : Char) : Read String :=
  if isNameStart c then while_ isNameChar fuel "" else while_ Char.isDigit fuel ""

/-- What stands between braces, up to the word. -/
def parameterHead (fuel : Nat) : Read (String × Subtype) := do
  match ← peek with
  | none => pure ("", .bad)
  | some c =>
    if isNameStart c || c.isDigit then do
      let n ← name fuel c
      return (n, ← subtype)
    else if c = '\x7d' then pure ("", .bad)
    else do
      skip
      if c = '#' then do
        match ← peek with
        | none => return ("#", ← subtype)
        | some d =>
          if isNameStart d || d.isDigit then do
            let n ← name fuel d
            return (n, if (← peek) = some '\x7d' then .length else .bad)
          else do
            let before ← get
            skip
            if d ≠ '\x7d' && (← peek) = some '\x7d' then
              return (String.singleton d, if isSpecial d then .length else .bad)
            else do
              set before
              return ("#", ← subtype)
      else if isSpecial c then return (String.singleton c, ← subtype)
      else pure ("", .bad)

def directionOf (c : Char) (descriptor? : Option Nat) : Read Opening := do
  let d := descriptor?.getD (if c = '<' then 0 else 1)
  let next ← peek
  match c, next with
  | '>', some '>' => do
    skip
    pure (.file d .append)
  | '>', some '|' => do
    skip
    pure (.file d .overwrite)
  | '>', some '&' => do
    skip
    pure (.duplicate d)
  | '>', _ => pure (.file d .output)
  | _, some '<' => do
    skip
    if (← peek) = some '-' then do
      skip
      pure (.document d true)
    else pure (.document d false)
  | _, some '&' => do
    skip
    pure (.duplicate d)
  | _, some '>' => do
    skip
    pure (.file d .both)
  | _, _ => pure (.file d .input)

/-- A digit right before a redirection is its descriptor. -/
def digit? : Word → Option Nat
  | [.text s false] =>
    match s.toList with
    | [c] => if c.isDigit then some (c.toNat - 48) else none
    | _ => none
  | _ => none

def withQuality (quoted : Bool) : Word → Char → Word := fun w c => w.push c quoted

def isAssignment : Word → Bool
  | .text s false :: _ =>
    (s.toList.head?.map isNameStart).getD false &&
      (s.toList.dropWhile isNameChar).head? = some '='
  | _ => false

def leaveAwaited : Read (List Awaited) := do
  let c ← get
  set { c with awaited := [] }
  pure c.awaited

def putDocument (number : Nat) (w : Word) : Read Unit :=
  modify fun c => { c with documents := c.documents.setIfInBounds number w }

/-- The lines of a document in which nothing is expanded. -/
def plainLines : Nat → String → Read String
  | 0, s => pure s
  | fuel + 1, s => do
    if ← atDocumentEnd then pure s
    else
      let text := (← get).ahead
      let line := text.takeWhile (· ≠ '\n')
      match text.drop line.length with
      | [] => do
        modify fun c => c.replaceAhead []
        pure (s ++ String.ofList line)
      | _ :: below => do
        modify fun c => { c.replaceAhead below with line := c.line + 1 }
        plainLines fuel ((s ++ String.ofList line).push '\n')

def comment : Read Unit :=
  modify fun c => c.replaceAhead (c.ahead.dropWhile (· ≠ '\n'))

/-- A sign that may be doubled. -/
def signOf (c : Char) (double : String) : Read Token := do
  skip
  if (← peek) = some c then do
    skip
    pure (.sign double)
  else pure (.sign (String.singleton c))

/-- A simple command as far as it has been read, newest first. -/
structure Simple where
  line : Nat
  assignments : List Word
  words : List Word
  redirections : List Redirection

def Simple.command (s : Simple) : Command :=
  .simple s.line s.assignments.reverse s.words.reverse s.redirections.reverse

mutual

/-- The parts of a word up to where it ends; they are gathered with the last one first. -/
def parts : Nat → Place → Word → Read Word
  | 0, place, _ => incomplete place
  | fuel + 1, place, w => do
    match ← peek with
    | none =>
      match place with
      | .word => pure w.reverse
      | .document => pure w.reverse
      | place => incomplete place
    | some c =>
      let literal : Read Word := do
        skip
        if c = '\n' && (← atDocumentEnd) then
          match place with
          | .document => pure (w.push c true).reverse
          | place => incomplete place
        else parts fuel place (w.push c place.quoted)
      match c with
      | '\\' => do
        skip
        match ← peekRaw with
        | none => parts fuel place (w.push '\\' true)
        | some d => do
          skip
          setQuoting
          let inDocument := (← get).document?.isSome
          let stays := place.quoted && d ≠ '\\' && d ≠ '\x60' && d ≠ '$' &&
            (d ≠ '"' || (inDocument && !place.braced)) && (d ≠ '\x7d' || !place.braced)
          parts fuel place ((if stays then w.push '\\' true else w).push d true)
      | '\'' =>
        if place.quoted then literal
        else do
          skip
          let s ← singleQuoted fuel ""
          setQuoting
          let quote := s.toList.foldl (withQuality true) (.mark :: w)
          parts fuel place (.mark :: quote)
      | '"' =>
        match place with
        | .quotes _ => do
          skip
          setQuoting
          pure w.reverse
        | .quotedBraces inner => do
          skip
          setQuoting
          let inDocument := (← get).document?.isSome
          parts fuel (.quotedBraces (!inner)) (if inDocument then w else .mark :: w)
        | .document => literal
        | .sum _ => literal
        | place => do
          skip
          let inner ← parts fuel (.quotes place.braced) []
          parts fuel place (.mark :: (inner.reverse ++ .mark :: w))
      | '\x7d' =>
        match place with
        | .braces => do
          skip
          pure w.reverse
        | .quotedBraces false => do
          skip
          pure w.reverse
        | _ => literal
      | '$' => do
        if (← get).expected.ending then literal
        else do
          skip
          let more ← dollar fuel place
          match more with
          | some p => parts fuel place (p :: w)
          | none => parts fuel place (w.push '$' place.quoted)
      | '\x60' => do
        if (← get).expected.ending then literal
        else do
          skip
          let script ← backQuoted place.quoted fuel ""
          let command ← nested fuel script
          parts fuel place (.output command place.quoted :: w)
      | c =>
        match place with
        | .word => if endsWord c then pure w.reverse else literal
        | .sum depth =>
          if c = '(' then do
            skip
            parts fuel (.sum (depth + 1)) (w.push c true)
          else if c = ')' && depth ≠ 0 then do
            skip
            parts fuel (.sum (depth - 1)) (w.push c true)
          else if c = ')' then do
            skip
            if (← peek) = some ')' then do
              skip
              pure w.reverse
            else parts fuel place (w.push c true)
          else literal
        | _ => literal

/-- After a dollar sign. A sign that starts nothing stands for itself. -/
def dollar : Nat → Place → Read (Option Part)
  | 0, place => incomplete place
  | fuel + 1, place => do
    match ← peek with
    | some '(' => do
      skip
      if (← peek) = some '(' then do
        skip
        return some (.arithmetic (← parts fuel (.sum 0) []) place.quoted)
      else return some (.output (← enclosed fuel) place.quoted)
    | some '\x7b' => do
      skip
      let (n, subtype) ← parameterHead fuel
      match subtype with
      | .plain => pure (some (.parameter n .whole place.quoted))
      | .bad => do
        discard (parts fuel place.inside [])
        pure (some .badParameter)
      | .colon => do
        discard (parts fuel place.inside [])
        pure (some (.parameter n .whole place.quoted))
      | .length => do
        discard (parts fuel place.inside [])
        pure (some (.parameter n .length place.quoted))
      | .fallback kind emptyToo => do
        let word ← parts fuel place.inside []
        pure (some (.parameter n (.fallback kind emptyToo word) place.quoted))
      | .cut atEnd longest => do
        let pattern ← parts fuel .braces []
        pure (some (.parameter n (.cut atEnd longest pattern) place.quoted))
    | some c =>
      if isNameStart c then
        return some (.parameter (← while_ isNameChar fuel "") .whole place.quoted)
      else if isSpecial c then do
        skip
        pure (some (.parameter (String.singleton c) .whole place.quoted))
      else pure none
    | none => pure none

/-- The commands up to a closing bracket. Documents that have not come by then are empty. -/
def enclosed : Nat → Read Command
  | 0 => fail "end of file unexpected"
  | fuel + 1 => do
    let before ← get
    set { before with awaited := [], document? := none }
    let c ← list fuel true true
    if (← token fuel) ≠ .sign ")" then unexpected (some (.sign ")"))
    else do
      modify fun after => { after with
        awaited := before.awaited, document? := before.document?, quoting := before.quoting
        expected := before.expected }
      pure c

/-- The commands of a script inside a word. -/
def nested : Nat → String → Read Command
  | 0, _ => fail "end of file unexpected"
  | fuel + 1, script => do
    let before ← get
    set { before with
      rest := script.toList, inlays := [], line := 1, awaited := [], document? := none }
    let c ← list fuel true true
    modify fun after => { before with documents := after.documents, last := after.last }
    pure c

/-- The documents whose lines begin here. -/
def documents : Nat → Read Unit
  | 0 => pure ()
  | fuel + 1 => do
    (← leaveAwaited).forM fun d => do
      modify fun c => { c with document? := some d }
      if d.plain then do
        let s ← plainLines fuel ""
        putDocument d.number [.text s true]
      else if ← atDocumentEnd then putDocument d.number []
      else putDocument d.number (← parts fuel .document [])
      modify fun c => { c with document? := none }

/-- The next token, whatever it could be taken for. -/
def rawToken : Nat → Read Token
  | 0 => fail "end of file unexpected"
  | fuel + 1 => do
    if (← get).again then do
      modify fun c => { c with again := false }
      return (← get).last
    else
      match ← peek with
      | none => setLast .finish
      | some c =>
        if c = ' ' || c = '\t' then do
          skip
          rawToken fuel
        else if c = '#' then do
          comment
          rawToken fuel
        else if c = '\n' then do
          skip
          setLast .lineBreak
        else if c = '&' then do setLast (← signOf c "&&")
        else if c = '|' then do setLast (← signOf c "||")
        else if c = ';' then do setLast (← signOf c ";;")
        else if c = '(' || c = ')' then do
          skip
          setLast (.sign (String.singleton c))
        else do
          modify fun c => { c with quoting := false }
          let w ← parts fuel .word []
          let quoted := (← get).quoting
          match ← peek with
          | some d =>
            if (d = '<' || d = '>') && !quoted && (w.isEmpty || (digit? w).isSome) then do
              skip
              let o ← directionOf d (digit? w)
              modify fun c => { c with opening := o }
              setLast .redirection
            else do
              modify fun c => { c with word := w, wordQuoted := quoted }
              setLast .word
          | none => do
            modify fun c => { c with word := w, wordQuoted := quoted }
            setLast .word

/-- The next token. Line breaks before it, reserved words and aliases count as it is expected. -/
def token : Nat → Read Token
  | 0 => fail "end of file unexpected"
  | fuel + 1 => do
    let e := (← get).expected
    tokenAs fuel e

def tokenAs : Nat → Expected → Read Token
  | 0, _ => fail "end of file unexpected"
  | fuel + 1, e => do
    let t ← rawToken fuel
    if t = .lineBreak && e.breaks then do
      documents fuel
      expect .nothing
      tokenAs fuel e
    else do
      let c ← get
      let reserved := e.reserved || c.expected.reserved
      let aliases := e.aliases || c.expected.aliases
      expect .nothing
      match t, c.wordQuoted, c.word.bare? with
      | .word, false, some s =>
        if reserved && reservedWords.contains s then setLast (.reserved s)
        else if aliases && !(c.inlays.any fun i => i.name = s) then
          match c.aliases.lookup s with
          | some text => do
            let loose := text.toList.getLast?.any fun d => d = ' ' || d = '\t'
            if !text.isEmpty then
              modify fun c => { c with inlays := ⟨text.toList, s, loose⟩ :: c.inlays }
            tokenAs fuel { e with reserved := reserved, aliases := aliases }
          | none => pure t
        else pure t
      | t, _, _ => pure t

/-- Commands one after the other. On one line they end with the line; otherwise at a token that
closes them, of which there has to come a command first unless the list may be empty. -/
def list : Nat → (below mayBeEmpty : Bool) → Read Command
  | 0, _, _ => fail "end of file unexpected"
  | fuel + 1, below, mayBeEmpty => listFrom fuel below mayBeEmpty .nothing

def listFrom : Nat → Bool → Bool → Command → Read Command
  | 0, _, _, _ => fail "end of file unexpected"
  | fuel + 1, below, mayEnd, before => do
    expect (if below then .commandBelow else .command)
    match ← token fuel with
    | .lineBreak => do
      documents fuel
      pure before
    | .finish => do
      documents fuel
      pushBack
      modify fun c => { c with last := .finish }
      pure before
    | t => do
      pushBack
      if below && mayEnd && closesList t then pure before
      else do
        let c ← chain fuel
        let t ← token fuel
        let c := if t = .sign "&" then .background c else c
        let all := match before with
          | .nothing => c
          | before => .sequence before c
        match t with
        | .lineBreak => do
          pushBack
          listFrom fuel below true all
        | .finish => do
          documents fuel
          pushBack
          modify fun c => { c with last := .finish }
          pure all
        | .sign "&" => listFrom fuel below true all
        | .sign ";" => listFrom fuel below true all
        | _ =>
          if below then do
            pushBack
            pure all
          else unexpected none

/-- Pipelines joined by `&&` and `||`, from the left. -/
def chain : Nat → Read Command
  | 0 => fail "end of file unexpected"
  | fuel + 1 => do links fuel (← pipeline fuel)

def links : Nat → Command → Read Command
  | 0, _ => fail "end of file unexpected"
  | fuel + 1, c => do
    match ← token fuel with
    | .sign "&&" => do
      expect .commandBelow
      let d ← pipeline fuel
      links fuel (.both c d)
    | .sign "||" => do
      expect .commandBelow
      let d ← pipeline fuel
      links fuel (.either c d)
    | _ => do
      pushBack
      pure c

def pipeline : Nat → Read Command
  | 0 => fail "end of file unexpected"
  | fuel + 1 => do
    let negated := (← token fuel) = .reserved "!"
    if negated then expect .command else pushBack
    let first ← command fuel
    let stages ← stages fuel
    let c := if stages.isEmpty then first else .pipe (first :: stages)
    pure (if negated then .negation c else c)

def stages : Nat → Read (List Command)
  | 0 => fail "end of file unexpected"
  | fuel + 1 => do
    if (← token fuel) = .sign "|" then do
      expect .commandBelow
      let c ← command fuel
      return c :: (← stages fuel)
    else do
      pushBack
      pure []

def need : Nat → Token → Read Unit
  | 0, _ => fail "end of file unexpected"
  | fuel + 1, t => do
    if (← token fuel) ≠ t then unexpected (some t)

/-- A command with the redirections after it. -/
def command : Nat → Read Command
  | 0 => fail "end of file unexpected"
  | fuel + 1 => do
    let line := (← get).line
    match ← token fuel with
    | .reserved "if" => do
      let c ← branch fuel
      redirected fuel line c
    | .reserved "while" => do
      let condition ← list fuel true false
      let c ← body fuel
      redirected fuel line (.loop false condition c)
    | .reserved "until" => do
      let condition ← list fuel true false
      let c ← body fuel
      redirected fuel line (.loop true condition c)
    | .reserved "for" => do
      let c ← each fuel line
      redirected fuel line c
    | .reserved "case" => do
      let c ← choice fuel line
      redirected fuel line c
    | .sign "(" => do
      let c ← list fuel true false
      need fuel (.sign ")")
      expect .command
      return .isolated line c (← redirections fuel)
    | .reserved "\x7b" => do
      let c ← list fuel true false
      need fuel (.reserved "\x7d")
      redirected fuel line c
    | .word => do
      pushBack
      let here := (← get).line
      simple fuel ⟨here, [], [], []⟩ .argument
    | .redirection => do
      pushBack
      let here := (← get).line
      simple fuel ⟨here, [], [], []⟩ .argument
    | _ => unexpected none

def redirected : Nat → Nat → Command → Read Command
  | 0, _, _ => fail "end of file unexpected"
  | fuel + 1, line, c => do
    expect .command
    let rs ← redirections fuel
    pure (if rs.isEmpty then c else .redirected line c rs)

def redirections : Nat → Read (List Redirection)
  | 0 => pure []
  | fuel + 1 => do
    if (← token fuel) = .redirection then do
      let r ← target fuel
      return r :: (← redirections fuel)
    else do
      pushBack
      pure []

/-- What a redirection leads to. -/
def target : Nat → Read Redirection
  | 0 => fail "end of file unexpected"
  | fuel + 1 => do
    let o := (← get).opening
    match o with
    | .document .. => expect .documentEnd
    | _ => pure ()
    if (← token fuel) ≠ .word then unexpected none
    else do
      let c ← get
      match o with
      | .file d direction => pure (.file d direction c.word)
      | .duplicate d => pure (.duplicate d c.word)
      | .document d tabless => do
        let number := c.documents.size
        let due : Awaited := ⟨number, Word.plain c.word, tabless, c.wordQuoted⟩
        set { c with documents := c.documents.push [], awaited := c.awaited ++ [due] }
        pure (.document d number)

/-- A simple command, or the definition of a function. -/
def simple : Nat → Simple → Expected → Read Command
  | 0, _, _ => fail "end of file unexpected"
  | fuel + 1, s, e => do
    expect e
    match ← token fuel with
    | .word => do
      let w := (← get).word
      if e.aliases && isAssignment w then
        simple fuel { s with assignments := w :: s.assignments } e
      else simple fuel { s with words := w :: s.words } .nothing
    | .redirection => do
      let r ← target fuel
      simple fuel { s with redirections := r :: s.redirections } e
    | .sign "(" =>
      match s with
      | ⟨_, [], [w], []⟩ => do
        need fuel (.sign ")")
        match w.bare? with
        | some name =>
          if isName name && !specialCommands.contains name then do
            expect .commandBelow
            return .define name (← command fuel)
          else fail "Bad function name"
        | none => fail "Bad function name"
      | s => do
        pushBack
        pure s.command
    | _ => do
      pushBack
      pure s.command

/-- After `if` or `elif`. -/
def branch : Nat → Read Command
  | 0 => fail "end of file unexpected"
  | fuel + 1 => do
    let condition ← list fuel true false
    need fuel (.reserved "then")
    let yes ← list fuel true false
    match ← token fuel with
    | .reserved "elif" => return .branch condition yes (← branch fuel)
    | .reserved "else" => do
      let no ← list fuel true false
      need fuel (.reserved "fi")
      pure (.branch condition yes no)
    | _ => do
      pushBack
      need fuel (.reserved "fi")
      pure (.branch condition yes .nothing)

def body : Nat → Read Command
  | 0 => fail "end of file unexpected"
  | fuel + 1 => do
    need fuel (.reserved "do")
    let c ← list fuel true false
    need fuel (.reserved "done")
    pure c

def each : Nat → Nat → Read Command
  | 0, _ => fail "end of file unexpected"
  | fuel + 1, line => do
    let t ← token fuel
    let c ← get
    match t, c.wordQuoted, c.word.bare? with
    | .word, false, some name =>
      if !isName name then fail "Bad for loop variable"
      else do
        expect .commandBelow
        match ← token fuel with
        | .reserved "in" => do
          let ws ← words fuel
          match (← get).last with
          | .lineBreak => pure ()
          | .sign ";" => pure ()
          | _ => unexpected none
          expect .commandBelow
          return .each line name ws (← body fuel)
        | t => do
          if t ≠ .sign ";" then pushBack
          expect .commandBelow
          return .each line name [everyParameter] (← body fuel)
    | _, _, _ => fail "Bad for loop variable"

/-- Words up to a token that is none. -/
def words : Nat → Read (List Word)
  | 0 => fail "end of file unexpected"
  | fuel + 1 => do
    if (← token fuel) = .word then do
      let w := (← get).word
      return w :: (← words fuel)
    else pure []

def choice : Nat → Nat → Read Command
  | 0, _ => fail "end of file unexpected"
  | fuel + 1, line => do
    if (← token fuel) ≠ .word then unexpected (some .word)
    else do
      let w := (← get).word
      expect .commandBelow
      need fuel (.reserved "in")
      return .choice line w (← arms fuel)

def arms : Nat → Read (List (List Word × Command))
  | 0 => fail "end of file unexpected"
  | fuel + 1 => do
    expect .arm
    if (← token fuel) = .reserved "esac" then pure []
    else do
      if (← get).last = .sign "(" then discard (token fuel)
      let ps ← patterns fuel
      if (← get).last ≠ .sign ")" then unexpected (some (.sign ")"))
      else do
        let c ← list fuel true true
        expect .arm
        match ← token fuel with
        | .reserved "esac" => pure [(ps, c)]
        | .sign ";;" => return (ps, c) :: (← arms fuel)
        | _ => unexpected (some (.sign ";;"))

/-- The patterns of an arm, with bars between them. -/
def patterns : Nat → Read (List Word)
  | 0 => fail "end of file unexpected"
  | fuel + 1 => do
    let w := (← get).word
    if (← token fuel) = .sign "|" then do
      discard (token fuel)
      return w :: (← patterns fuel)
    else pure [w]

end

/-- What a line of a script comes to. -/
inductive Line where
  | finish
  /-- Nothing else follows the last command. -/
  | command (c : Command) (isLast : Bool)
  | fault (f : Fault)

/-- More steps than a reader ever takes. -/
def steps : Nat := 1000000000000

/-- The commands of the next line, and where the line after it begins. -/
def nextLine (c : Cursor) : Line × Cursor :=
  let fresh := { c with again := false, expected := .nothing, awaited := [], document? := none }
  match (list steps false false).run fresh with
  | .error f => (.fault f, c)
  | .ok (command, after) =>
    let ended := after.again && after.last = .finish
    match command, ended with
    | .nothing, true => (.finish, after)
    | command, ended => (.command command ended, after)

/-- A text as the lines of a document, whose scripts add to the other documents. -/
def asDocument (text : String) (documents : Array Word) : Option (Word × Array Word) :=
  match (parts steps .document []).run (Cursor.start text [] documents) with
  | .ok (w, after) => some (w, after.documents)
  | .error _ => none

end Culprit.Shell.Grammar
