import Culprit.Decimal.Literal
import Culprit.Shell.Printf
import Culprit.Shell.Tools.Basic

/-!
Tools that pass text on, count it or make it.
-/

namespace Culprit.Shell.Tools

open Act

def copyAll : Nat → Nat → Act Unit
  | 0, _ => pure ()
  | fuel + 1, descriptor => do
    match ← ask (System.read descriptor block) with
    | .error _ => pure ()
    | .ok bytes =>
      if bytes.isEmpty then pure ()
      else do
        discard (writeBytes 1 bytes)
        copyAll fuel descriptor

/-- Reading a directory fails only when it is read. -/
def readText (tool name : String) (descriptor : Nat) : Act (Option ByteArray) := do
  match ← ask (System.read descriptor 0) with
  | .error e => do
    complainOf tool (name ++ ": " ++ faultText e)
    pure none
  | .ok _ => return some (← readAll descriptor)

/-- Lines with a number each, and with their ends made visible, as options ask for it. -/
def decorated (o : Options) (lines : List String) : String :=
  let one (n : Nat) (line : String) : Nat × String :=
    let text := withoutEnd line
    let shown := if o.has 'E' && text ≠ line then text ++ "$\n" else line
    let digits := toString (n + 1)
    let blanks := String.ofList (List.replicate (6 - digits.length) ' ')
    if if o.has 'b' then text ≠ "" else o.has 'n' then (n + 1, blanks ++ digits ++ "\t" ++ shown)
    else (n, shown)
  (lines.foldl (fun (n, all) line =>
    let (m, shown) := one n line
    (m, all ++ shown)) (0, "")).2

def cat (args : List String) : Act Nat :=
  withOptions "cat" "unbE" "" args fun o => do
    let bad ← eachDirectory o.rest
    let plain := !(o.has 'n' || o.has 'b' || o.has 'E')
    let status ← eachFile "cat" id o.rest fun name descriptor => do
      match ← ask (System.read descriptor 0) with
      | .error e => complainOf "cat" (name ++ ": " ++ faultText e)
      | .ok _ =>
        if plain then copyAll endless descriptor
        else do
          let text := Bytes.ofArray (← readAll descriptor)
          write 1 (decorated o (linesWithEnds text))
    pure (max bad status)
where
  eachDirectory (names : List String) : Act Nat := do
    let isDirectory (name : String) : Act Bool := do
      match ← node? name with
      | .ok .directory => pure true
      | _ => pure false
    return if ← names.anyM isDirectory then 1 else 0

/-- Words, as far as blanks of one byte divide them. -/
def countWords (cs : List Char) : Nat :=
  (cs.foldl (fun (n, inside) c =>
    if Arithmetic.isSpace c then (n, false) else (if inside then n else n + 1, true))
    ((0 : Nat), false)).1

def column (width n : Nat) : String :=
  let s := toString n
  String.ofList (List.replicate (width - s.length) ' ') ++ s

/-- Several counts have columns: seven wide for what has no size beforehand. -/
def wc (args : List String) : Act Nat :=
  withOptions "wc" "lwcm" "" args fun o => do
    let asked := if o.flags.isEmpty then "lwc".toList else "lwmc".toList.filter o.has
    let countOf (bytes : ByteArray) (c : Char) : Nat :=
      let cs := (Bytes.ofArray bytes).toList
      if c = 'l' then cs.count '\n' else if c = 'w' then countWords cs else cs.length
    let names := if o.rest.isEmpty then ["-"] else o.rest
    let mut sized := true
    let mut status := 0
    let mut found : List (String × Option (List Nat)) := []
    let mut size := 0
    for name in names do
      let plain ← if name = "-" then do
          match ← ask (System.lookUp 0) with
          | some id => ask (System.isPlain id)
          | none => pure false
        else pure true
      let opened ← if name = "-" then pure (.ok 0) else open_ .input name
      match opened with
      | .error e => do
        complainOf "wc" (name ++ ": " ++ faultText e)
        status := 1
      | .ok id => do
        if name ≠ "-" then
          ask (System.place 9 id)
          if !(← ask (System.isPlain id)) then sized := false
        let bytes ← readAll (if name = "-" then 0 else 9)
        if name ≠ "-" then ask (System.close 9)
        sized := sized && plain
        size := size + bytes.size
        found := found ++ [(name, some (asked.map (countOf bytes)))]
    let width := if asked.length = 1 && names.length = 1 then 1
      else if sized then (toString size).length else 7
    let line (name : String) (ns : List Nat) : String :=
      String.intercalate " " (ns.map (column width)) ++
        (if name = "-" && o.rest.isEmpty then "" else " " ++ name) ++ "\n"
    for (name, ns?) in found do
      match ns? with
      | some ns => write 1 (line name ns)
      | none => pure ()
    if 1 < names.length then
      let all := found.filterMap (·.2)
      let total := (List.range asked.length).map fun i =>
        (all.map fun ns => ns.getD i 0).foldr (· + ·) 0
      write 1 (line "total" total)
    pure status

/-- The number of a count option: what a dash in front says, and the number. -/
def amount (text : String) : Option (Char × Nat) :=
  match text.toList with
  | '-' :: r => (count? (String.ofList r)).map fun n => ('-', n)
  | '+' :: r => (count? (String.ofList r)).map fun n => ('+', n)
  | _ => (count? text).map fun n => (' ', n)

/-- A dash and digits count lines. -/
def oldStyle (args : List String) : List String :=
  match args with
  | a :: rest =>
    match a.toList with
    | '-' :: c :: r =>
      if c.isDigit && r.all Char.isDigit then "-n" :: String.ofList (c :: r) :: rest else args
    | _ => args
  | [] => []

def wanted (o : Options) : Char × String :=
  match o.values.reverse with
  | (c, value) :: _ => (c, value)
  | [] => ('n', "10")

/-- Lines or bytes up to a number of them; what was read too far is given back. -/
def takeLines : Nat → Nat → Nat → Act Unit
  | 0, _, _ => pure ()
  | fuel + 1, n, descriptor => do
    if n = 0 then pure ()
    else match ← ask (System.readLine descriptor block) with
      | .error _ => pure ()
      | .ok bytes =>
        if bytes.isEmpty then pure ()
        else do
          discard (writeBytes 1 bytes)
          let ended := bytes[bytes.size - 1]?.getD 0 = 10
          takeLines fuel (if ended then n - 1 else n) descriptor

def takeBytes : Nat → Nat → Nat → Act Unit
  | 0, _, _ => pure ()
  | fuel + 1, n, descriptor => do
    if n = 0 then pure ()
    else match ← ask (System.read descriptor (min n block)) with
      | .error _ => pure ()
      | .ok bytes =>
        if bytes.isEmpty then pure ()
        else do
          discard (writeBytes 1 bytes)
          takeBytes fuel (n - bytes.size) descriptor

def heading (several : Bool) (first : Bool) (name : String) : Act Unit :=
  if several then
    write 1 ((if first then "" else "\n") ++ "==> " ++
      (if name = "-" then "standard input" else name) ++ " <==\n")
  else pure ()

/-- A part of each file, by a count of lines or bytes. -/
def portion (tool : String) (part : Char → Char → Nat → Nat → Act Unit) (args : List String) :
    Act Nat :=
  withOptions tool "qv" "nc" (oldStyle args) fun o => do
    let (unit, text) := wanted o
    match amount text with
    | none => do
      complainOf tool ("invalid number of " ++ (if unit = 'c' then "bytes: " else "lines: ") ++
        quote text)
      pure 1
    | some (sign, n) => do
      let several := (1 < o.rest.length && !o.has 'q') || o.has 'v'
      let calls (name : String) : String := "cannot open " ++ quote name ++ " for reading"
      eachFile tool calls o.rest fun name descriptor => do
        heading several (o.rest.head? = some name) name
        part unit sign n descriptor

def head : List String → Act Nat :=
  portion "head" fun unit sign n descriptor => do
    if sign = '-' then do
      let s := Bytes.ofArray (← readAll descriptor)
      if unit = 'c' then write 1 (String.ofList (s.toList.take (s.length - n)))
      else
        let lines := linesWithEnds s
        write 1 (String.join (lines.take (lines.length - n)))
    else if unit = 'c' then takeBytes endless n descriptor
    else takeLines endless n descriptor

def tail : List String → Act Nat :=
  portion "tail" fun unit sign n descriptor => do
    let s := Bytes.ofArray (← readAll descriptor)
    let dropped (total : Nat) : Nat := if sign = '+' then n - 1 else total - n
    if unit = 'c' then write 1 (String.ofList (s.toList.drop (dropped s.length)))
    else
      let lines := linesWithEnds s
      write 1 (String.join (lines.drop (dropped lines.length)))

/-- The characters that a set of `tr` names, with repetitions that are filled up later. -/
def charSet : Nat → List Char → List Char
  | 0, _ => []
  | _, [] => []
  | fuel + 1, '[' :: ':' :: r =>
    let name := String.ofList (r.takeWhile Char.isAlpha)
    match Member.kinds.lookup name, r.drop name.length with
    | some p, ':' :: ']' :: rest =>
      ((List.range 256).map Char.ofNat).filter p ++ charSet fuel rest
    | _, _ => '[' :: charSet fuel (':' :: r)
  | fuel + 1, cs =>
    let (a, rest) := member cs
    match rest with
    | '-' :: c :: r =>
      let (b, rest) := member (c :: r)
      (List.range (b.toNat + 1 - a.toNat)).map (fun i => Char.ofNat (a.toNat + i)) ++
        charSet fuel rest
    | rest => a :: charSet fuel rest
where
  member : List Char → Char × List Char
    | '\\' :: c :: r => if c = 'e' then ('e', r) else
      let (d, rest) := Printf.escape (c :: r)
      if d = '\\' && c ≠ '\\' then (c, r) else (d, rest)
    | c :: r => (c, r)
    | [] => ('\\', [])

def setOf (s : String) : List Char :=
  charSet (s.length + 1) s.toList

def squeeze (set : List Char) : List Char → List Char
  | a :: b :: r =>
    if a = b && set.contains a then squeeze set (b :: r) else a :: squeeze set (b :: r)
  | cs => cs

/-- The character at the same place of the second set; its last character goes on. -/
def exchange (one two : List Char) (c : Char) : Char :=
  match one.reverse.idxOf? c with
  | some i => (two[one.length - 1 - i]?).getD (two.getLast?.getD c)
  | none => c

/-- What `tr` does with a text. -/
def exchanged (o : Options) (sets : List (List Char)) (cs : List Char) : List Char :=
  let all := (List.range 256).map Char.ofNat
  let complement := o.has 'c' || o.has 'C'
  let one := sets.headD []
  let one := if complement then all.filter fun c => !one.contains c else one
  let two := sets[1]?.getD []
  let one := if o.has 't' then one.take two.length else one
  let out :=
    if o.has 'd' then cs.filter fun c => !one.contains c
    else if sets.length < 2 then cs else cs.map (exchange one two)
  if o.has 's' then squeeze (if sets.length < 2 then one else two) out else out

def tr (args : List String) : Act Nat :=
  withOptions "tr" "cCdst" "" args fun o => do
    let needed := if o.has 'd' != o.has 's' then 1 else 2
    match o.rest with
    | [] => misuse "tr" "missing operand" 1
    | [a] =>
      if needed = 2 then do
        complainOf "tr" ("missing operand after " ++ quote a)
        write 2 (if o.has 'd' then
          "Two strings must be given when both deleting and squeezing repeats.\n"
          else "Two strings must be given when translating.\n")
        write 2 "Try 'tr --help' for more information.\n"
        pure 1
      else go o [setOf a]
    | sets => go o (sets.map setOf)
where
  go (o : Options) (sets : List (List Char)) : Act Nat := do
    let cs := (Bytes.ofArray (← readAll 0)).toList
    write 1 (String.ofList (exchanged o sets cs))
    pure 0

def repeatLine : Nat → ByteArray → Act Unit
  | 0, _ => pure ()
  | fuel + 1, bytes => do
    match ← writeBytes 1 bytes with
    | some _ => pure ()
    | none => repeatLine fuel bytes

def yes (args : List String) : Act Nat := do
  let line := (if args.isEmpty then "y" else String.intercalate " " args) ++ "\n"
  let bytes := Bytes.toArray (String.join (List.replicate (4096 / line.length + 1) line))
  repeatLine endless bytes
  pure 1

/-- Seconds with a fraction and a unit, as milliseconds. -/
def duration? (s : String) : Option Nat :=
  let cs := s.toList
  let (number, factor) : List Char × Float := match cs.getLast? with
    | some 's' => (cs.dropLast, 1)
    | some 'm' => (cs.dropLast, 60)
    | some 'h' => (cs.dropLast, 3600)
    | some 'd' => (cs.dropLast, 86400)
    | _ => (cs, 1)
  (Decimal.parse? (String.ofList number)).bind fun x =>
    if x < 0 || x.isNaN then none else some (x * factor * 1000).toUInt64.toNat

def sleep (args : List String) : Act Nat := do
  let times := args.map duration?
  match args with
  | [] => misuse "sleep" "missing operand" 1
  | args => do
    let bad := args.filter fun a => (duration? a).isNone
    if bad.isEmpty then do
      let start ← ask System.now
      ask (System.sleepUntil (start + (times.filterMap id).foldr (· + ·) 0))
      pure 0
    else do
      match bad.find? fun a => a.toList.head? = some '-' with
      | some a => complainOf "sleep" ("invalid option -- " ++ quote (String.ofList
          ((a.toList.drop 1).take 1)))
      | none => bad.forM fun a => complainOf "sleep" ("invalid time interval " ++ quote a)
      write 2 "Try 'sleep --help' for more information.\n"
      pure 1

def countUp (from_ step last : Int) : Nat → List Int
  | 0 => []
  | fuel + 1 =>
    if (0 < step && last < from_) || (step < 0 && from_ < last) then []
    else from_ :: countUp (from_ + step) step last fuel

def seq (args : List String) : Act Nat := do
  let (separator, args) := match args with
    | "-s" :: s :: rest => (s, rest)
    | args => ("\n", args)
  let bad := args.find? fun a => (Arithmetic.ofText? (some 10) a).isNone
  let numbers := args.filterMap (Arithmetic.ofText? (some 10))
  match bad, numbers with
  | some a, _ => do
    complainOf "seq" ("invalid floating point argument: " ++ quote a)
    write 2 "Try 'seq --help' for more information.\n"
    pure 1
  | none, [] => misuse "seq" "missing operand" 1
  | none, numbers => do
    let (first, step, last) := match numbers with
      | [a] => (1, 1, a)
      | [a, b] => (a, 1, b)
      | a :: b :: c :: _ => (a, b, c)
      | [] => (1, 1, 0)
    let count := if step = 0 then 0 else (last - first).natAbs / step.natAbs + 1
    let texts := (countUp first step last count).map toString
    if !texts.isEmpty then write 1 (String.intercalate separator texts ++ "\n")
    pure 0

def tee (args : List String) : Act Nat :=
  withOptions "tee" "ai" "" args fun o => do
    let bytes ← readAll 0
    discard (writeBytes 1 bytes)
    let one (status : Nat) (name : String) : Act Nat := do
      match ← change name fun p t => if o.has 'a' then t.append p bytes else t.write p bytes with
      | .ok () => pure status
      | .error e => do
        complainOf "tee" (name ++ ": " ++ faultText e)
        pure 1
    o.rest.foldlM one 0

/-- The number at the start of a line. -/
def leadingNumber (line : String) : Int :=
  ((Arithmetic.leading? (some 10) line.toList).map (·.1)).getD 0

def sort (args : List String) : Act Nat :=
  withOptions "sort" "rnufbsc" "" args fun o => do
    let mut all := ""
    let mut status := 0
    for name in (if o.rest.isEmpty then ["-"] else o.rest) do
      if name = "-" then all := all ++ Bytes.ofArray (← readAll 0)
      else match ← open_ .input name with
        | .error e => do
          complainOf "sort" ("cannot read: " ++ name ++ ": " ++ faultText e)
          status := 2
        | .ok id => do
          ask (System.place 9 id)
          all := all ++ Bytes.ofArray (← readAll 9)
          ask (System.close 9)
    if status ≠ 0 then pure status
    else
      let fold (s : String) : String := if o.has 'f' then s.map Char.toUpper else s
      let before (a b : String) : Bool :=
        if o.has 'n' && leadingNumber a ≠ leadingNumber b then leadingNumber a < leadingNumber b
        else if fold a ≠ fold b then fold a < fold b else a ≤ b
      let lines := ((linesWithEnds all).map withoutEnd).mergeSort before
      let lines := if o.has 'r' then lines.reverse else lines
      let same (a b : String) : Bool :=
        if o.has 'n' then leadingNumber a = leadingNumber b else fold a = fold b
      let lines := if o.has 'u' then distinct same lines else lines
      write 1 (String.join (lines.map (· ++ "\n")))
      pure 0
where
  distinct (same : String → String → Bool) : List String → List String
    | a :: b :: r => if same a b then distinct same (a :: r) else a :: distinct same (b :: r)
    | lines => lines
  termination_by lines => lines.length

/-- A word of which letters `echo` options it holds. -/
def echoOptions? (a : String) : Option (List Char) :=
  match a.toList with
  | '-' :: c :: r => if (c :: r).all "neE".toList.contains then some (c :: r) else none
  | _ => none

/-- As a program of its own does it: with escapes only where they are asked for. -/
def echo (args : List String) : Act Nat := do
  let flags := args.takeWhile fun a => (echoOptions? a).isSome
  let letters := (flags.filterMap echoOptions?).flatten
  let text := String.intercalate " " (args.drop flags.length)
  let escapes := (letters.filter (· ≠ 'n')).getLast? = some 'e'
  let (cs, stop) := if escapes then Printf.unescapeText text else (text.toList, false)
  write 1 (String.ofList cs ++ if letters.contains 'n' || stop then "" else "\n")
  pure 0

def printf (args : List String) : Act Nat := do
  match args with
  | [] => misuse "printf" "missing operand" 1
  | format :: rest => do
    let p := Printf.format format.toList rest
    write 1 p.output
    p.complaints.forM fun c => complainOf "printf" (wording c)
    match p.failure? with
    | some why => do
      complainOf "printf" (why.replace "invalid directive" "invalid conversion specification")
      pure 1
    | none => pure (if p.complaints.isEmpty then 0 else 1)
where
  wording : Printf.Complaint → String
    | .noNumber arg => quote arg ++ ": expected a numeric value"
    | .moreThanNumber arg => quote arg ++ ": value not completely converted"
    | .outOfRange arg => quote arg ++ ": Numerical result out of range"

end Culprit.Shell.Tools
