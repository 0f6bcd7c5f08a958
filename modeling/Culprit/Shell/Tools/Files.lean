import Culprit.Shell.Tools.Basic

/-!
Tools that make, change and remove files and directories, and tools for their names.
-/

namespace Culprit.Shell.Tools

open Act

def isOctalText (s : String) : Bool :=
  !s.isEmpty && s.toList.all fun c => '0' ≤ c && c ≤ '7'

/-- Whether a mode makes a file executable; nothing when it leaves that open. -/
def executableMode (mode : String) : Option Bool :=
  if isOctalText mode then
    some ((mode.toList.reverse.take 3).any fun c => c.toNat % 2 = 1)
  else
    let clauses := Culprit.Text.splitAtChar ',' mode.toList
    let effect (clause : List Char) : Option Bool :=
      let sign := (clause.find? fun c => c = '+' || c = '-' || c = '=').getD '+'
      let letters := (clause.dropWhile (· ≠ sign)).drop 1
      let who := clause.takeWhile (· ≠ sign)
      if letters.contains 'x' then
        if sign = '-' then (if who.isEmpty || who.contains 'a' then some false else none)
        else some true
      else if sign = '=' && (who.isEmpty || who.contains 'a') then some false else none
    (clauses.filterMap effect).getLast?

def isMode (mode : String) : Bool :=
  isOctalText mode || (!mode.isEmpty && (mode.toList.any fun c => c = '+' || c = '-' || c = '=') &&
    mode.toList.all fun c => "ugoarwxXst+-=,".toList.contains c)

def chmod (args : List String) : Act Nat :=
  let args := args.filter fun a => a ≠ "-R" && a ≠ "-f" && a ≠ "-v"
  match args with
  | [] => misuse "chmod" "missing operand" 1
  | [mode] => misuse "chmod" ("missing operand after " ++ quote mode) 1
  | mode :: names =>
    if !isMode mode then misuse "chmod" ("invalid mode: " ++ quote mode) 1
    else eachPath "chmod" "cannot access " names fun p t =>
      match executableMode mode with
      | some x => t.setExecutable p x
      | none => (t.find p).map fun _ => t

def mkdir (args : List String) : Act Nat :=
  withOptions "mkdir" "pv" "m" args fun o =>
    if o.rest.isEmpty then misuse "mkdir" "missing operand" 1
    else eachPath "mkdir" "cannot create directory " o.rest fun p t =>
      let p := if FileTree.endsInSlash p && p ≠ "/" then
        String.ofList (p.toList.reverse.dropWhile (· = '/')).reverse else p
      if (Surroundings.node? p).isSome && !t.isThere p then
        if o.has 'p' then .ok t else .error .exists
      else if o.has 'p' then
        match t.createDirectories p with
        | (.ok (), made) => .ok made
        | (.error e, _) => .error e
      else t.createDirectory p

def remove (o : Options) (p : String) (t : FileTree) : Except SystemFault FileTree :=
  match t.find p with
  | .error .missing => if o.has 'f' then .ok t else .error .missing
  | .error .notDirectory => if o.has 'f' then .ok t else .error .notDirectory
  | .error e => .error e
  | .ok (r, .directory) =>
    if o.has 'r' || o.has 'R' then t.removeDirectory p
    else if o.has 'd' then
      if (t.below r).isEmpty then t.removeDirectory p else .error .notEmpty
    else .error .isDirectory
  | .ok _ => t.removeFile p

def rm (args : List String) : Act Nat :=
  withOptions "rm" "rRfdvi" "" args fun o =>
    if o.rest.isEmpty then (if o.has 'f' then pure 0 else misuse "rm" "missing operand" 1)
    else eachPath "rm" "cannot remove " o.rest (remove o)

def rmdir (args : List String) : Act Nat :=
  withOptions "rmdir" "pv" "" args fun o =>
    if o.rest.isEmpty then misuse "rmdir" "missing operand" 1
    else eachPath "rmdir" "failed to remove " o.rest fun p t =>
      match t.list p with
      | .error e => .error e
      | .ok [] => t.removeDirectory p
      | .ok _ => .error .notEmpty

def touch (args : List String) : Act Nat :=
  withOptions "touch" "acm" "dtr" args fun o =>
    if o.rest.isEmpty then misuse "touch" "missing file operand" 1
    else eachPath "touch" "cannot touch " o.rest fun p t =>
      if t.isDirectory p || (o.has 'c' && !t.isThere p) then .ok t else t.append p .empty

/-- Where a copy of a file goes: into a directory it keeps its name. -/
def placeOf (t : FileTree) (source target : String) : String :=
  if t.isDirectory target then Path.join target ((Path.fileName? source).getD "") else target

def copyFile (source target : String) (t : FileTree) : Except SystemFault FileTree := do
  match ← t.find source with
  | (_, .directory) => .error .isDirectory
  | (_, .file bytes executable) => do
    let t ← t.write target bytes
    if executable then t.setExecutable target true else pure t

/-- A directory with everything below it, under another route. -/
def copyBelow (source target : String) (t : FileTree) : Except SystemFault FileTree := do
  let (r, _) ← t.find source
  let inner := t.below r
  let t ← if t.isDirectory target then pure t else t.createDirectory target
  let (s, _) ← t.find target
  pure (inner.foldl (fun t p => t.put (s ++ p.1) p.2) t)

def copyOrMove (move : Bool) (o : Options) (source target : String) (t : FileTree) :
    Except SystemFault FileTree := do
  let place := placeOf t source target
  if t.isDirectory source then
    let t ← copyBelow source place t
    if move then t.removeDirectory source else pure t
  else
    let t ← copyFile source place t
    if move then
      (if (t.canonical source).toOption = (t.canonical place).toOption then pure t
        else t.removeFile source)
    else if o.has 'p' then pure t else pure t

def cpOrMv (tool : String) (move : Bool) (args : List String) : Act Nat :=
  withOptions tool "rRapfinvuT" "t" args fun o => do
    match o.rest with
    | [] => misuse tool "missing file operand" 1
    | [a] => misuse tool ("missing destination file operand after " ++ quote a) 1
    | names => do
      let last := names.getLast?.getD ""
      let target ← path last
      let t ← files
      if 2 < names.length && !t.isDirectory target then do
        complainOf tool ("target " ++ quote last ++ ": " ++
          (if t.isThere target then "Not a directory" else "No such file or directory"))
        pure 1
      else
        let one (status : Nat) (name : String) : Act Nat := do
          let source ← path name
          let t ← files
          match t.find source with
          | .error e => do
            complainOf tool ("cannot stat " ++ quote name ++ ": " ++ faultText e)
            pure 1
          | .ok (r, n) =>
            if n.isDirectory && !move && !(o.has 'r' || o.has 'R' || o.has 'a') then do
              complainOf tool ("-r not specified; omitting directory " ++ quote name)
              pure 1
            else if (t.find (placeOf t source target)).toOption.map (·.1) = some r then do
              let shown := if t.isDirectory target then Path.join last name else last
              complainOf tool (quote name ++ " and " ++ quote shown ++ " are the same file")
              pure 1
            else match ← change name fun p t => copyOrMove move o p target t with
              | .ok () => pure status
              | .error e => do
                complainOf tool ((if move then "cannot move " ++ quote name ++ " to " ++ quote last
                  else "cannot create regular file " ++ quote last) ++ ": " ++ faultText e)
                pure 1
        names.dropLast.foldlM one 0

def isHidden (name : String) : Bool :=
  name.toList.head? = some '.'

def namesOf (o : Options) (t : FileTree) (p : String) : List String :=
  let names := (((t.list p).toOption.getD []).map (·.1)).filter fun n =>
    o.has 'a' || o.has 'A' || !isHidden n
  let names := ((if o.has 'a' then [".", ".."] else []) ++ names).map Bytes.spread
  let names := names.mergeSort (· ≤ ·)
  if o.has 'r' then names.reverse else names

/-- Files come before what is in directories. -/
def ls (args : List String) : Act Nat :=
  withOptions "ls" "1aAdrRtC" "" args fun o => do
    let t ← files
    let names := if o.rest.isEmpty then ["."] else o.rest.mergeSort (· ≤ ·)
    let mut status := 0
    let mut plain : List String := []
    let mut dirs : List (String × String) := []
    for name in names do
      let p ← path name
      match Surroundings.find t p with
      | .error e => do
        complainOf "ls" ("cannot access " ++ quote name ++ ": " ++ faultText e)
        status := 2
      | .ok n =>
        if n.isDirectory && !o.has 'd' then dirs := dirs ++ [(name, p)]
        else plain := plain ++ [name]
    write 1 (String.join (plain.map (· ++ "\n")))
    let mut first := plain.isEmpty
    for (name, p) in dirs do
      if 1 < names.length then
        write 1 ((if first then "" else "\n") ++ name ++ ":\n")
      first := false
      write 1 (String.join ((namesOf o t p).map (· ++ "\n")))
    pure status

def withoutSlashes (name : String) : String :=
  let cs := name.toList.reverse.dropWhile (· = '/')
  if cs.isEmpty && !name.isEmpty then "/" else String.ofList cs.reverse

def afterSlash (name : String) : String :=
  String.ofList (name.toList.reverse.takeWhile (· ≠ '/')).reverse

def basename (args : List String) : Act Nat := do
  match args with
  | [] => misuse "basename" "missing operand" 1
  | [name] => write 1 (last name ++ "\n") *> pure 0
  | [name, ending] => do
    let own := last name
    let cut := ending.toList.isSuffixOf own.toList && ending.length < own.length
    write 1 ((if cut then String.ofList (own.toList.take (own.length - ending.length)) else own) ++
      "\n")
    pure 0
  | _ :: _ :: extra :: _ => misuse "basename" ("extra operand " ++ quote extra) 1
where
  last (name : String) : String :=
    let name := withoutSlashes name
    if name = "/" then name else afterSlash name

def dirname (args : List String) : Act Nat := do
  match args with
  | [] => misuse "dirname" "missing operand" 1
  | names => do
    names.forM fun name => do
      let name := withoutSlashes name
      let dir := String.ofList (name.toList.reverse.dropWhile (· ≠ '/')).reverse
      let shown := if name = "/" then "/" else if dir.isEmpty then "." else withoutSlashes dir
      write 1 (shown ++ "\n")
    pure 0

end Culprit.Shell.Tools
