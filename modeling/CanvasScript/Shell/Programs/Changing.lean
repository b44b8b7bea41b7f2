import CanvasScript.Shell.Programs.Showing

namespace CanvasScript.Shell

open Text (Octets)

namespace Program

def below (directory name : Octets) : Octets :=
  if directory.endsWith "/" then directory ++ name else directory ++ "/" ++ name

def visible (p : Parsed) (t : FileTree) : List Octets :=
  let names := t.entries.map (·.1)
  if p.has 'a' then "." :: ".." :: names
  else if p.has 'A' then names
  else names.filter fun n => !n.startsWith "."

def ls : Program :=
  withOptions "1aACdr" "" 2 fun program p => do
    let d := (← get).disk
    let operands := if p.operands.isEmpty then ["."] else p.operands
    let code ← forEach operands fun o => do
      match d.lookup o with
      | .ok _ => return 0
      | .error e =>
        discard (cannot program ("cannot access " ++ quotedName o) e)
        return 2
    let inOrder (names : List Octets) : List Octets := if p.has 'r' then names.reverse else names
    let found := inOrder ((operands.filter d.has).mergeSort fun a b => a ≤ b)
    let (directories, files) := found.partition fun o => !p.has 'd' && d.hasDirectory o
    let listing (o : Octets) : Octets :=
      let title := if operands.length > 1 then o ++ ":\n" else ""
      let t := (d.lookup o).toOption.getD .empty
      title ++ unlines (inOrder (visible p t))
    let blocks := (if files.isEmpty then [] else [unlines files]) ++ directories.map listing
    Task.print ("\n".intercalate blocks)
    return code

def baseName (path : Octets) : Octets := ((path.splitOn "/").filter (· ≠ "")).getLastD "/"

def targets (program : Octets) (d : Disk) (operands : List Octets) :
    Task (Except Nat (List (Octets × Octets))) := do
  let target := operands.getLastD ""
  match operands.dropLast with
  | [] =>
    if operands.isEmpty then return .error (← refuse 1 program "missing file operand")
    else
      let text := "missing destination file operand after " ++ quotedName target
      return .error (← refuse 1 program text)
  | sources =>
    if d.hasDirectory target then
      return .ok (sources.map fun s => (s, below target (baseName s)))
    else
      match sources with
      | [s] => return .ok [(s, target)]
      | _ =>
        let reason := if d.has target then FileError.notADirectory else .notFound
        return .error (← cannot program ("target " ++ quotedName target) reason)

def sameFile (d : Disk) (a b : Octets) : Bool :=
  match d.find a, d.find b with
  | .ok (x, _), .ok (y, _) => x = y
  | _, _ => false

def overlay (d : Disk) (place : List Octets) : FileTree → Disk
  | .directory entries =>
    if ((d.root.at? place).map FileTree.isDirectory).getD false then
      entries.foldl (fun d e => d.put (place ++ [e.1]) e.2) d
    else d.put place (.directory entries)
  | t => d.put place t

def copyDirectory (program source target : Octets) (names : List Octets) (t : FileTree) :
    Task Nat := do
  let d := (← get).disk
  match d.resolve (Disk.withoutSlashes target) with
  | .error e => cannot program ("cannot create directory " ++ quotedName target) e
  | .ok place =>
    if names.isPrefixOf place then
      fail program ("cannot copy a directory, " ++ quotedName source ++ ", into itself, " ++
        quotedName target)
    else if d.has target && !d.hasDirectory target then
      fail program ("cannot overwrite non-directory " ++ quotedName target ++ " with directory " ++
        quotedName source)
    else
      discard (change fun d => .ok (overlay d place t))
      return 0

def copyOne (program : Octets) (deep : Bool) (source target : Octets) : Task Nat := do
  let d := (← get).disk
  match d.find source with
  | .error e => cannot program ("cannot stat " ++ quotedName source) e
  | .ok (names, t) =>
    if t.isDirectory && !deep then
      fail program ("-r not specified; omitting directory " ++ quotedName source)
    else if sameFile d source target then
      fail program (quotedName source ++ " and " ++ quotedName target ++ " are the same file")
    else if t.isDirectory then copyDirectory program source target names t
    else
      let failed := "cannot create regular file " ++ quotedName target
      if !d.has target && Disk.endsInSlash target then cannot program failed .notADirectory
      else
        match ← change fun d => do d.write target (← Disk.contentsOf t) with
        | none => return 0
        | some e => cannot program failed e

def cp : Program :=
  withOptions "afprR" "" 1 fun program p => do
    match ← targets program (← get).disk p.operands with
    | .error code => return code
    | .ok pairs =>
      let deep := p.has 'r' || p.has 'R' || p.has 'a'
      pairs.foldlM (fun code s => return max code (← copyOne program deep s.1 s.2)) 0

def moveOne (program source target : Octets) : Task Nat := do
  let d := (← get).disk
  let whole := quotedName source ++ " to " ++ quotedName target
  match d.lookup source with
  | .error e => cannot program ("cannot stat " ++ quotedName source) e
  | .ok t =>
    let overDirectory := d.hasDirectory target
    if sameFile d source target then
      fail program (quotedName source ++ " and " ++ quotedName target ++ " are the same file")
    else if t.isDirectory && d.has target && !overDirectory then
      fail program ("cannot overwrite non-directory " ++ quotedName target ++ " with directory " ++
        quotedName source)
    else if !t.isDirectory && overDirectory then
      fail program ("cannot overwrite directory " ++ quotedName target ++ " with non-directory " ++
        quotedName source)
    else
      match ← change fun d => d.rename source target with
      | none => return 0
      | some .invalidArgument =>
        fail program ("cannot move " ++ quotedName source ++ " to a subdirectory of itself, " ++
          quotedName target)
      | some e => cannot program ("cannot move " ++ whole) e

def mv : Program :=
  withOptions "f" "" 1 fun program p => do
    match ← targets program (← get).disk p.operands with
    | .error code => return code
    | .ok pairs => pairs.foldlM (fun code s => return max code (← moveOne program s.1 s.2)) 0

def removeOne (program : Octets) (p : Parsed) (path : Octets) : Task Nat := do
  let last := (FileTree.steps (Disk.withoutSlashes path)).getLast?
  match (← get).disk.find path with
  | .error e =>
    if p.has 'f' && (e = .notFound || e = .notADirectory) then return 0
    else cannot program ("cannot remove " ++ quotedName path) e
  | .ok (names, t) =>
    if t.isDirectory && !p.has 'r' && !p.has 'R' then
      cannot program ("cannot remove " ++ quotedName path) .isADirectory
    else if last = some "." || last = some ".." then
      fail program ("refusing to remove '.' or '..' directory: skipping " ++ quotedName path)
    else if names.isEmpty then
      complain program "it is dangerous to operate recursively on '/'"
      fail program "use --no-preserve-root to override this failsafe"
    else
      discard (change fun d => .ok (d.removeAt names))
      return 0

def rm : Program :=
  withOptions "frR" "" 1 fun program p => do
    if p.operands.isEmpty && !p.has 'f' then refuse 1 program "missing operand"
    else forEach p.operands (removeOne program p)

def changing (missing deed : String) (f : Octets → Disk → Except FileError Disk) : Program :=
  withOptions "" "" 1 fun program p => do
    if p.operands.isEmpty then refuse 1 program missing
    else
      forEach p.operands fun o => do
        match ← change (f o) with
        | none => return 0
        | some e => cannot program (deed ++ quotedName o) e

def rmdir : Program :=
  changing "missing operand" "failed to remove " fun path d => d.removeDirectory path

def touch : Program :=
  changing "missing file operand" "cannot touch " fun path d => do
    if d.has path then return d else return (← d.openToWrite path).2

def makeParents (program before : Octets) : List Octets → Task Nat
  | [] => return 0
  | step :: rest => do
    let here := if before.isEmpty then step else below before step
    let d := (← get).disk
    if d.hasDirectory here then makeParents program here rest
    else
      let refused (e : FileError) : FileError :=
        if e = .alreadyThere && !rest.isEmpty then .notADirectory else e
      match ← change fun d => d.makeDirectory here with
      | none => makeParents program here rest
      | some e => cannot program ("cannot create directory " ++ quotedName here) (refused e)

def mkdir : Program :=
  withOptions "p" "" 1 fun program p => do
    if p.operands.isEmpty then refuse 1 program "missing operand"
    else
      forEach p.operands fun path => do
        if p.has 'p' then
          let names := (path.splitOn "/").filter (· ≠ "")
          makeParents program (if path.startsWith "/" then "/" else "") names
        else
          match ← change fun d => d.makeDirectory path with
          | none => return 0
          | some e => cannot program ("cannot create directory " ++ quotedName path) e

end Program

end CanvasScript.Shell
