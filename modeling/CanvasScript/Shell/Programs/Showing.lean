import CanvasScript.Shell.Programs.Manner

namespace CanvasScript.Shell

open Text (Octets)

def linesOf (text : Octets) : List Octets :=
  let parts := text.splitOn "\n"
  let last := parts.getLastD ""
  parts.dropLast.map (· ++ "\n") ++ if last.isEmpty then [] else [last]

def bareLinesOf (text : Octets) : List Octets :=
  let parts := text.splitOn "\n"
  if parts.getLast? = some "" then parts.dropLast else parts

def alignRight (width : Nat) (s : Octets) : Octets :=
  String.ofList (List.replicate (width - s.length) ' ') ++ s

def count? (text : Octets) : Option Nat :=
  if !text.isEmpty && text.all Char.isDigit then text.toNat? else none

namespace Program

def numbered (first : Nat) (lines : List Octets) : List Octets :=
  lines.mapIdx fun i l => alignRight 6 (toString (first + i)) ++ "\t" ++ l

def cat : Program :=
  withOptions "nu" "" 1 fun program p => do
    let (code, _) ← p.files.foldlM (fun (code, first) o => do
      match ← readOperand o with
      | .ok text =>
        let lines := linesOf text
        Task.print (if p.has 'n' then String.join (numbered first lines) else text)
        return (code, first + lines.length)
      | .error e => return (← cannot program (shownName o) e, first)) (0, 1)
    return code

/-- So many lines or octets at one end of a text; with a sign they count from the other end. -/
structure Portion where
  octets : Bool
  signed : Bool
  number : Nat

namespace Portion

def head (q : Portion) (text : Octets) : Octets :=
  let lines := if q.octets then text.toList.map Char.toString else linesOf text
  String.join (lines.take (if q.signed then lines.length - q.number else q.number))

def tail (q : Portion) (text : Octets) : Octets :=
  let lines := if q.octets then text.toList.map Char.toString else linesOf text
  String.join (lines.drop (if q.signed then q.number - 1 else lines.length - q.number))

def read? (sign : Char) (octets : Bool) (text : Octets) : Option Portion :=
  match text.toList with
  | c :: cs =>
    if c = sign then (count? (String.ofList cs)).map (⟨octets, true, ·⟩)
    else (count? (if c = '-' || c = '+' then String.ofList cs else text)).map (⟨octets, false, ·⟩)
  | [] => none

end Portion

def withCount : List Octets → List Octets
  | first :: rest =>
    if first.startsWith "-" && (count? (first.drop 1).toString).isSome then
      "-n" :: (first.drop 1).toString :: rest
    else first :: rest
  | [] => []

def showParts (part : Octets → Octets) (program : Octets) (p : Parsed) : Task Nat := do
  let (code, _) ← p.files.foldlM (fun (code, gap) o => do
    let name := if o = "-" then "standard input" else o
    let title := gap ++ "==> " ++ name ++ " <==\n"
    let titled := !p.has 'q' && (p.has 'v' || p.operands.length > 1)
    match ← readOperand o with
    | .ok text =>
      Task.print ((if titled then title else "") ++ part text)
      return (code, "\n")
    | .error .isADirectory =>
      if titled then Task.print title
      return (← cannot program ("error reading " ++ quotedName name) .isADirectory, "\n")
    | .error e =>
      return (← cannot program ("cannot open " ++ quotedName o ++ " for reading") e, gap)) (0, "")
  return code

def showPortion (sign : Char) (part : Portion → Octets → Octets) : Program := fun program args =>
  withOptions "qv" "cn" 1 (fun program p => do
    let octets := (p.options.reverse.find? fun o => o.1 = 'c' || o.1 = 'n').map (·.1) = some 'c'
    let text := (p.value? (if octets then 'c' else 'n')).getD "10"
    match Portion.read? sign octets text with
    | some q => showParts (part q) program p
    | none =>
      let what := if octets then "bytes" else "lines"
      fail program ("invalid number of " ++ what ++ ": " ++ quotedName text))
    program (withCount args)

def head : Program := showPortion '-' Portion.head

def tail : Program := showPortion '+' Portion.tail

def wordCount (text : Octets) : Nat :=
  let words := text.toList.splitOnP fun c => c = ' ' || ('\t' ≤ c && c ≤ '\r')
  (words.filter (·.any shows)).length

def size? (m : Machine) (operand : Octets) : Option Nat :=
  let sizeOf (found : Except FileError FileTree) : Option Nat :=
    match found with
    | .ok (.file contents) => some contents.length
    | .ok _ => none
    | .error _ => some 0
  if operand ≠ "-" then sizeOf (m.disk.lookup operand)
  else
    match m.channel? 0 with
    | some (_, .file names _ _) => (m.disk.root.at? names).bind fun t => sizeOf (.ok t)
    | _ => none

/-- How wide counts are shown: as the sizes of all files together, and wider if one is not known. -/
def countWidth (m : Machine) (columns : Nat) (operands : List Octets) : Nat :=
  if operands.length = 1 && columns = 1 then 1
  else
    let sizes := operands.map (size? m)
    let total := sizes.foldl (fun n size => n + size.getD 0) 0
    max (if sizes.any Option.isNone then 7 else 1) (toString total).length

def wc : Program :=
  withOptions "clmw" "" 1 fun program p => do
    let all := p.options.isEmpty
    let counts (text : Octets) : List Nat :=
      (if all || p.has 'l' then [(text.toList.filter (· = '\n')).length] else []) ++
        (if all || p.has 'w' then [wordCount text] else []) ++
        (if p.has 'm' then [text.length] else []) ++
        (if all || p.has 'c' then [text.length] else [])
    let width := countWidth (← get) (counts "").length p.files
    let show_ (counts : List Nat) (name : Octets) : Task Unit :=
      let columns := counts.map fun n => alignRight width (toString n)
      Task.print (" ".intercalate columns ++ name ++ "\n")
    let (code, total) ← p.files.foldlM (fun (code, total) o => do
      match ← readOperand o with
      | .ok text =>
        show_ (counts text) (if p.operands.isEmpty then "" else " " ++ o)
        return (code, List.zipWith (· + ·) total (counts text))
      | .error e =>
        discard (cannot program (shownName o) e)
        if e = .isADirectory then show_ (counts "") (" " ++ o)
        return (1, total)) (0, counts "")
    if p.operands.length > 1 then show_ total " total"
    return code

def lineNumber (line : Octets) : Int :=
  let cs := line.toList.dropWhile fun c => c = ' ' || c = '\t'
  match cs with
  | '-' :: cs => -(((String.ofList (cs.takeWhile Char.isDigit)).toNat?.getD 0 : Nat) : Int)
  | cs => ((String.ofList (cs.takeWhile Char.isDigit)).toNat?.getD 0 : Nat)

def allLines (program : Octets) (operands : List Octets) : Task (Option (List Octets)) := do
  let lines ← operands.mapM fun o => do
    match ← readOperand o with
    | .ok text => return some (bareLinesOf text)
    | .error .isADirectory =>
      discard (cannot program ("read failed: " ++ shownName o) .isADirectory)
      return none
    | .error e =>
      discard (cannot program ("cannot read: " ++ shownName o) e)
      return none
  return if lines.any Option.isNone then none else some (lines.filterMap id).flatten

def unlines (lines : List Octets) : Octets := String.join (lines.map (· ++ "\n"))

def sort : Program :=
  withOptions "nru" "" 2 fun program p => do
    match ← allLines program p.files with
    | none => return 2
    | some lines =>
      let key (a b : Octets) : Ordering :=
        let order := if p.has 'n' then compare (lineNumber a) (lineNumber b) else compare a b
        if p.has 'r' then order.swap else order
      let whole (a b : Octets) : Ordering :=
        (key a b).then (if p.has 'u' then .eq else if p.has 'r' then compare b a else compare a b)
      let sorted := lines.mergeSort fun a b => whole a b != .gt
      let groups := sorted.splitBy fun a b => key a b = .eq
      Task.print (unlines (if p.has 'u' then groups.filterMap List.head? else sorted))
      return 0

def uniq : Program :=
  withOptions "cdu" "" 1 fun program p => do
    match p.files with
    | file :: _ =>
      match ← readOperand file with
      | .error e => cannot program (shownName file) e
      | .ok text =>
        let groups := (bareLinesOf text).splitBy (· = ·)
        let chosen := groups.filter fun g =>
          (!p.has 'd' || g.length > 1) && (!p.has 'u' || g.length = 1)
        Task.print (unlines (chosen.map fun g =>
          (if p.has 'c' then alignRight 7 (toString g.length) ++ " " else "") ++ g.headD ""))
        return 0
    | [] => return 0

end Program

end CanvasScript.Shell
