import CanvasScript.Shell.Arithmetic
import CanvasScript.Shell.Pattern
import CanvasScript.Shell.Programs.Showing

namespace CanvasScript.Shell

open Text (Octets)

structure Expression where
  fromStart : Bool
  items : List (PatternItem × Bool)
  toEnd : Bool

namespace Expression

def readItems : Nat → List Char → List (PatternItem × Bool)
  | n + 1, c :: rest =>
    let (item, rest) : PatternItem × List Char := match c, rest with
      | '.', rest => (.any, rest)
      | '\\', d :: rest => (.char d, rest)
      | '[', rest =>
        let negated := rest.head? = some '^'
        match setRanges [] ((if negated then rest.drop 1 else rest).map fun d => (d, false)) with
        | some (ranges, after) => (.set negated ranges, after.map Prod.fst)
        | none => (.char '[', rest)
      | c, rest => (.char c, rest)
    match rest with
    | '*' :: rest => (item, true) :: readItems n rest
    | rest => (item, false) :: readItems n rest
  | _, _ => []

def read (s : Octets) : Expression :=
  let cs := s.toList
  let fromStart := cs.head? = some '^'
  let cs := if fromStart then cs.drop 1 else cs
  let toEnd := cs.getLast? = some '$'
  let cs := if toEnd then cs.dropLast else cs
  ⟨fromStart, readItems cs.length cs, toEnd⟩

def describes (toEnd : Bool) : List (PatternItem × Bool) → List Char → Bool
  | [], cs => !toEnd || cs.isEmpty
  | (_, true) :: rest, [] => describes toEnd rest []
  | (item, true) :: rest, c :: cs =>
    describes toEnd rest (c :: cs) || item.holds c && describes toEnd ((item, true) :: rest) cs
  | (_, false) :: _, [] => false
  | (item, false) :: rest, c :: cs => item.holds c && describes toEnd rest cs
termination_by items cs => items.length + cs.length

def occursFrom (e : Expression) : List Char → Bool
  | [] => describes e.toEnd e.items []
  | c :: cs => describes e.toEnd e.items (c :: cs) || !e.fromStart && occursFrom e cs

def occursIn (e : Expression) (line : Octets) : Bool := e.occursFrom line.toList

end Expression

namespace Program

def grep : Program :=
  withOptions "cinqv" "e" 2 fun program p => do
    let (pattern, files) : Octets × List Octets := match p.value? 'e', p.operands with
      | some e, files => (e, files)
      | none, operands => (operands.headD "", operands.drop 1)
    if p.operands.isEmpty && !p.has 'e' then
      Task.printError "Usage: grep [OPTION]... PATTERNS [FILE]...\n"
      Task.printError "Try 'grep --help' for more information.\n"
      return 2
    let folded (s : Octets) : Octets := if p.has 'i' then s.toLower else s
    let e := Expression.read (folded pattern)
    let sources := if files.isEmpty then ["-"] else files
    let (found, failed) ← sources.foldlM (fun (found, failed) o => do
      let name := if files.length > 1 then o ++ ":" else ""
      match ← readOperand o with
      | .error reason =>
        complain program (o ++ ": " ++ reason.brief)
        return (found, true)
      | .ok text =>
        let lines := (bareLinesOf text).zipIdx 1
        let chosen := lines.filter fun l => e.occursIn (folded l.1) != p.has 'v'
        let number (n : Nat) : Octets := if p.has 'n' then toString n ++ ":" else ""
        if p.has 'c' then Task.print (name ++ toString chosen.length ++ "\n")
        else if !p.has 'q' then
          Task.print (String.join (chosen.map fun l => name ++ number l.2 ++ l.1 ++ "\n"))
        return (found || !chosen.isEmpty, failed)) (false, false)
    return if failed then 2 else if found then 0 else 1

def characters : List Char → List Char
  | '[' :: ':' :: 'u' :: 'p' :: 'p' :: 'e' :: 'r' :: ':' :: ']' :: rest =>
    span 'A' 'Z' ++ characters rest
  | '[' :: ':' :: 'l' :: 'o' :: 'w' :: 'e' :: 'r' :: ':' :: ']' :: rest =>
    span 'a' 'z' ++ characters rest
  | '\\' :: 'n' :: rest => '\n' :: characters rest
  | '\\' :: 't' :: rest => '\t' :: characters rest
  | '\\' :: c :: rest => c :: characters rest
  | a :: '-' :: b :: rest => span a b ++ characters rest
  | c :: rest => c :: characters rest
  | [] => []
where
  span (a b : Char) : List Char :=
    (List.range (b.toNat + 1 - a.toNat)).map fun n => Char.ofNat (a.toNat + n)

def translated (before after : List Char) (c : Char) : Char :=
  match before.idxOf? c with
  | some i => (after[i]?).getD (after.getLastD c)
  | none => c

def squeezed (set : List Char) (cs : List Char) : List Char :=
  (cs.splitBy fun a b => a = b && set.contains a).flatMap fun run =>
    if run.length > 1 then run.take 1 else run

def tr : Program :=
  withOptions "ds" "" 1 fun program p => do
    let sets := p.operands.map fun s => characters s.toList
    let apply (f : List Char → List Char) : Task Nat := do
      match ← readOperand "-" with
      | .ok text =>
        Task.print (String.ofList (f text.toList))
        return 0
      | .error e => cannot program "read error" e
    match sets with
    | [] => refuse 1 program "missing operand"
    | [set] =>
      if p.has 'd' then apply fun cs => cs.filter (!set.contains ·)
      else if p.has 's' then apply (squeezed set)
      else
        complain program ("missing operand after " ++ quotedName (p.operands.headD ""))
        Task.printError "Two strings must be given when translating.\n"
        Task.printError ("Try '" ++ program ++ " --help' for more information.\n")
        return 1
    | before :: after :: _ =>
      apply fun cs =>
        let mapped := cs.map (translated before after)
        if p.has 's' then squeezed after mapped else mapped

def counted (step last : Int) : Nat → Int → List Int
  | n + 1, k =>
    let ended : Bool := if 0 < step then last < k else k < last
    if ended then [] else k :: counted step last n (k + step)
  | 0, _ => []

def seq : Program := fun program args => do
  let run (first step last : Int) : Task Nat := do
    if step = 0 then fail program "invalid Zero increment value: '0'"
    else
      let numbers := counted step last ((last - first).natAbs + 1) first
      Task.print (unlines (numbers.map toString))
      return 0
  match args.find? fun a => (integerBy? (readDigits 10) a).isNone with
  | some a => refuse 1 program ("invalid floating point argument: " ++ quotedName a)
  | none =>
    match args.filterMap (integerBy? (readDigits 10)) with
    | [last] => run 1 1 last
    | [first, last] => run first 1 last
    | [first, step, last] => run first step last
    | [] => refuse 1 program "missing operand"
    | _ => refuse 1 program ("extra operand " ++ quotedName ((args.drop 3).headD ""))

/-- A pause takes no time. -/
def sleep : Program := fun program args => do
  if args.isEmpty then refuse 1 program "missing operand"
  else
    match args.find? fun a => !(a.all fun c => c.isDigit || c = '.') with
    | some a => refuse 1 program ("invalid time interval " ++ quotedName a)
    | none => return 0

end Program

end CanvasScript.Shell
