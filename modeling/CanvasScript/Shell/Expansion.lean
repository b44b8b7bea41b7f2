import CanvasScript.Shell.Arithmetic
import CanvasScript.Shell.Machine
import CanvasScript.Shell.Pattern

namespace CanvasScript.Shell

open Text (Octets)

/-- A piece of an expanded word: a character, or quotes that hold nothing. -/
inductive Piece where
  | char (c : Char) (quoted splits : Bool)
  | empty

structure Runner where
  run : Command → Task Unit
  expand : Word → Task (List Piece)

namespace Piece

def ofText (text : Octets) (quoted : Bool) : List Piece :=
  text.toList.map fun c => .char c quoted (!quoted)

def text (pieces : List Piece) : List Char :=
  pieces.filterMap fun
    | .char c _ _ => some c
    | .empty => none

def separates : Piece → Bool
  | .char c _ splits => splits && (c = ' ' || c = '\t' || c = '\n')
  | .empty => false

def marked (pieces : List Piece) : Field :=
  pieces.filterMap fun
    | .char c quoted _ => some (c, quoted)
    | .empty => none

def fields (pieces : List Piece) : List Field :=
  ((pieces.splitOnP separates).filter (!·.isEmpty)).map marked

end Piece

namespace Expansion

def process : Nat := 4000

def value (m : Machine) (name : Octets) : Octets :=
  match name with
  | "?" => toString m.status
  | "$" => toString process
  | "#" => "0"
  | "0" => "sh"
  | name => (m.value? name).getD ""

def sumValue (m : Machine) (text : List Char) : Except SumFault Int := do
  let sum ← Sum.read text
  sum.value fun name =>
    let v := value m name
    match integerBy? readNumeral v with
    | some n => .ok n
    | none => if v.toList.all blank then .ok 0 else .error (.number v)

def inSubshell (prepare : Machine → Machine) (body : Task Unit) : Task Unit := do
  let outer ← get
  set (prepare { outer with loops := 0 })
  try body
  catch
    | .exit status => Task.setStatus status
    | .error => Task.setStatus 2
    | .break_ _ => return ()
    | .continue_ _ => return ()
    | stop => throw stop
  let inner ← get
  set (outer.leave inner)

def output (r : Runner) (body : Command) : Task Octets := do
  let (m, number) := (← get).addChannel (.pipe "")
  set m
  inSubshell (·.setDescriptor 1 number) (r.run body)
  modify fun n => { n with produced := n.status, status := m.status }
  let cs := ((← get).piped number).toList.filter (· ≠ '\x00')
  return String.ofList (cs.reverse.dropWhile (· = '\n')).reverse

def partPieces (r : Runner) : Part → Task (List Piece)
  | .text [] quoted => return if quoted then [.empty] else []
  | .text cs quoted => return cs.map fun c => .char c quoted false
  | .parameter name quoted => return Piece.ofText (value (← get) name) quoted
  | .command body quoted => return Piece.ofText (← output r body) quoted
  | .arithmetic body quoted => do
    let sum := Piece.text (← r.expand body)
    match sumValue (← get) sum with
    | .ok n => return Piece.ofText (toString n) quoted
    | .error fault => Task.fail (fault.message (String.ofList sum))

def openTilde (m : Machine) (w : Word) : Word :=
  match w, m.value? "HOME" with
  | .text ('~' :: cs) false :: rest, some home =>
    if cs.head? = some '/' || (cs.isEmpty && rest.isEmpty) then
      .text home.toList true :: .text cs false :: rest
    else w
  | _, _ => w

def text (r : Runner) (w : Word) : Task Octets := do
  return String.ofList (Piece.text (← r.expand (openTilde (← get) w)))

def arguments (r : Runner) (w : Word) : Task (List Octets) := do
  let pieces ← r.expand (openTilde (← get) w)
  let d := (← get).disk
  return (Piece.fields pieces).flatMap (Field.arguments d)

end Expansion

end CanvasScript.Shell
