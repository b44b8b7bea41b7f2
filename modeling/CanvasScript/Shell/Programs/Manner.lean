import CanvasScript.Shell.Machine

namespace CanvasScript.Shell

open Text (Octets)

abbrev Program := Octets → List Octets → Task Nat

def shows (c : Char) : Bool := ' ' ≤ c && c ≤ '~'

def controlEscape (c : Char) : List Char :=
  let digit (k : Nat) : Char := Char.ofNat ('0'.toNat + k % 8)
  match c with
  | '\x07' => ['\\', 'a']
  | '\x08' => ['\\', 'b']
  | '\t' => ['\\', 't']
  | '\n' => ['\\', 'n']
  | '\x0b' => ['\\', 'v']
  | '\x0c' => ['\\', 'f']
  | '\r' => ['\\', 'r']
  | c => ['\\', digit (c.toNat / 64), digit (c.toNat / 8), digit c.toNat]

def isDelicate (c : Char) : Bool :=
  !shows c || c ∈ [' ', '!', '"', '$', '&', '\x27', '(', ')', '*', ':', ';', '<', '=', '>', '?',
    '[', '\\', '^', '\x60', '|']

def isHarmless (c : Char) : Bool :=
  shows c && c ∉ ['!', '"', '$', '&', '(', ')', '*', ';', '<', '=', '>', '?', '@', '[', '\\', '^',
    '\x60', '|']

def quotedFrom (escaped : Bool) : List Char → List Char
  | [] => ['\x27']
  | c :: cs =>
    if !shows c then
      (if escaped then [] else ['\x27', '$', '\x27']) ++ controlEscape c ++ quotedFrom true cs
    else
      let reopened := if escaped then ['\x27', '\x27'] else []
      let char := if c = '\x27' then ['\x27', '\\', '\x27', '\x27'] else [c]
      reopened ++ char ++ quotedFrom false cs

def quotedName (name : Octets) : Octets :=
  let cs := name.toList
  if cs.contains '\x27' && cs.all isHarmless then "\"" ++ name ++ "\""
  else String.ofList ('\x27' :: quotedFrom false cs)

def shownName (name : Octets) : Octets :=
  if name.isEmpty || name.startsWith "#" || name.startsWith "~" || name.toList.any isDelicate then
    quotedName name
  else name

namespace Program

def complain (program text : Octets) : Task Unit :=
  Task.printError (program ++ ": " ++ text ++ "\n")

def fail (program text : Octets) : Task Nat := do
  complain program text
  return 1

def cannot (program deed : Octets) (e : FileError) : Task Nat :=
  fail program (deed ++ ": " ++ e.brief)

def refuse (code : Nat) (program text : Octets) : Task Nat := do
  complain program text
  Task.printError ("Try '" ++ program ++ " --help' for more information.\n")
  return code

def change (f : Disk → Except FileError Disk) : Task (Option FileError) := do
  let m ← get
  match f m.disk with
  | .ok d =>
    set { m with disk := d }
    return none
  | .error e => return some e

def readOperand (operand : Octets) : Task (Except FileError Octets) := do
  let m ← get
  if operand = "-" then
    match m.readAll 0 with
    | .ok (text, m) =>
      set m
      return .ok text
    | .error e => return .error e
  else return m.disk.read operand

def forEach (operands : List Octets) (body : Octets → Task Nat) : Task Nat :=
  operands.foldlM (fun code o => do
    let c ← body o
    return if c = 0 then code else c) 0

end Program

structure Parsed where
  options : List (Char × Octets)
  operands : List Octets

namespace Parsed

def has (p : Parsed) (c : Char) : Bool := p.options.any (·.1 = c)

def value? (p : Parsed) (c : Char) : Option Octets :=
  (p.options.reverse.find? (·.1 = c)).map (·.2)

def files (p : Parsed) : List Octets := if p.operands.isEmpty then ["-"] else p.operands

def readLetters (flags valued : List Char) (next : List Octets) :
    List Char → Except Octets (List (Char × Octets) × List Octets)
  | [] => .ok ([], next)
  | c :: rest =>
    if flags.contains c then do
      let (more, next) ← readLetters flags valued next rest
      return ((c, "") :: more, next)
    else if !valued.contains c then .error ("invalid option -- '" ++ c.toString ++ "'")
    else
      match rest, next with
      | [], [] => .error ("option requires an argument -- '" ++ c.toString ++ "'")
      | [], v :: next => .ok ([(c, v)], next)
      | rest, next => .ok ([(c, String.ofList rest)], next)

def read (flags valued : List Char) : Nat → List Octets → Except Octets Parsed
  | n + 1, arg :: rest =>
    if arg = "--" then .ok ⟨[], rest⟩
    else if arg.startsWith "--" then .error ("unrecognized option '" ++ arg ++ "'")
    else if arg.startsWith "-" && arg ≠ "-" then do
      let (options, rest) ← readLetters flags valued rest (arg.toList.drop 1)
      let p ← read flags valued n rest
      return { p with options := options ++ p.options }
    else do
      let p ← read flags valued n rest
      return { p with operands := arg :: p.operands }
  | _, _ => .ok ⟨[], []⟩

end Parsed

def Program.withOptions (flags valued : String) (code : Nat)
    (body : Octets → Parsed → Task Nat) : Program := fun program args => do
  match Parsed.read flags.toList valued.toList args.length args with
  | .ok p => body program p
  | .error reason => Program.refuse code program reason

end CanvasScript.Shell
