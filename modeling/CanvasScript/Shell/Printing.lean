import CanvasScript.Shell.Arithmetic
import CanvasScript.Shell.Machine

namespace CanvasScript.Shell

open Text (Octets)

def readOctal (cs : List Char) : Char × List Char :=
  let digits := (cs.take 3).takeWhile fun c => '0' ≤ c && c ≤ '7'
  (Text.octet (readDigits 8 digits).1, cs.drop digits.length)

def escaped? (c : Char) : Option Char :=
  match c with
  | 'n' => some '\n'
  | 't' => some '\t'
  | 'r' => some '\r'
  | 'a' => some '\x07'
  | 'b' => some '\x08'
  | 'f' => some '\x0c'
  | 'v' => some '\x0b'
  | '\\' => some '\\'
  | _ => none

def readEscape (cs : List Char) : Char × List Char :=
  match cs with
  | [] => ('\\', [])
  | c :: rest =>
    if '0' ≤ c && c ≤ '7' then readOctal cs
    else
      match escaped? c with
      | some d => (d, rest)
      | none => ('\\', cs)

def unescape : Nat → List Char → List Char × Bool
  | _ + 1, '\\' :: 'c' :: _ => ([], true)
  | n + 1, '\\' :: rest =>
    let (c, rest) := match rest with
      | '0' :: digits => readOctal digits
      | rest => readEscape rest
    let (tail, cut) := unescape n rest
    (c :: tail, cut)
  | n + 1, c :: rest =>
    let (tail, cut) := unescape n rest
    (c :: tail, cut)
  | _, _ => ([], false)

def unescapeText (s : Octets) : List Char × Bool := unescape s.length s.toList

def echo (args : List Octets) : Octets :=
  let (ending, words) : List Char × List Octets := match args with
    | "-n" :: rest => ([], rest)
    | args => (['\n'], args)
  let (text, cut) := unescapeText (" ".intercalate words)
  String.ofList (if cut then text else text ++ ending)

structure Directive where
  flags : List Char
  width : Nat
  precision : Option Nat
  letter : Char

namespace Directive

def has (d : Directive) (flag : Char) : Bool := d.flags.contains flag

def fill (d : Directive) (zeros : Bool) (sign body : List Char) : List Char :=
  let missing := d.width - (sign.length + body.length)
  if d.has '-' then sign ++ body ++ List.replicate missing ' '
  else if zeros && d.has '0' then sign ++ List.replicate missing '0' ++ body
  else List.replicate missing ' ' ++ sign ++ body

def text (d : Directive) (cs : List Char) : List Char :=
  d.fill false [] ((d.precision.map cs.take).getD cs)

def sign (d : Directive) (n : Int) : List Char :=
  if n < 0 then ['-'] else if d.has '+' then ['+'] else if d.has ' ' then [' '] else []

def integer (d : Directive) (n : Int) : List Char :=
  let unsigned := (n % 18446744073709551616).toNat
  let marked := d.has '#' && n ≠ 0
  let (sign, digits) : List Char × List Char := match d.letter with
    | 'o' => ([], (if marked then ['0'] else []) ++ Nat.toDigits 8 unsigned)
    | 'u' => ([], Nat.toDigits 10 unsigned)
    | 'x' => (if marked then ['0', 'x'] else [], Nat.toDigits 16 unsigned)
    | 'X' => (if marked then ['0', 'X'] else [], (Nat.toDigits 16 unsigned).map Char.toUpper)
    | _ => (d.sign n, Nat.toDigits 10 n.natAbs)
  let missing := d.precision.getD 1 - digits.length
  d.fill d.precision.isNone sign (List.replicate missing '0' ++ digits)

def read? (cs : List Char) : Option (Directive × List Char) :=
  let flags := cs.takeWhile fun c => c ∈ ['#', '-', '+', ' ', '0']
  let (width, cs) := readDigits 10 (cs.drop flags.length)
  let (precision, cs) := match cs with
    | '.' :: rest => (some (readDigits 10 rest).1, (readDigits 10 rest).2)
    | cs => (none, cs)
  match cs with
  | [] => none
  | c :: rest => some (⟨flags, width, precision, c⟩, rest)

end Directive

structure Formatting where
  arguments : List Octets
  printed : List Char
  complaints : List Octets

inductive FormatStop where
  | cut
  | broken

abbrev Format := EStateM FormatStop Formatting

namespace Format

def put (cs : List Char) : Format Unit :=
  modify fun s => { s with printed := cs.reverse ++ s.printed }

def next? : Format (Option Octets) := do
  let s ← get
  set { s with arguments := s.arguments.tail }
  return s.arguments.head?

def complain (text : Octets) : Format Unit :=
  modify fun s => { s with complaints := text :: s.complaints }

def nextInteger : Format Int := do
  let arg := (← next?).getD "0"
  match arg.toList with
  | '\x27' :: rest => return (rest.head?.map fun c => (c.toNat : Int)).getD 0
  | '"' :: rest => return (rest.head?.map fun c => (c.toNat : Int)).getD 0
  | cs =>
    match readSigned? readNumeral cs with
    | none =>
      complain (arg ++ ": expected numeric value")
      return 0
    | some (n, rest) =>
      if !rest.isEmpty then complain (arg ++ ": not completely converted")
      else if n < smallest || largest < n then
        complain (arg ++ ": Numerical result out of range")
      return max smallest (min largest n)

def apply (written : List Char) (d : Directive) : Format Unit := do
  match d.letter with
  | 's' => put (d.text ((← next?).getD "").toList)
  | 'c' => put (d.fill false [] [(((← next?).bind fun s => s.toList.head?).getD '\x00')])
  | 'b' =>
    let (cs, cut) := unescapeText ((← next?).getD "")
    put (d.text cs)
    if cut then throw .cut
  | letter =>
    if letter ∈ ['d', 'i', 'o', 'u', 'x', 'X'] then put (d.integer (← nextInteger))
    else
      complain ("%" ++ String.ofList written ++ ": invalid directive")
      throw .broken

def pass : Nat → List Char → Format Unit
  | n + 1, '%' :: '%' :: rest => do
    put ['%']
    pass n rest
  | n + 1, '%' :: rest => do
    match Directive.read? rest with
    | none =>
      complain "missing format character"
      throw .broken
    | some (d, after) =>
      apply (rest.take (rest.length - after.length)) d
      pass n after
  | n + 1, '\\' :: rest => do
    let (c, rest) := readEscape rest
    put [c]
    pass n rest
  | n + 1, c :: rest => do
    put [c]
    pass n rest
  | _, _ => return ()

def passes (format : List Char) : Nat → Format Unit
  | 0 => return ()
  | n + 1 => do
    let before := (← get).arguments.length
    pass format.length format
    let left := (← get).arguments.length
    if 0 < left && left < before then passes format n

end Format

def printf (args : List Octets) : Task Nat := do
  match if args.head? = some "--" then args.tail else args with
  | [] => Task.misused "usage: printf format [arg ...]"
  | format :: args =>
    let finish (status : Nat) (s : Formatting) : Task Nat := do
      s.complaints.reverse.forM Task.complain
      Task.print (String.ofList s.printed.reverse)
      return if status = 0 && !s.complaints.isEmpty then 1 else status
    match (Format.passes format.toList (args.length + 1)).run ⟨args, [], []⟩ with
    | .ok () s => finish 0 s
    | .error .cut s => finish 0 s
    | .error .broken s => finish 2 s

end CanvasScript.Shell
