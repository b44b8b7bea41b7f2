import CanvasScript.Shell.Command

namespace CanvasScript.Shell

open Text (Octets)

def blank (c : Char) : Bool := c = ' ' || ('\t' ≤ c && c ≤ '\r')

def largest : Int := 9223372036854775807

def smallest : Int := -9223372036854775808

/-- The integer of 64 bits that agrees with an integer modulo two to the 64. -/
def wrap (n : Int) : Int := Int.bmod n 18446744073709551616

def digitValue (c : Char) : Nat :=
  if c.isDigit then c.toNat - '0'.toNat
  else if 'a' ≤ c.toLower && c.toLower ≤ 'z' then c.toLower.toNat - 'a'.toNat + 10
  else 36

def readDigits (base : Nat) (cs : List Char) : Nat × List Char :=
  let digits := cs.takeWhile fun c => digitValue c < base
  (digits.foldl (fun n c => n * base + digitValue c) 0, cs.drop digits.length)

/-- A numeral without a sign: octal behind a zero, hexadecimal behind `0x`. -/
def readNumeral (cs : List Char) : Nat × List Char :=
  match cs with
  | '0' :: x :: d :: rest =>
    if x.toLower = 'x' && digitValue d < 16 then readDigits 16 (d :: rest) else readDigits 8 cs
  | '0' :: _ => readDigits 8 cs
  | _ => readDigits 10 cs

def readSigned? (read : List Char → Nat × List Char) (cs : List Char) : Option (Int × List Char) :=
  let (sign, cs) : Int × List Char := match cs.dropWhile blank with
    | '-' :: rest => (-1, rest)
    | '+' :: rest => (1, rest)
    | cs => (1, cs)
  if (cs.head?.map Char.isDigit).getD false then
    let (n, rest) := read cs
    some (sign * n, rest)
  else none

def integerBy? (read : List Char → Nat × List Char) (text : Octets) : Option Int :=
  match readSigned? read text.toList with
  | some (n, rest) => if rest.all blank && smallest ≤ n && n ≤ largest then some n else none
  | none => none

inductive SumToken where
  | number (n : Int)
  | name (s : Octets)
  | sign (s : String)
deriving DecidableEq

inductive Sum where
  | number (n : Int)
  | name (s : Octets)
  | unary (sign : String) (a : Sum)
  | binary (sign : String) (a b : Sum)

def sumSigns : List String :=
  ["<<", ">>", "<=", ">=", "==", "!=", "&&", "||", "+", "-", "*", "/", "%", "<", ">", "&", "|", "^",
    "~", "!", "(", ")"]

def sumTokens : Nat → List Char → List SumToken
  | 0, _ => []
  | _ + 1, [] => []
  | n + 1, c :: cs =>
    if blank c then sumTokens n cs
    else if c.isDigit then
      let (k, rest) := readNumeral (c :: cs)
      .number (max smallest (min largest k)) :: sumTokens n rest
    else if isNameStart c then
      let name := (c :: cs).takeWhile continuesName
      .name (String.ofList name) :: sumTokens n ((c :: cs).drop name.length)
    else
      match sumSigns.find? fun s => s.toList.isPrefixOf (c :: cs) with
      | some s => .sign s :: sumTokens n ((c :: cs).drop s.length)
      | none => [.sign ""]

def binaryLevels : List (List String) :=
  [["||"], ["&&"], ["|"], ["^"], ["&"], ["==", "!="], ["<=", ">=", "<", ">"], ["<<", ">>"],
    ["+", "-"], ["*", "/", "%"]]

inductive SumFault where
  | reason (text : String)
  | number (text : Octets)

def SumFault.message (sum : Octets) : SumFault → Octets
  | reason text => "arithmetic expression: " ++ text ++ ": \"" ++ sum ++ "\""
  | number text => "Illegal number: " ++ text

abbrev SumReading := Except SumFault (Sum × List SumToken)

mutual

def readLevel : Nat → List (List String) → List SumToken → SumReading
  | 0, _, _ => .error (.reason "expecting primary")
  | n + 1, [], ts => readPrimary n ts
  | n + 1, level :: levels, ts => do
    let (a, rest) ← readLevel n levels ts
    readOperands n level levels a rest

def readOperands : Nat → List String → List (List String) → Sum → List SumToken → SumReading
  | 0, _, _, a, ts => .ok (a, ts)
  | n + 1, level, levels, a, ts =>
    match ts with
    | .sign s :: rest =>
      if level.contains s then do
        let (b, rest) ← readLevel n levels rest
        readOperands n level levels (.binary s a b) rest
      else .ok (a, ts)
    | ts => .ok (a, ts)

def readPrimary : Nat → List SumToken → SumReading
  | 0, _ => .error (.reason "expecting primary")
  | n + 1, ts =>
    match ts with
    | .number k :: rest => .ok (.number k, rest)
    | .name x :: rest => .ok (.name x, rest)
    | .sign "(" :: rest => do
      match ← readLevel n binaryLevels rest with
      | (a, .sign ")" :: rest) => return (a, rest)
      | _ => throw (.reason "expecting ')'")
    | .sign s :: rest =>
      if s ∈ ["+", "-", "!", "~"] then do
        let (a, rest) ← readPrimary n rest
        return (.unary s a, rest)
      else .error (.reason "expecting primary")
    | [] => .error (.reason "expecting primary")

end

def Sum.read (text : List Char) : Except SumFault Sum :=
  let ts := sumTokens (text.length + 1) text
  match readLevel (24 * (ts.length + 2)) binaryLevels ts with
  | .ok (a, []) => .ok a
  | .ok _ => .error (.reason "expecting EOF")
  | .error e => .error e

def truth (b : Bool) : Int := if b then 1 else 0

def bitwise (f : BitVec 64 → BitVec 64 → BitVec 64) (a b : Int) : Int :=
  (f (BitVec.ofInt 64 a) (BitVec.ofInt 64 b)).toInt

def operate (sign : String) (a b : Int) : Except SumFault Int :=
  match sign with
  | "+" => .ok (wrap (a + b))
  | "-" => .ok (wrap (a - b))
  | "*" => .ok (wrap (a * b))
  | "/" => if b = 0 then .error (.reason "division by zero") else .ok (wrap (Int.tdiv a b))
  | "%" => if b = 0 then .error (.reason "division by zero") else .ok (wrap (Int.tmod a b))
  | "<" => .ok (truth (a < b))
  | ">" => .ok (truth (a > b))
  | "<=" => .ok (truth (a ≤ b))
  | ">=" => .ok (truth (a ≥ b))
  | "==" => .ok (truth (a = b))
  | "&" => .ok (bitwise (· &&& ·) a b)
  | "|" => .ok (bitwise (· ||| ·) a b)
  | "^" => .ok (bitwise (· ^^^ ·) a b)
  | "<<" => .ok (bitwise (fun x _ => x <<< (b % 64).toNat) a b)
  | ">>" => .ok (bitwise (fun x _ => x.sshiftRight (b % 64).toNat) a b)
  | _ => .ok (truth (a ≠ b))

def Sum.value (get : Octets → Except SumFault Int) : Sum → Except SumFault Int
  | number n => .ok n
  | name x => get x
  | unary sign a => do
    let n ← a.value get
    return match sign with
      | "-" => wrap (-n)
      | "!" => truth (n = 0)
      | "~" => -n - 1
      | _ => n
  | binary "&&" a b => do
    let n ← a.value get
    if n = 0 then return 0 else return truth ((← b.value get) ≠ 0)
  | binary "||" a b => do
    let n ← a.value get
    if n ≠ 0 then return 1 else return truth ((← b.value get) ≠ 0)
  | binary sign a b => do
    let n ← a.value get
    let k ← b.value get
    operate sign n k

end CanvasScript.Shell
