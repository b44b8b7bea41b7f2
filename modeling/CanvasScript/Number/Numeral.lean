import CanvasScript.Number.Binary
import CanvasScript.Text.Blank

namespace CanvasScript.Number

def digitValue? (c : Char) : Option Nat :=
  if c.isDigit then some (c.toNat - '0'.toNat)
  else if 'a' ≤ c ∧ c ≤ 'z' then some (c.toNat - 'a'.toNat + 10)
  else if 'A' ≤ c ∧ c ≤ 'Z' then some (c.toNat - 'A'.toNat + 10)
  else none

def digits? (radix : Nat) (text : List Char) : Option Nat :=
  text.foldl (fun acc c => do
    let value ← acc
    let d ← digitValue? c
    if d < radix then some (value * radix + d) else none) (some 0)

def digitsValue (text : List Char) : Nat :=
  text.foldl (fun value c => value * 10 + (c.toNat - '0'.toNat)) 0

/-- The number nearest to `digits · 10 ^ exponent`. Exponents so far out that only infinity or zero
is near are cut off before the power is taken: a bit is worth less than a third of a decimal place,
and more than three tenths of one. -/
def ofDecimal (negative : Bool) (digits : Nat) (exponent : Int) : Float :=
  let bits : Int := digits.log2
  if digits = 0 || exponent + bits / 3 < -400 then nearest negative 0 1
  else if 400 < exponent + bits * 3 / 10 then infinity negative
  else nearest negative (digits * pow10 exponent.toNat) (pow10 (-exponent).toNat)

def ofParts (negative : Bool) (whole fraction : List Char) (exponent : Int) : Float :=
  ofDecimal negative (digitsValue (whole ++ fraction)) (exponent - (fraction.length : Int))

/-- The numeral that a run of digits and dots starts with: its digits before and after the point. A
point with no digit after it is not part of it. -/
def leadingNumeral (run : List Char) : List Char × List Char :=
  let whole := run.takeWhile Char.isDigit
  match run.dropWhile Char.isDigit with
  | '.' :: rest => (whole, rest.takeWhile Char.isDigit)
  | _ => (whole, [])

def ofRun (run : List Char) : Float :=
  let (whole, fraction) := leadingNumeral run
  ofParts false whole fraction 0

def signed : List Char → Bool × List Char
  | '-' :: rest => (true, rest)
  | '+' :: rest => (false, rest)
  | text => (false, text)

def exponent? : List Char → Option Int
  | [] => some 0
  | c :: rest =>
    if c = 'e' || c = 'E' then
      let (negative, ds) := signed rest
      if ds.isEmpty || !ds.all Char.isDigit then none
      else
        let e : Int := digitsValue ds
        some (if negative then -e else e)
    else none

def decimal? (text : List Char) : Option Float := do
  let (negative, rest) := signed text
  let whole := rest.takeWhile Char.isDigit
  let (fraction, rest) := match rest.dropWhile Char.isDigit with
    | '.' :: rest => (rest.takeWhile Char.isDigit, rest.dropWhile Char.isDigit)
    | rest => ([], rest)
  if whole.isEmpty && fraction.isEmpty then none
  else
    let e ← exponent? rest
    some (ofParts negative whole fraction e)

def radixMark? : List Char → Option (Nat × List Char)
  | '0' :: c :: rest =>
    if c = 'x' || c = 'X' then some (16, rest)
    else if c = 'o' || c = 'O' then some (8, rest)
    else if c = 'b' || c = 'B' then some (2, rest)
    else none
  | _ => none

/-- Digits of a radix behind their mark: at least one, perhaps after a plus, and in total below
`2 ^ 64`. -/
def unsigned? (radix : Nat) (text : List Char) : Option Nat :=
  let ds := match text with
    | '+' :: rest => rest
    | _ => text
  if ds.isEmpty then none
  else
    match digits? radix ds with
    | some n => if n < pow2 64 then some n else none
    | none => none

def ofText (s : String) : Float :=
  let text := Text.trimmed s.toList
  if text.isEmpty then nearest false 0 1
  else if text = "Infinity".toList || text = "+Infinity".toList then infinity false
  else if text = "-Infinity".toList then infinity true
  else
    match radixMark? text with
    | some (radix, rest) => ((unsigned? radix rest).map ofNat).getD nan
    | none => (decimal? text).getD nan

def truncate (x : Float) : Float :=
  match shape x with
  | .finite negative m e => if 0 ≤ e then x else nearest negative (m / pow2 (-e).toNat) 1
  | _ => x

def toInteger (x : Float) : Float := if x.isNaN then nearest false 0 1 else truncate x

def toInt (x : Float) : Int :=
  match shape x with
  | .nan => 0
  | .infinite negative => if negative then -(pow2 63 : Nat) else pow2 63
  | .finite negative m e =>
    let size : Nat := if 0 ≤ e then m * pow2 (min e.toNat 64) else m / pow2 (-e).toNat
    let size := min size (pow2 63)
    if negative then -(size : Int) else size

def toCount (x : Float) : Nat :=
  match shape x with
  | .nan => 0
  | .infinite negative => if negative then 0 else pow2 64 - 1
  | .finite negative m e =>
    let size : Nat := if 0 ≤ e then m * pow2 (min e.toNat 64) else m / pow2 (-e).toNat
    if negative then 0 else min size (pow2 64 - 1)

/-- How many of the counts `0, 1, 2, …` lie below a number; none below NaN, and more than `2 ^ 63`
below what is greater than that. -/
def countBelow (x : Float) : Nat :=
  match shape x with
  | .nan => 0
  | .infinite negative => if negative then 0 else pow2 64
  | .finite negative m e =>
    if negative then 0
    else if 0 ≤ e then m * pow2 (min e.toNat 64)
    else (m + pow2 (-e).toNat - 1) / pow2 (-e).toNat

def isWhole (x : Float) : Bool :=
  match shape x with
  | .finite _ m e => 0 ≤ e || m % pow2 (-e).toNat = 0
  | _ => false

def toNat? (bound : Nat) (x : Float) : Option Nat :=
  match shape x with
  | .finite negative m e =>
    let n : Nat := if 0 ≤ e then m * pow2 (min e.toNat 64) else m / pow2 (-e).toNat
    if isWhole x && (n = 0 || !negative) && n < bound then some n else none
  | _ => none

end CanvasScript.Number
