import CanvasScript.Json
import CanvasScript.Number.Numeral

namespace CanvasScript.Json

namespace Numeral

/-- Takes up digits as long as the value stays below `2 ^ 64`: the value, and how many digits are
left over. -/
def absorb (value : Nat) : List Char → Nat × Nat
  | [] => (value, 0)
  | c :: cs =>
    let next := value * 10 + (c.toNat - '0'.toNat)
    if next < Number.pow2 64 then absorb next cs else (value, cs.length + 1)

/-- Multiplies by a power of ten; powers beyond `1e308` are divided out step by step. -/
def scale (x : Float) (exponent : Int) : Nat → Option Float
  | 0 => some x
  | steps + 1 =>
    if exponent.natAbs ≤ 308 then
      let power := Number.ofDecimal false 1 exponent.natAbs
      if 0 ≤ exponent then
        let y := x * power
        if y.isInf then none else some y
      else some (x / power)
    else if x == 0 then some x
    else if 0 ≤ exponent then none
    else scale (x / Number.ofDecimal false 1 308) (exponent + 308) steps

def ofFloat? (negative : Bool) : Option Float → Numeral
  | some x => .real (if negative then -x else x)
  | none => .outOfRange

/-- The value of a numeral from its parts. Whole numbers that fit sixty-four bits stay whole, but
minus zero is a floating-point number. -/
def ofParts (negative : Bool) (whole : List Char) (fraction : Option (List Char))
    (exponent : Option (Bool × List Char)) : Numeral :=
  let (value, extra) := absorb 0 whole
  match fraction, exponent, extra with
  | none, none, 0 =>
    if !negative then .whole value
    else if value = 0 || Number.pow2 63 < value then .real (-(Number.ofNat value))
    else .whole (-(value : Int))
  | _, _, _ =>
    let digits := fraction.getD []
    let (value, ignored) := absorb value digits
    let start : Int := (extra : Int) - ((digits.length - ignored : Nat) : Int)
    let x := Number.ofNat value
    match exponent with
    | none => ofFloat? negative (scale x start 4)
    | some (small, ds) =>
      let e : Int := Number.digitsValue ds
      if Number.pow2 31 ≤ e then
        if value ≠ 0 && !small then .outOfRange else ofFloat? negative (some (Number.ofNat 0))
      else ofFloat? negative (scale x (if small then start - e else start + e) 4)

end Numeral

def isSpace (c : Char) : Bool := c = ' ' || c = '\n' || c = '\t' || c = '\r'

def skipSpace (cs : List Char) : List Char := cs.dropWhile isSpace

def readNumber (negative : Bool) (cs : List Char) : Option (Json × List Char) := do
  let whole := cs.takeWhile Char.isDigit
  let rest := cs.dropWhile Char.isDigit
  if whole.isEmpty || (whole.head? = some '0' && 1 < whole.length) then none
  let (fraction, rest) ← match rest with
    | '.' :: rest =>
      let ds := rest.takeWhile Char.isDigit
      if ds.isEmpty then none else some (some ds, rest.dropWhile Char.isDigit)
    | rest => some (none, rest)
  let (exponent, rest) ← match rest with
    | c :: rest' =>
      if c = 'e' || c = 'E' then
        let (small, rest') := Number.signed rest'
        let ds := rest'.takeWhile Char.isDigit
        if ds.isEmpty then none else some (some (small, ds), rest'.dropWhile Char.isDigit)
      else some (none, rest)
    | [] => some (none, rest)
  return (.number (.ofParts negative whole fraction exponent), rest)

def hexUnit? (ds : List Char) : Option Nat := Number.digits? 16 ds

def surrogatePair (high low : Nat) : Char :=
  Char.ofNat (0x10000 + (high - 0xd800) * 0x400 + (low - 0xdc00))

def isHigh (u : Nat) : Bool := 0xd800 ≤ u && u < 0xdc00

def isLow (u : Nat) : Bool := 0xdc00 ≤ u && u < 0xe000

def shortEscape? : Char → Option Char
  | '"' => some '"'
  | '\\' => some '\\'
  | '/' => some '/'
  | 'b' => some '\x08'
  | 'f' => some '\x0c'
  | 'n' => some '\n'
  | 'r' => some '\r'
  | 't' => some '\t'
  | _ => none

/-- The rest of a text up to its closing quote; `done` holds the characters so far, the last one
first, and `high` the unit of a pair that waits for its second half. -/
def readText (done : List Char) (sound : Bool) (high : Option Nat) :
    List Char → Option (Text × List Char)
  | [] => none
  | '\\' :: 'u' :: a :: b :: c :: d :: rest =>
    match hexUnit? [a, b, c, d] with
    | none => none
    | some u =>
      match high with
      | some h =>
        if isLow u then readText (surrogatePair h u :: done) sound none rest
        else if isHigh u then readText ('\ufffd' :: done) false (some u) rest
        else readText (Char.ofNat u :: '\ufffd' :: done) false none rest
      | none =>
        if isHigh u then readText done sound (some u) rest
        else if isLow u then readText ('\ufffd' :: done) false none rest
        else readText (Char.ofNat u :: done) sound none rest
  | '\\' :: e :: rest =>
    match shortEscape? e with
    | none => none
    | some c =>
      if high.isSome then readText (c :: '\ufffd' :: done) false none rest
      else readText (c :: done) sound none rest
  | c :: rest =>
    if c = '"' then
      if high.isSome then some (⟨String.ofList ('\ufffd' :: done).reverse, false⟩, rest)
      else some (⟨String.ofList done.reverse, sound⟩, rest)
    else if c = '\\' || c.toNat < 0x20 then none
    else if high.isSome then readText (c :: '\ufffd' :: done) false none rest
    else readText (c :: done) sound none rest

def afterWord? (word : List Char) (cs : List Char) : Option (List Char) :=
  if word.isPrefixOf cs then some (cs.drop word.length) else none

mutual

/-- One value, behind blanks. The number counted down bounds the nesting. -/
def readValue : Nat → List Char → Option (Json × List Char)
  | 0, _ => none
  | n + 1, cs =>
    match skipSpace cs with
    | '"' :: rest => (readText [] true none rest).map fun (s, rest) => (.text s, rest)
    | '[' :: rest =>
      match skipSpace rest with
      | ']' :: rest => some (.array [], rest)
      | rest => (readItems n [] rest).map fun (items, rest) => (.array items, rest)
    | '{' :: rest =>
      match skipSpace rest with
      | '}' :: rest => some (.object [], rest)
      | rest => (readFields n [] rest).map fun (fields, rest) => (.object fields, rest)
    | '-' :: rest => readNumber true rest
    | 'n' :: rest => (afterWord? "ull".toList rest).map fun rest => (.null, rest)
    | 't' :: rest => (afterWord? "rue".toList rest).map fun rest => (.bool true, rest)
    | 'f' :: rest => (afterWord? "alse".toList rest).map fun rest => (.bool false, rest)
    | rest => readNumber false rest

def readItems : Nat → List Json → List Char → Option (List Json × List Char)
  | 0, _, _ => none
  | n + 1, done, cs =>
    match readValue n cs with
    | none => none
    | some (item, rest) =>
      match skipSpace rest with
      | ',' :: rest => readItems n (item :: done) rest
      | ']' :: rest => some ((item :: done).reverse, rest)
      | _ => none

def readFields : Nat → List (Text × Json) → List Char → Option (List (Text × Json) × List Char)
  | 0, _, _ => none
  | n + 1, done, cs =>
    match skipSpace cs with
    | '"' :: rest =>
      match readText [] true none rest with
      | none => none
      | some (key, rest) =>
        match skipSpace rest with
        | ':' :: rest =>
          match readValue n rest with
          | none => none
          | some (value, rest) =>
            match skipSpace rest with
            | ',' :: rest => readFields n ((key, value) :: done) rest
            | '}' :: rest => some (((key, value) :: done).reverse, rest)
            | _ => none
        | _ => none
    | _ => none

end

def read? (s : String) : Option Json :=
  match readValue (s.length + 1) s.toList with
  | some (j, rest) => if (skipSpace rest).isEmpty then some j else none
  | none => none

end CanvasScript.Json
