import CanvasScript.Number.Binary

namespace CanvasScript.Number

structure Decimal where
  digits : Nat
  exponent : Int
deriving DecidableEq, Repr

inductive Halfway where
  | upper
  | even
deriving DecidableEq, Repr

def Halfway.takesLower : Halfway → Nat → Bool
  | .upper, _ => false
  | .even, below => below % 2 = 0

structure RoundingInterval where
  low : Nat
  value : Nat
  high : Nat
  den : Nat
  closed : Bool
deriving Repr

/-- The halfway points around `m · 2 ^ e`. Below the least mantissa of its exponent the neighbours
stand half as far apart. -/
def RoundingInterval.of (m : Nat) (e : Int) : RoundingInterval :=
  let narrow := m = pow2 storedBits && leastExponent < e
  let low := if narrow then 4 * m - 1 else 4 * m - 2
  let up := pow2 (e - 2).toNat
  ⟨low * up, 4 * m * up, (4 * m + 2) * up, pow2 (2 - e).toNat, m % 2 = 0⟩

def RoundingInterval.contains (i : RoundingInterval) (d : Nat) (p : Int) : Bool :=
  let x := d * pow10 p.toNat * i.den
  let unit := pow10 (-p).toNat
  if i.closed then i.low * unit ≤ x && x ≤ i.high * unit
  else i.low * unit < x && x < i.high * unit

def RoundingInterval.onGrid? (i : RoundingInterval) (halfway : Halfway) (p : Int) :
    Option Decimal :=
  let num := i.value * pow10 (-p).toNat
  let den := i.den * pow10 p.toNat
  let below := num / den
  match i.contains below p, i.contains (below + 1) p with
  | false, false => none
  | true, false => some ⟨below, p⟩
  | false, true => some ⟨below + 1, p⟩
  | true, true =>
    let twice := 2 * (num % den)
    let lower := twice < den || (twice = den && halfway.takesLower below)
    some (if lower then ⟨below, p⟩ else ⟨below + 1, p⟩)

def exactDecimal (m : Nat) (e : Int) : Decimal :=
  if 0 ≤ e then ⟨m * pow2 e.toNat, 0⟩ else ⟨m * Nat.pow 5 (-e).toNat, e⟩

def RoundingInterval.search (i : RoundingInterval) (halfway : Halfway) (p : Int) :
    Nat → Option Decimal
  | 0 => none
  | tries + 1 =>
    match i.onGrid? halfway p with
    | some d => some d
    | none => i.search halfway (p - 1) tries

def coarseExponent (m : Nat) (e : Int) : Int := ((m.log2 : Int) + 1 + e) * 30103 / 100000 + 1

def shortest (halfway : Halfway) (m : Nat) (e : Int) : Decimal :=
  ((RoundingInterval.of m e).search halfway (coarseExponent m e) 20).getD (exactDecimal m e)

end CanvasScript.Number
