import CanvasScript.Number.Power

namespace CanvasScript.Number

inductive Shape where
  | nan
  | infinite (negative : Bool)
  | finite (negative : Bool) (mantissa : Nat) (exponent : Int)
deriving DecidableEq, Repr

def storedBits : Nat := 52

def leastExponent : Int := -1074

def Shape.ofBits (bits : Nat) : Shape :=
  let negative := bits / pow2 63 % 2 = 1
  let scale : Nat := bits / pow2 52 % pow2 11
  let stored : Nat := bits % pow2 52
  if scale = pow2 11 - 1 then
    if stored = 0 then .infinite negative else .nan
  else if scale = 0 then .finite negative stored leastExponent
  else .finite negative (pow2 52 + stored) (leastExponent + (scale : Int) - 1)

def shape (x : Float) : Shape := .ofBits x.toBits.toNat

def isNegative (x : Float) : Bool :=
  match shape x with
  | .nan => false
  | .infinite negative => negative
  | .finite negative _ _ => negative

def roundHalfEven (num den : Nat) : Nat :=
  let q := num / den
  let r := num % den
  if 2 * r > den || (2 * r = den && q % 2 = 1) then q + 1 else q

def scaled (num den : Nat) (e : Int) : Nat × Nat :=
  if 0 ≤ e then (num, den * pow2 e.toNat) else (num * pow2 (-e).toNat, den)

/-- The exponent at which the whole part of `num / den / 2 ^ e` has fifty-three bits, but never
below the least exponent. -/
def exponentOf (num den : Nat) : Int :=
  let e : Int := (num.log2 : Int) - (den.log2 : Int) - storedBits
  let (n, d) := scaled num den e
  max leastExponent (if n / d < pow2 storedBits then e - 1 else e)

/-- The bits of the positive number nearest to `num / den`; from halfway past the largest finite
number on, those of infinity. -/
def nearestBits (num den : Nat) : Nat :=
  if num = 0 then 0
  else
    let e := exponentOf num den
    let (n, d) := scaled num den e
    min ((pow2 11 - 1) * pow2 storedBits)
      ((e - leastExponent).toNat * pow2 storedBits + roundHalfEven n d)

/-- The number nearest to `num / den`, of the sign given. -/
def nearest (negative : Bool) (num den : Nat) : Float :=
  let bits := nearestBits num den
  Float.ofBits (UInt64.ofNat (if negative then pow2 63 + bits else bits))

def ofNat (n : Nat) : Float := nearest false n 1

def nan : Float := Float.ofBits 0x7ff8000000000000

def infinity (negative : Bool) : Float :=
  Float.ofBits (if negative then 0xfff0000000000000 else 0x7ff0000000000000)

end CanvasScript.Number
