import CanvasScript.Number.Shortest

namespace CanvasScript.Number

structure Layout where
  /-- What is written for a number halfway between two of its shortest decimals. -/
  halfway : Halfway
  /-- The least exponent that is written positionally; `none` writes all small numbers so. -/
  low : Option Int
  high : Option Int
  wholeSuffix : String
  exponentMark : String
  nan : String
  infinity : String
  negativeInfinity : String
  zero : String
  negativeZero : String

def Decimal.digitChars (d : Decimal) : List Char := Nat.toDigits 10 d.digits

def Decimal.leadExponent (d : Decimal) : Int := d.exponent + (d.digitChars.length : Int) - 1

def Decimal.positional (d : Decimal) (wholeSuffix : String) : String :=
  let ds := d.digitChars
  if 0 ≤ d.exponent then String.ofList (ds ++ List.replicate d.exponent.toNat '0') ++ wholeSuffix
  else
    let places := (-d.exponent).toNat
    let padded := List.replicate (places + 1 - ds.length) '0' ++ ds
    let whole := padded.length - places
    String.ofList (padded.take whole ++ '.' :: padded.drop whole)

def Decimal.scientific (d : Decimal) (mark : String) : String :=
  let mantissa := match d.digitChars with
    | c :: c' :: cs => c :: '.' :: c' :: cs
    | cs => cs
  let e := d.leadExponent
  let exponent := if 0 ≤ e then mark ++ toString e.toNat else "e-" ++ toString (-e).toNat
  String.ofList mantissa ++ exponent

namespace Layout

def writesPositionally (l : Layout) (e : Int) : Bool :=
  (match l.low with | some low => low ≤ e | none => true) &&
    (match l.high with | some high => e ≤ high | none => true)

def decimal (l : Layout) (d : Decimal) : String :=
  if l.writesPositionally d.leadExponent then d.positional l.wholeSuffix
  else d.scientific l.exponentMark

def shape (l : Layout) : Shape → String
  | .nan => l.nan
  | .infinite negative => if negative then l.negativeInfinity else l.infinity
  | .finite negative 0 _ => if negative then l.negativeZero else l.zero
  | .finite negative m e =>
    let text := l.decimal (shortest l.halfway m e)
    if negative then "-" ++ text else text

def text (l : Layout) (x : Float) : String := l.shape (Number.shape x)

def script : Layout :=
  ⟨.upper, some (-6), some 20, "", "e+", "NaN", "Infinity", "-Infinity", "0", "0"⟩

def plain : Layout := ⟨.upper, none, none, "", "e", "NaN", "inf", "-inf", "0", "-0"⟩

/-- Numbers in JSON: positional from `1e-5` up to below `1e16`, whole ones end in `.0`, and what is
not finite is null. Alone among the layouts it ends a number halfway between two decimals in an even
digit. -/
def json : Layout :=
  ⟨.even, some (-5), some 15, ".0", "e+", "null", "null", "null", "0.0", "-0.0"⟩

end Layout

end CanvasScript.Number
