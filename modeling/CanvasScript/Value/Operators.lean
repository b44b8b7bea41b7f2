import CanvasScript.Value.Display
import CanvasScript.Number.Numeral

namespace CanvasScript.Value

def toNumber (h : Heap) : Value → Float
  | number x => x
  | bool b => if b then Number.ofNat 1 else Number.ofNat 0
  | null => Number.ofNat 0
  | text s => Number.ofText s
  | array r => Number.ofText (display h (array r))
  | _ => Number.nan

def toInteger (h : Heap) (v : Value) : Float := Number.toInteger (toNumber h v)

def isReference : Value → Bool
  | array _ => true
  | object _ => true
  | function _ => true
  | native _ => true
  | method _ _ => true
  | _ => false

def toPrimitive (h : Heap) (v : Value) : Value := if v.isReference then text (display h v) else v

/-- Equality without conversion. NaN differs from itself, containers and functions are equal to
themselves only, and methods are equal when they are the same one of the same receiver. -/
def strictEq : Value → Value → Bool
  | number x, number y => x == y
  | text s, text t => s = t
  | bool a, bool b => a = b
  | null, null => true
  | undefined, undefined => true
  | array r, array q => r = q
  | object r, object q => r = q
  | function f, function g => f.same g
  | native m, native n => m = n
  | method v m, method w n => m = n && strictEq v w
  | _, _ => false

def sameValueZero (a b : Value) : Bool :=
  match a, b with
  | number x, number y => (x.isNaN && y.isNaN) || x == y
  | _, _ => strictEq a b

def sameReference? (a b : Value) : Option Bool :=
  if a.isReference && b.isReference then
    match a, b with
    | array _, array _ => some (strictEq a b)
    | object _, object _ => some (strictEq a b)
    | function _, function _ => some (strictEq a b)
    | native _, native _ => some (strictEq a b)
    | method _ _, method _ _ => some (strictEq a b)
    | _, _ => none
  else none

/-- What loose equality compares in the end: a number or a text. -/
inductive Comparable where
  | number (x : Float)
  | text (s : String)

def comparable (h : Heap) (v : Value) : Comparable :=
  match v with
  | text s => .text s
  | number x => .number x
  | v => if v.isReference then .text (display h v) else .number (toNumber h v)

def Comparable.eq : Comparable → Comparable → Bool
  | text s, text t => s = t
  | number x, number y => x == y
  | number x, text t => x == Number.ofText t
  | text s, number y => Number.ofText s == y

def looseEq (h : Heap) (a b : Value) : Bool :=
  if a.isNullish || b.isNullish then a.isNullish && b.isNullish
  else
    match sameReference? a b with
    | some same => same
    | none => (comparable h a).eq (comparable h b)

def compareNumbers (x y : Float) : Option Ordering :=
  if x < y then some .lt else if x == y then some .eq else if y < x then some .gt else none

def compare (h : Heap) (a b : Value) : Option Ordering :=
  match toPrimitive h a, toPrimitive h b with
  | text s, text t => some (if s < t then .lt else if s = t then .eq else .gt)
  | a, b => compareNumbers (toNumber h a) (toNumber h b)

def add (h : Heap) (a b : Value) : Value :=
  match toPrimitive h a, toPrimitive h b with
  | text s, b => text (s ++ display h b)
  | a, text t => text (display h a ++ t)
  | a, b => number (toNumber h a + toNumber h b)

def arith (h : Heap) : ArithOp → Value → Value → Value
  | .add, a, b => add h a b
  | .sub, a, b => number (toNumber h a - toNumber h b)
  | .mul, a, b => number (toNumber h a * toNumber h b)
  | .div, a, b => number (toNumber h a / toNumber h b)

def binary (h : Heap) : BinaryOp → Value → Value → Value
  | .arith op, a, b => arith h op a b
  | .eq, a, b => bool (looseEq h a b)
  | .ne, a, b => bool (!looseEq h a b)
  | .lt, a, b => bool (compare h a b = some .lt)
  | .gt, a, b => bool (compare h a b = some .gt)
  | .le, a, b => bool (compare h a b = some .lt || compare h a b = some .eq)
  | .ge, a, b => bool (compare h a b = some .gt || compare h a b = some .eq)
  | .and, a, b => if a.truthy then b else a
  | .or, a, b => if a.truthy then a else b

def unary (h : Heap) : UnaryOp → Value → Value
  | .neg, v => number (-(toNumber h v))
  | .not, v => bool (!v.truthy)

end CanvasScript.Value
