import CanvasScript.Failure
import CanvasScript.Heap
import CanvasScript.Text.Case
import CanvasScript.Text.Search
import CanvasScript.Value.Operators

namespace CanvasScript

def Value.arg (args : List Value) (i : Nat) : Value := args.getD i .undefined

namespace Method

open Value (arg)

/-- A position given relative to a length: undefined stands for `default`, what lies outside is
moved to the nearer end. -/
def relativeIndex (h : Heap) (v : Value) (length default : Nat) : Nat :=
  match v with
  | .undefined => default
  | v =>
    let k := Number.toInt (v.toNumber h)
    if k < 0 then ((length : Int) + k).toNat else min k.toNat length

def cut {α : Type} (h : Heap) (xs : List α) (args : List Value) : List α :=
  let start := relativeIndex h (arg args 0) xs.length 0
  let stop := relativeIndex h (arg args 1) xs.length xs.length
  (xs.take stop).drop start

def position {α : Type} (p : α → Bool) (xs : List α) : Value :=
  match xs.findIdx? p with
  | some i => .number (Number.ofNat i)
  | none => .number (Number.nearest true 1 1)

def joined (h : Heap) (separator : String) (items : List Value) : String :=
  separator.intercalate (items.map fun v => if v.isNullish then "" else v.display h)

def separator (h : Heap) : Value → String
  | .undefined => ","
  | v => v.display h

def pieces (h : Heap) (s : String) : Value → List String
  | .undefined => [s]
  | v => (Text.split (v.display h).toList s.toList).map String.ofList

def callArray (h : Heap) (r : ArrayRef) (args : List Value) : ArrayMethod → Value × Heap
  | .push =>
    let h := h.modifyArray r fun items => args.foldl Array.push items
    (.number (Number.ofNat (h.items r).size), h)
  | .pop => ((h.items r).back?.getD .undefined, h.modifyArray r Array.pop)
  | .shift =>
    ((h.items r)[0]?.getD .undefined, h.modifyArray r fun items => items.extract 1 items.size)
  | .join => (.text (joined h (separator h (arg args 0)) (h.items r).toList), h)
  | .indexOf => (position (Value.strictEq · (arg args 0)) (h.items r).toList, h)
  | .includes => (.bool ((h.items r).any (Value.sameValueZero · (arg args 0))), h)
  | .slice =>
    let (q, h) := h.newArray (cut h (h.items r).toList args).toArray
    (.array q, h)
  | .reverse => (.array r, h.modifyArray r Array.reverse)

def callText (h : Heap) (s : String) (args : List Value) : TextMethod → Value × Heap
  | .toUpperCase => (.text (Text.toUpper s), h)
  | .toLowerCase => (.text (Text.toLower s), h)
  | .trim => (.text (Text.trim s), h)
  | .split =>
    let (q, h) := h.newArray ((pieces h s (arg args 0)).map Value.text).toArray
    (.array q, h)
  | .includes => (.bool (Text.find? ((arg args 0).display h).toList s.toList).isSome, h)
  | .indexOf =>
    let place : Value := match Text.find? ((arg args 0).display h).toList s.toList with
      | some i => .number (Number.ofNat i)
      | none => .number (Number.nearest true 1 1)
    (place, h)
  | .slice => (.text (String.ofList (cut h s.toList args)), h)
  | .replace =>
    let needle := ((arg args 0).display h).toList
    let replacement := ((arg args 1).display h).toList
    (.text (String.ofList (Text.replaceFirst needle replacement s.toList)), h)

inductive Bound where
  | array (r : ArrayRef) (m : ArrayMethod)
  | text (s : String) (m : TextMethod)

/-- A method can be read off one value and called with another receiver only by a host; then the
receiver may be of the wrong kind. -/
def bind (m : Method) (receiver : Value) : Except Failure Bound :=
  match m, receiver with
  | .array m, .array r => .ok (.array r m)
  | .text m, .text s => .ok (.text s m)
  | .array _, v => .error (.receiver .array v.kind)
  | .text _, v => .error (.receiver .text v.kind)

def Bound.call (h : Heap) (args : List Value) : Bound → Value × Heap
  | .array r m => callArray h r args m
  | .text s m => callText h s args m

end Method

def Value.intrinsic? (h : Heap) (v : Value) (name : String) : Option Value :=
  match v with
  | .array r =>
    if name = "length" then some (.number (Number.ofNat (h.items r).size))
    else (ArrayMethod.ofName? name).map fun m => .method v (.array m)
  | .text s =>
    if name = "length" then some (.number (Number.ofNat s.length))
    else (TextMethod.ofName? name).map fun m => .method v (.text m)
  | _ => none

end CanvasScript
