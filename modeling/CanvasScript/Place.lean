import CanvasScript.State
import CanvasScript.Value.Methods

namespace CanvasScript

/-- Arrays grow by assignment up to this length. -/
def maxArrayLength : Nat := Number.pow2 24

inductive Place where
  | variable (name : String)
  | member (owner : Value) (property : String)
  | index (owner index : Value)

/-- The element that a text spells: decimal digits without a needless zero, below `2 ^ 64`. -/
def spelledIndex? (s : String) : Option Nat :=
  match s.toList with
  | [] => none
  | c :: cs =>
    if (c :: cs).all Char.isDigit && (c ≠ '0' || cs.isEmpty) then
      let n := Number.digitsValue (c :: cs)
      if n < Number.pow2 64 then some n else none
    else none

def Value.elementIndex? : Value → Option Nat
  | .number x => Number.toNat? 4294967295 x
  | .text s => spelledIndex? s
  | _ => none

namespace Place

def readMember (h : Heap) (owner : Value) (property : String) : Except Failure Value :=
  if owner.isNullish then .error (.readProperty property owner.kind)
  else
    match owner with
    | .object r => .ok (((h.fields r).get? property).getD .undefined)
    | owner => .ok ((owner.intrinsic? h property).getD .undefined)

def charAt (s : String) (i : Nat) : Value :=
  match s.toList[i]? with
  | some c => .text c.toString
  | none => .undefined

def readIndex (h : Heap) (owner index : Value) : Except Failure Value :=
  if owner.isNullish then .error (.readIndex (index.display h) owner.kind)
  else
    match owner, index.elementIndex? with
    | .array r, some i => .ok ((h.items r)[i]?.getD .undefined)
    | .text s, some i => .ok (charAt s i)
    | _, _ => readMember h owner (index.display h)

def resized (items : Array Value) (n : Nat) : Array Value :=
  if n ≤ items.size then items.extract 0 n
  else items ++ Array.replicate (n - items.size) Value.undefined

inductive Edit where
  | nothing
  | field (r : ObjectRef) (key : String) (v : Value)
  | element (r : ArrayRef) (i : Nat) (v : Value)
  | length (r : ArrayRef) (n : Nat)

def withElement (items : Array Value) (i : Nat) (v : Value) : Array Value :=
  (if i < items.size then items else resized items (i + 1)).setIfInBounds i v

def Edit.apply (h : Heap) : Edit → Heap
  | .nothing => h
  | .field r key v => h.setField r key v
  | .element r i v => h.modifyArray r (withElement · i v)
  | .length r n => h.modifyArray r (resized · n)

def setElement (r : ArrayRef) (i : Nat) (v : Value) : Except Failure Edit :=
  if maxArrayLength ≤ i then .error (.arrayIndex i) else .ok (.element r i v)

def setLength (h : Heap) (r : ArrayRef) (v : Value) : Except Failure Edit :=
  match Number.toNat? (maxArrayLength + 1) (v.toNumber h) with
  | some n => .ok (.length r n)
  | none => .error (.arrayLength (v.display h))

/-- What setting a property changes. Arrays have elements and a length; texts, numbers and functions
take no properties and ignore the attempt. -/
def setMember (h : Heap) (owner : Value) (key : String) (v : Value) : Except Failure Edit :=
  if owner.isNullish then .error (.setProperty key owner.kind)
  else
    match owner with
    | .object r => .ok (.field r key v)
    | .array r =>
      if key = "length" then setLength h r v
      else
        match spelledIndex? key with
        | some i => setElement r i v
        | none => .ok .nothing
    | _ => .ok .nothing

def setIndex (h : Heap) (owner index v : Value) : Except Failure Edit :=
  match owner, index.elementIndex? with
  | .array r, some i => setElement r i v
  | _, _ => setMember h owner (index.display h) v

end Place

namespace Action

variable {σ : Type}

def variable_ (name : String) (line : Nat) : Action σ Value := fun s =>
  match s.bindings[name]? with
  | some v => (.ok v, s)
  | none => Action.fail line (.undefinedVariable name) s

def readPlace (p : Place) (line : Nat) : Action σ Value := fun s =>
  match p with
  | .variable name => variable_ name line s
  | .member owner property => ofExcept line (Place.readMember s.heap owner property) s
  | .index owner index => ofExcept line (Place.readIndex s.heap owner index) s

@[inline]
def edit (line : Nat) (find : Heap → Except Failure Place.Edit) : Action σ Unit := fun s =>
  match find s.heap with
  | .ok e => (.ok (), { s with heap := e.apply s.heap })
  | .error f => Action.fail line f s

def writePlace (p : Place) (v : Value) (line : Nat) : Action σ Unit :=
  match p with
  | .variable name => setVariable name v
  | .member owner property => edit line fun h => Place.setMember h owner property v
  | .index owner index => edit line fun h => Place.setIndex h owner index v

def callMethod (m : Method) (receiver : Value) (args : List Value) (line : Nat) :
    Action σ Value := fun s =>
  match m.bind receiver with
  | .ok bound =>
    let (v, heap) := bound.call s.heap args
    (.ok v, { s with heap := heap })
  | .error f => Action.fail line f s

end Action

end CanvasScript
