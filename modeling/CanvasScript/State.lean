import Std.Data.HashMap
import CanvasScript.Failure
import CanvasScript.Heap
import CanvasScript.Host
import CanvasScript.Settings
import CanvasScript.Value.Operators

namespace CanvasScript

abbrev Bindings := Std.HashMap String Value

structure State (σ : Type) where
  bindings : Bindings
  heap : Heap
  /-- The record that the variable `config` refers to at first. -/
  config : ObjectRef
  canvas : CanvasSettings
  /-- A call is refused when so many script functions are in progress. -/
  maxCallDepth : Nat
  depth : Nat
  units : Nat
  world : σ

inductive Stop where
  | interrupt (i : Interrupt)
  | outOfFuel

/-- An evaluation: its result or why there is none, and the state it leaves in either case. -/
def Action (σ α : Type) : Type := State σ → Except Stop α × State σ

namespace Action

variable {σ α β : Type}

@[always_inline, inline]
protected def pure (a : α) : Action σ α := fun s => (.ok a, s)

@[always_inline, inline]
protected def bind (x : Action σ α) (f : α → Action σ β) : Action σ β := fun s =>
  match x s with
  | (.ok a, s) => f a s
  | (.error e, s) => (.error e, s)

instance : Monad (Action σ) where
  pure := Action.pure
  bind := Action.bind

theorem pure_apply (a : α) (s : State σ) : (pure a : Action σ α) s = (.ok a, s) := rfl

theorem bind_apply (x : Action σ α) (f : α → Action σ β) (s : State σ) :
    (x >>= f) s = match x s with
      | (.ok a, s) => f a s
      | (.error e, s) => (.error e, s) := rfl

@[inline]
def outOfFuel : Action σ α := fun s => (.error .outOfFuel, s)

@[inline]
def interrupt (i : Interrupt) : Action σ α := fun s => (.error (.interrupt i), s)

@[inline]
def fail (line : Nat) (f : Failure) : Action σ α := interrupt (.error ⟨line, f⟩)

@[inline]
def ofExcept (line : Nat) : Except Failure α → Action σ α
  | .ok a => .pure a
  | .error f => .fail line f

@[inline]
def read (f : State σ → α) : Action σ α := fun s => (.ok (f s), s)

@[inline]
def modify (f : State σ → State σ) : Action σ Unit := fun s => (.ok (), f s)

@[inline]
def onHeap (f : Heap → α) : Action σ α := fun s => (.ok (f s.heap), s)

@[inline]
def setVariable (name : String) (v : Value) : Action σ Unit := fun s =>
  (.ok (), { s with bindings := s.bindings.insert name v })

def newArray (items : Array Value) : Action σ Value := fun s =>
  let (r, heap) := s.heap.newArray items
  (.ok (.array r), { s with heap := heap })

def newObject (fields : Fields Value) : Action σ Value := fun s =>
  let (r, heap) := s.heap.newObject fields
  (.ok (.object r), { s with heap := heap })

def ask (host : Host σ) (r : Request) : Action σ r.Reply := fun s =>
  let (reply, world) := host.answer r s.world
  (.ok reply, { s with world := world })

@[inline]
def loopBody (body : Action σ Unit) : Action σ Bool := fun s =>
  match body s with
  | (.ok (), s) => (.ok true, s)
  | (.error (.interrupt .continue_), s) => (.ok true, s)
  | (.error (.interrupt .break_), s) => (.ok false, s)
  | (.error e, s) => (.error e, s)

@[inline]
def attributed (line : Nat) (x : Action σ α) : Action σ α := fun s =>
  match x s with
  | (.error (.interrupt i), s) => (.error (.interrupt (i.attribute line)), s)
  | r => r

end Action

structure CustomFunction (σ : Type) where
  name : String
  suspends : Bool
  call : List Value → Action σ Value

structure Embedding (σ : Type) where
  host : Host σ
  customs : List (CustomFunction σ)

def Embedding.plain {σ : Type} (host : Host σ) : Embedding σ := ⟨host, []⟩

def Bindings.changes (before now : Bindings) : List (String × Value) :=
  let changed := now.toList.filter fun b =>
    match before[b.1]? with
    | some v => !v.strictEq b.2
    | none => true
  changed.mergeSort fun a b => decide (a.1 ≤ b.1)

def Bindings.names (bs : Bindings) : List String :=
  (bs.toList.map (·.1)).mergeSort fun a b => decide (a ≤ b)

end CanvasScript
