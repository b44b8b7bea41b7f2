import CanvasScript.Console
import CanvasScript.State
import CanvasScript.Value.Methods

namespace CanvasScript

def roundHalfUp (x : Float) : Float :=
  let r := x.round
  if x - r == 0.5 then r + 1.0 else r

def EntryKind.value (k : EntryKind) : Value := .text k.name

def DirEntry.fields (d : DirEntry) : Fields Value :=
  .ofList [("entry", .text d.entry), ("type", d.kind.value)]

namespace Builtin

open Value (arg)

variable {σ : Type}

def number (args : List Value) (i : Nat) (h : Heap) : Float := (arg args i).toNumber h

def display (args : List Value) (i : Nat) (h : Heap) : String := (arg args i).display h

def color (args : List Value) (i : Nat) (h : Heap) : Color :=
  ⟨number args i h, number args (i + 1) h, number args (i + 2) h⟩

def request (host : Host σ) (r : Request) : Action σ Value := do
  let _ ← Action.ask host r
  return .undefined

def granted {α : Type} (b : Builtin) : Except String α → Action σ α
  | .ok a => .pure a
  | .error reason => Action.fail 0 (.host b.name reason)

def math (f : Float → Float) (args : List Value) : Action σ Value := do
  let x ← Action.onHeap (number args 0)
  return .number (f x)

def print (host : Host σ) (before after : String) (args : List Value) : Action σ Value := do
  let line ← Action.onHeap (Console.formatArgs · args)
  request host (.output (before ++ line ++ after ++ "\n"))

def entryValues : List DirEntry → Action σ (List Value)
  | [] => return []
  | d :: ds => do
    let v ← Action.newObject d.fields
    let vs ← entryValues ds
    return v :: vs

def call (host : Host σ) (b : Builtin) (args : List Value) : Action σ Value :=
  match b with
  | rect => do
    let command ← Action.onHeap fun h =>
      .rect (number args 0 h) (number args 1 h) (number args 2 h) (number args 3 h) (color args 4 h)
    request host (.canvas command)
  | pixel => do
    let command ← Action.onHeap fun h => .pixel (number args 0 h) (number args 1 h) (color args 2 h)
    request host (.canvas command)
  | clear => do
    let background ← Action.read (·.canvas.background)
    request host (.canvas (.clear background))
  | random => do
    let x ← Action.ask host .random
    return .number x
  | round => math roundHalfUp args
  | floor => math Float.floor args
  | ceil => math Float.ceil args
  | abs => math Float.abs args
  | sqrt => math Float.sqrt args
  | pow => do
    let x ← Action.onHeap (number args 0)
    let y ← Action.onHeap (number args 1)
    return .number (Float.pow x y)
  | log => print host "" "" args
  | warn => print host Console.yellow Console.plainColor args
  | error => print host Console.red Console.plainColor args
  | clearConsole => request host .clearConsole
  | exit => Action.interrupt .exit
  | wait => do
    let ms ← Action.onHeap (number args 0)
    request host (.wait ms)
  | readFile => do
    let path ← Action.onHeap (display args 0)
    let text ← granted readFile (← Action.ask host (.readFile path))
    return .text text
  | writeFile => do
    let path ← Action.onHeap (display args 0)
    let contents ← Action.onHeap (display args 1)
    granted writeFile (← Action.ask host (.writeFile path contents))
    return .undefined
  | readDir => do
    let path ← Action.onHeap (display args 0)
    let entries ← granted readDir (← Action.ask host (.readDir path))
    let values ← entryValues entries
    Action.newArray values.toArray
  | exec => do
    let command ← Action.onHeap (display args 0)
    let text ← granted exec (← Action.ask host (.exec command))
    return .text text

end Builtin

end CanvasScript
