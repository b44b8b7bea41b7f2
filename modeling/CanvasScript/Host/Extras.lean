import CanvasScript.Builtin
import CanvasScript.Host.Recorder

namespace CanvasScript.Extras

open Value (arg)

variable {σ : Type}

def remember : CustomFunction σ :=
  ⟨"remember", false, fun args => do
    Action.setVariable "remembered" (arg args 0)
    return .number (Number.ofNat args.length)⟩

def fail : CustomFunction σ :=
  ⟨"fail", false, fun args => do
    Action.fail 0 (.custom (← Action.onHeap (arg args 0).display))⟩

def failAt : CustomFunction σ :=
  ⟨"failAt", false, fun args => do
    let line ← Action.onHeap (arg args 0).toNumber
    Action.fail (Number.toCount line) (.custom (← Action.onHeap (arg args 1).display))⟩

def channel : Value → Float
  | .number x => x
  | _ => Number.ofNat 0

def setBackground : CustomFunction σ :=
  ⟨"setBackground", false, fun args => do
    let background := ⟨channel (arg args 0), channel (arg args 1), channel (arg args 2)⟩
    Action.modify fun s => { s with canvas := { s.canvas with background := background } }
    return .undefined⟩

def setDepth : CustomFunction σ :=
  ⟨"setDepth", false, fun args => do
    let depth ← Action.onHeap (arg args 0).toNumber
    Action.modify fun s => { s with maxCallDepth := Number.toCount depth }
    return .undefined⟩

def del : CustomFunction σ :=
  ⟨"del", false, fun args => do
    let name ← Action.onHeap (arg args 0).display
    let found ← Action.read (·.bindings.contains name)
    Action.modify fun s => { s with bindings := s.bindings.erase name }
    return .bool found⟩

def signal : CustomFunction σ :=
  ⟨"signal", false, fun args =>
    match arg args 0 with
    | .text "break" => Action.interrupt .break_
    | .text "continue" => Action.interrupt .continue_
    | .text "exit" => Action.interrupt .exit
    | _ => Action.interrupt (.returned (arg args 1))⟩

def later (host : Host σ) : CustomFunction σ :=
  ⟨"later", true, fun args => do
    Action.setVariable "requested" (arg args 0)
    let text ← Action.onHeap (arg args 0).display
    let _ ← Action.ask host (.wait 25.0)
    return .text ("done:" ++ text)⟩

def laterFail : CustomFunction σ :=
  ⟨"laterFail", true, fun args => do
    Action.fail 0 (.custom (← Action.onHeap (arg args 0).display))⟩

def rect : CustomFunction σ :=
  ⟨"rect", false, fun args => return .text ("mine" ++ toString args.length)⟩

def all (host : Host σ) : List (CustomFunction σ) :=
  [remember, fail, failAt, setBackground, setDepth, del, signal, later host, laterFail, rect]

def ofName? (host : Host σ) (name : String) : Option (CustomFunction σ) :=
  (all host).find? (·.name == name)

end CanvasScript.Extras
