import CanvasScript.State

namespace CanvasScript

/-- The groups of host functions, in the order in which they are installed. -/
inductive Provider where
  | canvas
  | math
  | console
  | system
  | fs
  | shell
deriving DecidableEq, Repr

namespace Provider

def name : Provider → String
  | canvas => "canvas" | math => "math" | console => "console" | system => "system"
  | fs => "fs" | shell => "shell"

def standard : List Provider := [canvas, math, console, system, fs, shell]

def ofName? (s : String) : Option Provider := standard.find? (·.name == s)

def enabled (settings : Settings) : Provider → Bool
  | fs => settings.enableFilesystem
  | shell => settings.enableShell
  | _ => true

def globals : Provider → List Builtin
  | canvas => [.rect, .pixel, .clear]
  | system => [.exit, .wait]
  | _ => []

def members : Provider → List Builtin
  | math => [.random, .round, .floor, .ceil, .abs, .sqrt, .pow]
  | console => [.log, .warn, .error, .clearConsole]
  | fs => [.readFile, .writeFile, .readDir]
  | shell => [.exec]
  | _ => []

end Provider

def nativeFields (bs : List Builtin) : Fields Value :=
  .ofList (bs.map fun b => (b.name, .native (.builtin b)))

structure Namespace where
  bindings : Bindings
  heap : Heap

namespace Namespace

def empty : Namespace := ⟨∅, .empty⟩

def bind (ns : Namespace) (name : String) (v : Value) : Namespace :=
  { ns with bindings := ns.bindings.insert name v }

def bindObject (ns : Namespace) (name : String) (fields : Fields Value) : Namespace :=
  let (r, heap) := ns.heap.newObject fields
  ⟨ns.bindings.insert name (.object r), heap⟩

def install (ns : Namespace) (p : Provider) : Namespace :=
  let ns := p.globals.foldl (fun ns b => ns.bind b.name (.native (.builtin b))) ns
  if p.members.isEmpty then ns else ns.bindObject p.name (nativeFields p.members)

def installAll (ns : Namespace) (ps : List Provider) (settings : Settings) : Namespace :=
  (ps.filter (Provider.enabled settings)).foldl install ns

end Namespace

def Config.fields (c : Config) : Fields Value :=
  .ofList [("version", .text c.version), ("editor", .text c.editor), ("autosave", .bool c.autosave)]

def bindCustoms {σ : Type} (slot : Nat) :
    List (CustomFunction σ) → Namespace → Namespace
  | [], ns => ns
  | c :: cs, ns =>
    bindCustoms (slot + 1) cs (ns.bind c.name (.native (.custom slot c.name c.suspends)))

def State.initial {σ : Type} (env : Embedding σ) (settings : Settings) (world : σ) : State σ :=
  let (config, heap) := Heap.empty.newObject settings.config.fields
  let ns : Namespace := ⟨(∅ : Bindings).insert "config" (.object config), heap⟩
  let ns := bindCustoms 0 env.customs (ns.installAll Provider.standard settings)
  { bindings := ns.bindings
    heap := ns.heap
    config := config
    canvas := settings.canvas
    maxCallDepth := settings.maxCallDepth
    depth := 0
    units := 0
    world := world }

end CanvasScript
