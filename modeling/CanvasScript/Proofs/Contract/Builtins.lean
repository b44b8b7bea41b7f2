import CanvasScript.Proofs.Contract

namespace CanvasScript

open CanvasScript.Action

def Request.askers : Request → List Builtin
  | .output _ => [.log, .warn, .error]
  | .clearConsole => [.clearConsole]
  | .canvas _ => [.rect, .pixel, .clear]
  | .wait _ => [.wait]
  | .random => [.random]
  | .readFile _ => [.readFile]
  | .writeFile _ _ => [.writeFile]
  | .readDir _ => [.readDir]
  | .exec _ => [.exec]

namespace Builtin

variable {σ : Type} {host : Host σ} {V : Value → Prop} {J : σ → Prop} {W : Signal → Prop}
  (hV : Value.OnlyFunctions V)

theorem granted_keeps {α : Type} (b : Builtin) (r : Except String α) :
    Keeps V J (fun _ => True) (Stop.Within V W) (granted b r : Action σ α) := by
  cases r with
  | ok a => exact .pure trivial
  | error reason => exact .interrupt trivial

theorem heap_keeps {α : Type} (f : Heap → α) :
    Keeps V J (fun _ => True) (Stop.Within V W) (Action.onHeap f : Action σ α) :=
  .onHeap fun _ => trivial

include hV

theorem request_keeps {r : Request} (hr : ∀ w, J w → J (host.answer r w).2) :
    Keeps V J V (Stop.Within V W) (request host r) :=
  (Keeps.ask hr).bind fun _ _ => .pure (hV.data _ rfl)

theorem math_keeps (f : Float → Float) (args : List Value) :
    Keeps V J V (Stop.Within V W) (math f args : Action σ Value) :=
  (heap_keeps _).bind fun _ _ => .pure (hV.data _ rfl)

theorem print_keeps (before after : String) (args : List Value)
    (hr : ∀ chunk w, J w → J (host.answer (.output chunk) w).2) :
    Keeps V J V (Stop.Within V W) (print host before after args) :=
  (heap_keeps _).bind fun _ _ => request_keeps hV (hr _)

theorem entryValues_keeps (ds : List DirEntry) :
    Keeps V J (fun vs => ∀ v ∈ vs, V v) (Stop.Within V W) (entryValues ds : Action σ _) := by
  have hf (d : DirEntry) : ∀ e ∈ d.fields.entries, V e.2 := by
    refine Fields.forall_ofList fun e he => ?_
    simp only [List.mem_cons, List.not_mem_nil, or_false] at he
    rcases he with rfl | rfl <;> exact hV.data _ rfl
  induction ds with
  | nil => exact .pure (by simp)
  | cons d ds ih =>
    refine (Keeps.newObject hV (hf d)).bind fun v hv => ih.bind fun vs hvs => .pure ?_
    simpa [hv] using hvs

theorem call_keeps (b : Builtin) (args : List Value)
    (hr : ∀ r : Request, b ∈ r.askers → ∀ w, J w → J (host.answer r w).2) :
    Keeps V J V (Stop.Within V W) (b.call host args) := by
  have ask (r : Request) (hb : b ∈ r.askers) :
      Keeps V J (fun _ => True) (Stop.Within V W) (Action.ask host r) := .ask (hr r hb)
  have canvas (command : CanvasCommand) (hb : b ∈ (Request.canvas command).askers) :
      Keeps V J V (Stop.Within V W) (request host (.canvas command)) :=
    request_keeps hV (hr _ hb)
  cases b with
  | rect => exact (heap_keeps _).bind fun command _ => canvas command (by simp [Request.askers])
  | pixel => exact (heap_keeps _).bind fun command _ => canvas command (by simp [Request.askers])
  | clear =>
    have read : Keeps V J (fun _ => True) (Stop.Within V W)
        (Action.read (·.canvas.background) : Action σ Color) := fun s hs => ⟨hs, trivial⟩
    exact read.bind fun background _ => canvas (.clear background) (by simp [Request.askers])
  | random => exact (ask .random (by simp [Request.askers])).bind fun _ _ => .pure (hV.data _ rfl)
  | round => exact math_keeps hV _ args
  | floor => exact math_keeps hV _ args
  | ceil => exact math_keeps hV _ args
  | abs => exact math_keeps hV _ args
  | sqrt => exact math_keeps hV _ args
  | pow =>
    exact (heap_keeps _).bind fun _ _ => (heap_keeps _).bind fun _ _ => .pure (hV.data _ rfl)
  | log => exact print_keeps hV _ _ args fun chunk => hr (.output chunk) (by simp [Request.askers])
  | warn => exact print_keeps hV _ _ args fun chunk => hr (.output chunk) (by simp [Request.askers])
  | error =>
    exact print_keeps hV _ _ args fun chunk => hr (.output chunk) (by simp [Request.askers])
  | clearConsole => exact request_keeps hV (hr .clearConsole (by simp [Request.askers]))
  | exit => exact .interrupt trivial
  | wait =>
    exact (heap_keeps _).bind fun ms _ =>
      request_keeps hV (hr (.wait ms) (by simp [Request.askers]))
  | readFile =>
    refine (heap_keeps _).bind fun path _ => ?_
    refine (ask (.readFile path) (by simp [Request.askers])).bind fun reply _ => ?_
    exact (granted_keeps _ reply).bind fun text _ => .pure (hV.data _ rfl)
  | writeFile =>
    refine (heap_keeps _).bind fun path _ => (heap_keeps _).bind fun contents _ => ?_
    refine (ask (.writeFile path contents) (by simp [Request.askers])).bind fun reply _ => ?_
    exact (granted_keeps _ reply).bind fun _ _ => .pure (hV.data _ rfl)
  | readDir =>
    refine (heap_keeps _).bind fun path _ => ?_
    refine (ask (.readDir path) (by simp [Request.askers])).bind fun reply _ => ?_
    refine (granted_keeps _ reply).bind fun entries _ => ?_
    exact (entryValues_keeps hV entries).bind fun vs hvs =>
      .newArray hV fun v hv => hvs v (List.mem_toArray.1 hv)
  | exec =>
    refine (heap_keeps _).bind fun command _ => ?_
    refine (ask (.exec command) (by simp [Request.askers])).bind fun reply _ => ?_
    exact (granted_keeps _ reply).bind fun text _ => .pure (hV.data _ rfl)

end Builtin

end CanvasScript
