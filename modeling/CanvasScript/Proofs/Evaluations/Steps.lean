import CanvasScript.Proofs.Evaluations

namespace CanvasScript

variable {σ α β : Type}

def State.Beside (s t : State σ) : Prop :=
  ∃ bindings heap world, t = { s with bindings := bindings, heap := heap, world := world }

namespace State.Beside

theorem refl (s : State σ) : s.Beside s := ⟨s.bindings, s.heap, s.world, rfl⟩

theorem trans {s t u : State σ} (hst : s.Beside t) (htu : t.Beside u) : s.Beside u := by
  obtain ⟨_, _, _, rfl⟩ := hst
  obtain ⟨_, _, _, rfl⟩ := htu
  exact ⟨_, _, _, rfl⟩

end State.Beside

namespace Action

def Simple (x : Action σ α) : Prop :=
  ∀ s, s.Beside (x s).2 ∧ (x s).1 ≠ .error .outOfFuel

namespace Simple

theorem pure (a : α) : Simple (Pure.pure a : Action σ α) := fun s => ⟨.refl s, nofun⟩

theorem interrupt (i : Interrupt) : Simple (Action.interrupt i : Action σ α) :=
  fun s => ⟨.refl s, nofun⟩

theorem onHeap (f : Heap → α) : Simple (Action.onHeap f : Action σ α) :=
  fun s => ⟨.refl s, nofun⟩

theorem read (f : State σ → α) : Simple (Action.read f) := fun s => ⟨.refl s, nofun⟩

theorem setVariable (name : String) (v : Value) :
    Simple (Action.setVariable name v : Action σ Unit) := fun _ => ⟨⟨_, _, _, rfl⟩, nofun⟩

theorem newArray (items : Array Value) : Simple (Action.newArray items : Action σ Value) :=
  fun _ => ⟨⟨_, _, _, rfl⟩, nofun⟩

theorem newObject (fields : Fields Value) : Simple (Action.newObject fields : Action σ Value) :=
  fun _ => ⟨⟨_, _, _, rfl⟩, nofun⟩

theorem ask (host : Host σ) (r : Request) : Simple (Action.ask host r) :=
  fun _ => ⟨⟨_, _, _, rfl⟩, nofun⟩

theorem ofExcept (line : Nat) (r : Except Failure α) :
    Simple (Action.ofExcept line r : Action σ α) := by
  cases r with
  | ok a => exact .pure a
  | error f => exact .interrupt _

theorem bind {x : Action σ α} {f : α → Action σ β} (hx : Simple x) (hf : ∀ a, Simple (f a)) :
    Simple (x >>= f) := by
  intro s
  have h := hx s
  rw [bind_apply]
  rcases hr : x s with ⟨_ | a, t⟩
  · rw [hr] at h
    exact ⟨h.1, fun he => h.2 (by cases he; rfl)⟩
  · rw [hr] at h
    exact ⟨h.1.trans (hf a t).1, (hf a t).2⟩

theorem attributed {x : Action σ α} (hx : Simple x) (line : Nat) :
    Simple (Action.attributed line x) := by
  intro s
  have h := hx s
  unfold Action.attributed
  rcases hr : x s with ⟨r, t⟩
  rw [hr] at h
  match r, h with
  | .ok _, h => exact h
  | .error (.interrupt _), h => exact ⟨h.1, nofun⟩
  | .error .outOfFuel, h => exact h

theorem update (op : UpdateOp) (name : String) :
    Simple (Evaluator.update op name : Action σ Value) := fun _ => ⟨⟨_, _, _, rfl⟩, nofun⟩

theorem variable_ (name : String) (line : Nat) :
    Simple (Action.variable_ name line : Action σ Value) := by
  intro s
  unfold Action.variable_
  split <;> exact ⟨.refl s, nofun⟩

theorem readPlace (p : Place) (line : Nat) : Simple (Action.readPlace p line : Action σ Value) := by
  intro s
  match p with
  | .variable name => exact variable_ name line s
  | .member owner property => exact ofExcept line (Place.readMember s.heap owner property) s
  | .index owner index => exact ofExcept line (Place.readIndex s.heap owner index) s

theorem edit (line : Nat) (find : Heap → Except Failure Place.Edit) :
    Simple (Action.edit line find : Action σ Unit) := by
  intro s
  unfold Action.edit
  split
  · exact ⟨⟨_, _, _, rfl⟩, nofun⟩
  · exact ⟨.refl s, nofun⟩

theorem writePlace (p : Place) (v : Value) (line : Nat) :
    Simple (Action.writePlace p v line : Action σ Unit) := by
  match p with
  | .variable name => exact setVariable name v
  | .member _ _ | .index _ _ => exact edit line _

theorem callMethod (m : Method) (receiver : Value) (args : List Value) (line : Nat) :
    Simple (Action.callMethod m receiver args line : Action σ Value) := by
  intro s
  unfold Action.callMethod
  split
  · exact ⟨⟨_, _, _, rfl⟩, nofun⟩
  · exact ⟨.refl s, nofun⟩

end Simple

end Action

namespace Builtin

open CanvasScript.Action (Simple)

structure MadeOf (host : Host σ) (P : (α : Type) → Action σ α → Prop) : Prop where
  pure : ∀ {α : Type} (a : α), P α (Pure.pure a)
  bind : ∀ {α β : Type} {x : Action σ α} {f : α → Action σ β}, P α x → (∀ a, P β (f a)) →
    P β (x >>= f)
  onHeap : ∀ {α : Type} (f : Heap → α), P α (Action.onHeap f)
  read : ∀ {α : Type} (f : State σ → α), P α (Action.read f)
  newArray : ∀ items, P Value (Action.newArray items)
  entry : ∀ d : DirEntry, P Value (Action.newObject d.fields)
  ask : ∀ r, P (Request.Reply r) (Action.ask host r)
  fail : ∀ {α : Type} f, P α (Action.fail 0 f)
  exit : ∀ {α : Type}, P α (Action.interrupt .exit)

namespace MadeOf

variable {host : Host σ} {P : (α : Type) → Action σ α → Prop} (h : MadeOf host P)
include h

theorem request (r : Request) : P Value (request host r) :=
  h.bind (h.ask r) fun _ => h.pure _

theorem granted (b : Builtin) (r : Except String α) : P α (granted b r) := by
  cases r with
  | ok a => exact h.pure a
  | error reason => exact h.fail _

theorem entryValues (ds : List DirEntry) : P (List Value) (entryValues ds) := by
  induction ds with
  | nil => exact h.pure []
  | cons d ds ih => exact h.bind (h.entry d) fun _ => h.bind ih fun _ => h.pure _

theorem call (b : Builtin) (args : List Value) : P Value (b.call host args) := by
  cases b with
  | rect | pixel | log | warn | error | wait => exact h.bind (h.onHeap _) fun _ => h.request _
  | clear => exact h.bind (h.read _) fun _ => h.request _
  | clearConsole => exact h.request _
  | random => exact h.bind (h.ask _) fun _ => h.pure _
  | round | floor | ceil | abs | sqrt => exact h.bind (h.onHeap _) fun _ => h.pure _
  | pow => exact h.bind (h.onHeap _) fun _ => h.bind (h.onHeap _) fun _ => h.pure _
  | exit => exact h.exit
  | readFile | exec =>
    refine h.bind (h.onHeap _) fun _ => h.bind (h.ask _) fun reply => ?_
    exact h.bind (h.granted _ reply) fun _ => h.pure _
  | writeFile =>
    refine h.bind (h.onHeap _) fun _ => h.bind (h.onHeap _) fun _ => ?_
    exact h.bind (h.ask _) fun reply => h.bind (h.granted _ reply) fun _ => h.pure _
  | readDir =>
    refine h.bind (h.onHeap _) fun _ => h.bind (h.ask _) fun reply => ?_
    exact h.bind (h.granted _ reply) fun entries => h.bind (h.entryValues entries) fun _ =>
      h.newArray _

end MadeOf

theorem madeOf_simple (host : Host σ) : MadeOf host fun _ => Simple where
  pure := .pure
  bind := .bind
  onHeap := .onHeap
  read := .read
  newArray := .newArray
  entry d := .newObject d.fields
  ask := .ask host
  fail _ := .interrupt _
  exit := .interrupt .exit

theorem call_simple (host : Host σ) (b : Builtin) (args : List Value) :
    Simple (b.call host args) :=
  (madeOf_simple host).call b args

end Builtin

variable {env : Embedding σ}

theorem Step.run_cases {motive : ∀ {α : Type}, Action σ α → Prop}
    (simple : ∀ {α : Type} (x : Action σ α), x.Simple → motive x)
    (custom : ∀ c ∈ env.customs, ∀ args line, motive (Action.attributed line (c.call args)))
    (x : Step env α) : motive x.run := by
  cases x with
  | interrupt i => exact simple _ (.interrupt i)
  | onHeap f => exact simple _ (.onHeap f)
  | setVariable name v => exact simple _ (.setVariable name v)
  | update op name => exact simple _ (.update op name)
  | readPlace p line => exact simple _ (.readPlace p line)
  | writePlace p v line => exact simple _ (.writePlace p v line)
  | newArray items => exact simple _ (.newArray items)
  | newObject fields => exact simple _ (.newObject fields)
  | callMethod m receiver args line => exact simple _ (.callMethod m receiver args line)
  | builtin b args line => exact simple _ ((Builtin.call_simple env.host b args).attributed line)
  | custom c hc args line => exact custom c hc args line

theorem Step.run_simple (h : env.customs = []) (x : Step env α) : x.run.Simple :=
  x.run_cases (motive := Action.Simple) (fun _ => id) fun c hc => by simp [h] at hc

end CanvasScript
