import CanvasScript.Proofs.Contents
import CanvasScript.Run

namespace CanvasScript

variable {σ α β : Type}

structure State.Holds (V : Value → Prop) (J : σ → Prop) (s : State σ) : Prop where
  bindings : ∀ (name : String) v, s.bindings[name]? = some v → V v
  heap : s.heap.Every V
  world : J s.world

def Ends (Q : α → Prop) (S : Stop → Prop) : Except Stop α → Prop
  | .ok a => Q a
  | .error e => S e

def Stop.Within (V : Value → Prop) (W : Signal → Prop) : Stop → Prop
  | .interrupt (.returned v) => W .returned ∧ V v
  | .interrupt .break_ => W .break_
  | .interrupt .continue_ => W .continue_
  | _ => True

theorem Stop.Within.mono {V : Value → Prop} {W W' : Signal → Prop} (h : ∀ sig, W sig → W' sig) :
    ∀ {e : Stop}, e.Within V W → e.Within V W'
  | .interrupt (.returned _), he => ⟨h _ he.1, he.2⟩
  | .interrupt .break_, he => h _ he
  | .interrupt .continue_, he => h _ he
  | .interrupt .exit, _ => trivial
  | .interrupt (.error _), _ => trivial
  | .outOfFuel, _ => trivial

theorem State.Holds.insert {V : Value → Prop} {J : σ → Prop} {s : State σ} (hs : s.Holds V J)
    (name : String) {v : Value} (hv : V v) :
    { s with bindings := s.bindings.insert name v }.Holds V J := by
  refine ⟨fun x w hw => ?_, hs.heap, hs.world⟩
  rw [Std.HashMap.getElem?_insert] at hw
  split at hw
  · cases hw
    exact hv
  · exact hs.bindings x w hw

theorem State.Holds.withHeap {V : Value → Prop} {J : σ → Prop} {s : State σ} (hs : s.Holds V J)
    {h : Heap} (hh : h.Every V) : { s with heap := h }.Holds V J :=
  ⟨hs.bindings, hh, hs.world⟩

namespace Action

def Keeps (V : Value → Prop) (J : σ → Prop) (Q : α → Prop) (S : Stop → Prop) (x : Action σ α) :
    Prop :=
  ∀ s, s.Holds V J → (x s).2.Holds V J ∧ Ends Q S (x s).1

namespace Keeps

variable {V : Value → Prop} {J : σ → Prop} {Q : α → Prop} {R : β → Prop} {S S' : Stop → Prop}

theorem pure {a : α} (h : Q a) : Keeps V J Q S (Pure.pure a : Action σ α) :=
  fun _ hs => ⟨hs, h⟩

theorem bind {x : Action σ α} {f : α → Action σ β} (hx : Keeps V J Q S x)
    (hf : ∀ a, Q a → Keeps V J R S (f a)) : Keeps V J R S (x >>= f) := by
  intro s hs
  have h := hx s hs
  rw [bind_apply]
  rcases hr : x s with ⟨r, t⟩
  rw [hr] at h
  cases r with
  | ok a => exact hf a h.2 t h.1
  | error e => exact ⟨h.1, h.2⟩

theorem mono {Q' : α → Prop} {x : Action σ α} (hx : Keeps V J Q S x) (hQ : ∀ a, Q a → Q' a)
    (hS : ∀ e, S e → S' e) : Keeps V J Q' S' x := by
  intro s hs
  have h := hx s hs
  refine ⟨h.1, ?_⟩
  cases hr : (x s).1 with
  | ok a => exact hQ a (by simpa [hr, Ends] using h.2)
  | error e => exact hS e (by simpa [hr, Ends] using h.2)

theorem stops {W : Signal → Prop} {W' : Signal → Prop} {x : Action σ α}
    (hx : Keeps V J Q (Stop.Within V W) x) (h : ∀ sig, W sig → W' sig) :
    Keeps V J Q (Stop.Within V W') x :=
  hx.mono (fun _ => id) (fun _ => Stop.Within.mono h)

theorem outOfFuel (h : S .outOfFuel) : Keeps V J Q S (Action.outOfFuel : Action σ α) :=
  fun _ hs => ⟨hs, h⟩

theorem interrupt {i : Interrupt} (h : S (.interrupt i)) :
    Keeps V J Q S (Action.interrupt i : Action σ α) :=
  fun _ hs => ⟨hs, h⟩

theorem onHeap {f : Heap → α} (h : ∀ heap, Q (f heap)) :
    Keeps V J Q S (Action.onHeap f : Action σ α) :=
  fun s hs => ⟨hs, h s.heap⟩

theorem setVariable {name : String} {v : Value} (hv : V v) :
    Keeps V J (fun _ => True) S (Action.setVariable name v : Action σ Unit) :=
  fun _ hs => ⟨hs.insert name hv, trivial⟩

theorem newArray (hV : Value.OnlyFunctions V) {items : Array Value} (hi : ∀ v ∈ items, V v) :
    Keeps V J V S (Action.newArray items : Action σ Value) :=
  fun _ hs => ⟨hs.withHeap (hs.heap.newArray hi), hV.data _ rfl⟩

theorem newObject (hV : Value.OnlyFunctions V) {fields : Fields Value}
    (hf : ∀ e ∈ fields.entries, V e.2) :
    Keeps V J V S (Action.newObject fields : Action σ Value) :=
  fun _ hs => ⟨hs.withHeap (hs.heap.newObject hf), hV.data _ rfl⟩

theorem ask {host : Host σ} {r : Request} (h : ∀ w, J w → J (host.answer r w).2) :
    Keeps V J (fun _ => True) S (Action.ask host r) :=
  fun s hs => ⟨⟨hs.bindings, hs.heap, h s.world hs.world⟩, trivial⟩

theorem ofExcept {line : Nat} {r : Except Failure α} (hQ : ∀ a, r = .ok a → Q a)
    (hS : ∀ e, S (.interrupt (.error e))) :
    Keeps V J Q S (Action.ofExcept line r : Action σ α) := by
  cases r with
  | ok a => exact pure (hQ a rfl)
  | error f => exact interrupt (hS _)

variable {W : Signal → Prop}

theorem attributed {line : Nat} {x : Action σ α} (hx : Keeps V J Q (Stop.Within V W) x) :
    Keeps V J Q (Stop.Within V W) (Action.attributed line x) := by
  intro s hs
  have h := hx s hs
  unfold Action.attributed
  rcases hr : x s with ⟨r, t⟩
  rw [hr] at h
  match r, h with
  | .ok a, h => exact h
  | .error .outOfFuel, h => exact h
  | .error (.interrupt (.returned v)), h => exact h
  | .error (.interrupt .break_), h => exact h
  | .error (.interrupt .continue_), h => exact h
  | .error (.interrupt .exit), h => exact h
  | .error (.interrupt (.error e)), h => exact ⟨h.1, trivial⟩

theorem loopBody {W' : Signal → Prop} {body : Action σ Unit}
    (hb : Keeps V J (fun _ => True) (Stop.Within V W) body) (h : W .returned → W' .returned) :
    Keeps V J (fun _ => True) (Stop.Within V W') (Action.loopBody body) := by
  intro s hs
  have hk := hb s hs
  unfold Action.loopBody
  rcases hr : body s with ⟨r, t⟩
  rw [hr] at hk
  match r, hk with
  | .ok (), hk => exact ⟨hk.1, trivial⟩
  | .error .outOfFuel, hk => exact hk
  | .error (.interrupt (.returned v)), hk => exact ⟨hk.1, h hk.2.1, hk.2.2⟩
  | .error (.interrupt .break_), hk => exact ⟨hk.1, trivial⟩
  | .error (.interrupt .continue_), hk => exact ⟨hk.1, trivial⟩
  | .error (.interrupt .exit), hk => exact hk
  | .error (.interrupt (.error e)), hk => exact hk

theorem variable_ {name : String} {line : Nat} :
    Keeps V J V (Stop.Within V W) (Action.variable_ name line : Action σ Value) := by
  intro s hs
  unfold Action.variable_
  cases hv : s.bindings[name]? with
  | none => exact ⟨hs, trivial⟩
  | some v => exact ⟨hs, hs.bindings name v hv⟩

theorem readPlace (hV : Value.OnlyFunctions V) {p : Place} {line : Nat} :
    Keeps V J V (Stop.Within V W) (Action.readPlace p line : Action σ Value) := by
  intro s hs
  match p with
  | .variable name => exact variable_ s hs
  | .member owner property =>
    exact ofExcept (fun v hv => Place.readMember_every hV hs.heap hv) (fun _ => trivial) s hs
  | .index owner index =>
    exact ofExcept (fun v hv => Place.readIndex_every hV hs.heap hv) (fun _ => trivial) s hs

theorem edit (hV : Value.OnlyFunctions V) {line : Nat} {find : Heap → Except Failure Place.Edit}
    (h : ∀ heap e, find heap = .ok e → e.Every V) :
    Keeps V J (fun _ => True) (Stop.Within V W) (Action.edit line find : Action σ Unit) := by
  intro s hs
  unfold Action.edit
  cases he : find s.heap with
  | ok e => exact ⟨hs.withHeap (Place.Edit.apply_every hV hs.heap (h s.heap e he)), trivial⟩
  | error f => exact ⟨hs, trivial⟩

theorem writePlace (hV : Value.OnlyFunctions V) {p : Place} {v : Value} {line : Nat} (hv : V v) :
    Keeps V J (fun _ => True) (Stop.Within V W) (Action.writePlace p v line : Action σ Unit) := by
  match p with
  | .variable name => exact setVariable hv
  | .member owner property => exact edit hV fun _ _ he => Place.setMember_every hv he
  | .index owner index => exact edit hV fun _ _ he => Place.setIndex_every hv he

theorem callMethod (hV : Value.OnlyFunctions V) {m : Method} {receiver : Value}
    {args : List Value} {line : Nat} (ha : ∀ v ∈ args, V v) :
    Keeps V J V (Stop.Within V W) (Action.callMethod m receiver args line : Action σ Value) := by
  intro s hs
  unfold Action.callMethod
  cases hb : m.bind receiver with
  | ok bound =>
    have h := Method.Bound.call_every hV hs.heap ha bound
    exact ⟨hs.withHeap h.2, h.1⟩
  | error f => exact ⟨hs, trivial⟩

end Keeps

end Action

end CanvasScript
