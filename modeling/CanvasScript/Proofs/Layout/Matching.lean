import CanvasScript.Proofs.Layout.Values
import CanvasScript.Proofs.Parameters

namespace CanvasScript

variable {σ α β γ δ : Type}

structure State.Shifted (ρ : Renaming) (s t : State σ) : Prop where
  bindings : ∀ name : String, t.bindings[name]? = s.bindings[name]?.map (Value.moved ρ)
  heap : t.heap = s.heap.moved ρ
  rest : t = { s with bindings := t.bindings, heap := t.heap }

def Failure.unplaced : Failure → Failure
  | .marker source problems => .marker source (problems.map Diagnostic.unplaced)
  | f => f

inductive Stop.Alike (ρ : Renaming) : Stop → Stop → Prop
  | returned (v : Value) : Alike ρ (.interrupt (.returned v)) (.interrupt (.returned (v.moved ρ)))
  | break_ : Alike ρ (.interrupt .break_) (.interrupt .break_)
  | continue_ : Alike ρ (.interrupt .continue_) (.interrupt .continue_)
  | exit : Alike ρ (.interrupt .exit) (.interrupt .exit)
  | error {e f : RuntimeError} (h : e.failure.unplaced = f.failure.unplaced) :
    Alike ρ (.interrupt (.error e)) (.interrupt (.error f))
  | outOfFuel : Alike ρ .outOfFuel .outOfFuel

inductive Alike (ρ : Renaming) (g : α → β) : Except Stop α → Except Stop β → Prop
  | ok (a : α) : Alike ρ g (.ok a) (.ok (g a))
  | error {e f : Stop} (h : e.Alike ρ f) : Alike ρ g (.error e) (.error f)

namespace State.Shifted

variable {ρ : Renaming} {s t : State σ}

theorem world (h : s.Shifted ρ t) : t.world = s.world :=
  (congrArg State.world h.rest :)

theorem insert (h : s.Shifted ρ t) (name : String) (v : Value) :
    { s with bindings := s.bindings.insert name v }.Shifted ρ
      { t with bindings := t.bindings.insert name (v.moved ρ) } := by
  refine ⟨fun x => ?_, h.heap, congrArg (fun u : State σ => { u with
    bindings := t.bindings.insert name (v.moved ρ) }) h.rest⟩
  simp only [Std.HashMap.getElem?_insert, h.bindings]
  split <;> rfl

theorem withHeap (h : s.Shifted ρ t) (heap : Heap) :
    { s with heap := heap }.Shifted ρ { t with heap := heap.moved ρ } :=
  ⟨h.bindings, rfl, congrArg (fun u : State σ => { u with heap := heap.moved ρ }) h.rest⟩

theorem withBindings (h : s.Shifted ρ t) {bs bs' : Bindings}
    (hb : ∀ name : String, bs'[name]? = bs[name]?.map (Value.moved ρ)) (count : Nat → Nat) :
    { s with bindings := bs, depth := count s.depth }.Shifted ρ
      { t with bindings := bs', depth := count t.depth } :=
  ⟨hb, h.heap, congrArg (fun u : State σ => { u with
    bindings := bs', depth := count u.depth }) h.rest⟩

theorem update (h : s.Shifted ρ t) (f : State σ → State σ)
    (hb : ∀ u : State σ, (f u).bindings = u.bindings) (hh : ∀ u : State σ, (f u).heap = u.heap)
    (hf : ∀ (u : State σ) bindings heap, f { u with bindings := bindings, heap := heap } =
      { f u with bindings := bindings, heap := heap }) : (f s).Shifted ρ (f t) := by
  refine ⟨fun x => ?_, ?_, ?_⟩
  · rw [hb, hb]
    exact h.bindings x
  · rw [hh, hh]
    exact h.heap
  · rw [hb, hh, ← hf, ← h.rest]

end State.Shifted

namespace Action

def Matches (ρ : Renaming) (g : α → β) (x : Action σ α) (y : Action σ β) : Prop :=
  ∀ s t, s.Shifted ρ t → (x s).2.Shifted ρ (y t).2 ∧ Alike ρ g (x s).1 (y t).1

namespace Matches

variable {ρ : Renaming} {g : α → β} {g' : γ → δ}

theorem pure {a : α} {b : β} (h : b = g a) :
    Matches ρ g (Pure.pure a : Action σ α) (Pure.pure b) := by
  intro s t hs
  subst h
  exact ⟨hs, .ok a⟩

theorem bind {x : Action σ α} {y : Action σ β} {f : α → Action σ γ} {f' : β → Action σ δ}
    (hx : Matches ρ g x y) (hf : ∀ a, Matches ρ g' (f a) (f' (g a))) :
    Matches ρ g' (x >>= f) (y >>= f') := by
  intro s t hs
  have h := hx s t hs
  rw [bind_apply, bind_apply]
  rcases hr : x s with ⟨r, s'⟩
  rcases hq : y t with ⟨q, t'⟩
  rw [hr, hq] at h
  obtain ⟨hs', he⟩ := h
  cases he with
  | ok a => exact hf a s' t' hs'
  | error he => exact ⟨hs', .error he⟩

theorem outOfFuel : Matches ρ g (Action.outOfFuel : Action σ α) Action.outOfFuel :=
  fun _ _ hs => ⟨hs, .error .outOfFuel⟩

theorem interrupt {i j : Interrupt} (h : (Stop.interrupt i).Alike ρ (.interrupt j)) :
    Matches ρ g (Action.interrupt i : Action σ α) (Action.interrupt j) :=
  fun _ _ hs => ⟨hs, .error h⟩

theorem fail (line line' : Nat) {f f' : Failure} (h : f.unplaced = f'.unplaced) :
    Matches ρ g (Action.fail line f : Action σ α) (Action.fail line' f') :=
  interrupt (.error h)

theorem ofExcept (line line' : Nat) {r : Except Failure α} {q : Except Failure β}
    (h : q = r.map g) :
    Matches ρ g (Action.ofExcept line r : Action σ α) (Action.ofExcept line' q) := by
  subst h
  cases r with
  | ok a => exact pure rfl
  | error f => exact fail line line' rfl

theorem onHeap {f : Heap → α} {f' : Heap → β} (h : ∀ heap : Heap, f' (heap.moved ρ) = g (f heap)) :
    Matches ρ g (Action.onHeap f : Action σ α) (Action.onHeap f') := by
  intro s t hs
  refine ⟨hs, ?_⟩
  rw [Action.onHeap, Action.onHeap, hs.heap, h]
  exact .ok _

theorem setVariable (name : String) (v : Value) :
    Matches ρ id (Action.setVariable name v : Action σ Unit)
      (Action.setVariable name (v.moved ρ)) :=
  fun _ _ hs => ⟨hs.insert name v, .ok ()⟩

theorem newArray {items items' : Array Value} (h : items' = items.map (Value.moved ρ)) :
    Matches ρ (Value.moved ρ) (Action.newArray items : Action σ Value)
      (Action.newArray items') := by
  intro s t hs
  rw [h, Action.newArray, Action.newArray, hs.heap, Heap.newArray_moved]
  exact ⟨hs.withHeap _, .ok (Value.array _)⟩

theorem newObject {fields fields' : Fields Value} (h : fields' = fields.map (Value.moved ρ)) :
    Matches ρ (Value.moved ρ) (Action.newObject fields : Action σ Value)
      (Action.newObject fields') := by
  intro s t hs
  rw [h, Action.newObject, Action.newObject, hs.heap, Heap.newObject_moved]
  exact ⟨hs.withHeap _, .ok (Value.object _)⟩

theorem ask (host : Host σ) (r : Request) :
    Matches ρ id (Action.ask host r) (Action.ask host r) := by
  intro s t hs
  rw [Action.ask, Action.ask, hs.world]
  exact ⟨hs.update (fun u => { u with world := (host.answer r s.world).2 }) (fun _ => rfl)
    (fun _ => rfl) (fun _ _ _ => rfl), .ok _⟩

theorem modify {f : State σ → State σ}
    (h : ∀ s t : State σ, s.Shifted ρ t → (f s).Shifted ρ (f t)) :
    Matches ρ id (Action.modify f) (Action.modify f) :=
  fun s t hs => ⟨h s t hs, .ok ()⟩

theorem modifyRest {f : State σ → State σ} (hb : ∀ u : State σ, (f u).bindings = u.bindings)
    (hh : ∀ u : State σ, (f u).heap = u.heap)
    (hf : ∀ (u : State σ) bindings heap, f { u with bindings := bindings, heap := heap } =
      { f u with bindings := bindings, heap := heap }) :
    Matches ρ id (Action.modify f) (Action.modify f) :=
  modify fun _ _ hs => hs.update f hb hh hf

theorem read {f : State σ → α} (h : ∀ s t : State σ, s.Shifted ρ t → f t = f s) :
    Matches ρ id (Action.read f) (Action.read f) := by
  intro s t hs
  refine ⟨hs, ?_⟩
  rw [Action.read, Action.read, h s t hs]
  exact .ok _

theorem attributed (line line' : Nat) {x : Action σ α} {y : Action σ β} (h : Matches ρ g x y) :
    Matches ρ g (Action.attributed line x) (Action.attributed line' y) := by
  have blamed (e : RuntimeError) (k : Nat) : (e.attribute k).failure = e.failure := by
    rw [RuntimeError.attribute]
    split <;> rfl
  intro s t hs
  have hxy := h s t hs
  unfold Action.attributed
  rcases hr : x s with ⟨r, s'⟩
  rcases hq : y t with ⟨q, t'⟩
  rw [hr, hq] at hxy
  obtain ⟨hs', he⟩ := hxy
  refine ⟨?_, ?_⟩
  · cases he with
    | ok a => exact hs'
    | error he => cases he <;> exact hs'
  · cases he with
    | ok a => exact .ok a
    | error he =>
      cases he with
      | returned v => exact .error (.returned v)
      | break_ => exact .error .break_
      | continue_ => exact .error .continue_
      | exit => exact .error .exit
      | error he => exact .error (.error (by rw [blamed, blamed, he]))
      | outOfFuel => exact .error .outOfFuel

theorem loopBody {x y : Action σ Unit} (h : Matches ρ id x y) :
    Matches ρ id (Action.loopBody x) (Action.loopBody y) := by
  intro s t hs
  have hxy := h s t hs
  unfold Action.loopBody
  rcases hr : x s with ⟨r, s'⟩
  rcases hq : y t with ⟨q, t'⟩
  rw [hr, hq] at hxy
  obtain ⟨hs', he⟩ := hxy
  cases he with
  | ok a => exact ⟨hs', .ok true⟩
  | error he =>
    cases he with
    | returned v => exact ⟨hs', .error (.returned v)⟩
    | break_ => exact ⟨hs', .ok false⟩
    | continue_ => exact ⟨hs', .ok true⟩
    | exit => exact ⟨hs', .error .exit⟩
    | error he => exact ⟨hs', .error (.error he)⟩
    | outOfFuel => exact ⟨hs', .error .outOfFuel⟩

section Places

variable (line line' : Nat)

theorem variable_ (name : String) :
    Matches ρ (Value.moved ρ) (Action.variable_ name line : Action σ Value)
      (Action.variable_ name line') := by
  intro s t hs
  unfold Action.variable_
  rw [hs.bindings]
  cases s.bindings[name]? with
  | none => exact fail line line' rfl s t hs
  | some v => exact ⟨hs, .ok v⟩

theorem readPlace (p : Place) :
    Matches ρ (Value.moved ρ) (Action.readPlace p line : Action σ Value)
      (Action.readPlace (p.moved ρ) line') := by
  intro s t hs
  cases p with
  | «variable» name => exact variable_ line line' name s t hs
  | member owner property =>
    refine ofExcept line line' ?_ s t hs
    rw [hs.heap, Place.readMember_moved]
  | index owner i =>
    refine ofExcept line line' ?_ s t hs
    rw [hs.heap, Place.readIndex_moved]

theorem edit {find find' : Heap → Except Failure Place.Edit}
    (h : ∀ heap : Heap, find' (heap.moved ρ) = (find heap).map (Place.Edit.moved ρ)) :
    Matches ρ id (Action.edit line find : Action σ Unit) (Action.edit line' find') := by
  intro s t hs
  unfold Action.edit
  rw [hs.heap, h]
  cases find s.heap with
  | ok e =>
    refine ⟨?_, .ok ()⟩
    simp only [Except.map, Place.Edit.apply_moved]
    exact hs.withHeap _
  | error f => exact fail line line' rfl s t hs

theorem writePlace (p : Place) (v : Value) :
    Matches ρ id (Action.writePlace p v line : Action σ Unit)
      (Action.writePlace (p.moved ρ) (v.moved ρ) line') := by
  cases p with
  | «variable» name => exact setVariable name v
  | member owner property =>
    exact edit line line' fun heap => Place.setMember_moved ρ heap owner property v
  | index owner i => exact edit line line' fun heap => Place.setIndex_moved ρ heap owner i v

theorem callMethod (m : Method) (receiver : Value) (args : List Value) :
    Matches ρ (Value.moved ρ) (Action.callMethod m receiver args line : Action σ Value)
      (Action.callMethod m receiver (args.map (Value.moved ρ)) line') := by
  intro s t hs
  unfold Action.callMethod
  cases m.bind receiver with
  | ok bound =>
    simp only [hs.heap, Method.Bound.call_moved]
    exact ⟨hs.withHeap _, .ok _⟩
  | error f => exact fail line line' rfl s t hs

end Places

theorem update (op : UpdateOp) (name : String) :
    Matches ρ (Value.moved ρ) (Evaluator.update op name : Action σ Value)
      (Evaluator.update op name) := by
  intro s t hs
  have new := Value.arith_moved ρ s.heap op.step (s.bindings[name]?.getD .undefined)
    (.number (Number.ofNat 1))
  simp only [Evaluator.update, hs.bindings, Value.getD_moved, hs.heap]
  refine ⟨?_, .ok _⟩
  have inserted := hs.insert name
    (Value.arith s.heap op.step (s.bindings[name]?.getD .undefined) (.number (Number.ofNat 1)))
  rw [← new, ← hs.heap] at inserted
  rw [← hs.heap]
  exact inserted

section Calls

open Evaluator

theorem bindParams (ps : List String) (args : List Value) {bs bs' : Bindings}
    (hb : ∀ name : String, bs'[name]? = bs[name]?.map (Value.moved ρ))
    (saved : List (String × Value)) :
    (∀ name : String,
      (Evaluator.bindParams ps (args.map (Value.moved ρ)) bs'
        (saved.map fun e => (e.1, e.2.moved ρ))).1[name]? =
        (Evaluator.bindParams ps args bs saved).1[name]?.map (Value.moved ρ)) ∧
    (Evaluator.bindParams ps (args.map (Value.moved ρ)) bs'
        (saved.map fun e => (e.1, e.2.moved ρ))).2 =
      (Evaluator.bindParams ps args bs saved).2.map fun e => (e.1, e.2.moved ρ) := by
  induction ps generalizing args bs bs' saved with
  | nil => exact ⟨hb, rfl⟩
  | cons p ps ih =>
    have first : (args.map (Value.moved ρ)).headD .undefined =
        (args.headD .undefined).moved ρ := by
      cases args <;> rfl
    have more : saving bs' p (saved.map fun e => (e.1, e.2.moved ρ)) =
        (saving bs p saved).map fun e => (e.1, e.2.moved ρ) := by
      rw [saving, saving, hb]
      cases bs[p]? <;> rfl
    rw [bindParams_cons, bindParams_cons, first, more, ← List.map_tail]
    apply ih
    intro name
    simp only [Std.HashMap.getElem?_insert, hb]
    split <;> rfl

theorem restoreParams (ps : List String) (saved : List (String × Value)) {bs bs' : Bindings}
    (hb : ∀ name : String, bs'[name]? = bs[name]?.map (Value.moved ρ)) (name : String) :
    (Evaluator.restoreParams ps (saved.map fun e => (e.1, e.2.moved ρ)) bs')[name]? =
      (Evaluator.restoreParams ps saved bs)[name]?.map (Value.moved ρ) := by
  rw [restoreParams_get, restoreParams_get]
  split
  · exact Fields.get?_map (Value.moved ρ) ⟨saved⟩ name
  · exact hb name

theorem callResult {r q : Except Stop Unit} (h : Alike ρ id r q) :
    Alike ρ (Value.moved ρ) (Evaluator.callResult r) (Evaluator.callResult q) := by
  cases h with
  | ok a => exact .ok Value.undefined
  | error h =>
    cases h with
    | returned v => exact .ok v
    | break_ => exact .error .break_
    | continue_ => exact .error .continue_
    | exit => exact .error .exit
    | error h => exact .error (.error h)
    | outOfFuel => exact .error .outOfFuel

theorem callFunction (line line' : Nat) (f : Function) (args : List Value) {x y : Action σ Unit}
    (h : Matches ρ id x y) :
    Matches ρ (Value.moved ρ) (Evaluator.callFunction f args line x)
      (Evaluator.callFunction (f.moved ρ) (args.map (Value.moved ρ)) line' y) := by
  intro s t hs
  have depth : t.depth = s.depth := (congrArg State.depth hs.rest :)
  have most : t.maxCallDepth = s.maxCallDepth := (congrArg State.maxCallDepth hs.rest :)
  have params : (f.moved ρ).decl.params = f.decl.params := rfl
  by_cases hd : s.maxCallDepth ≤ s.depth
  · rw [callFunction_refused hd, callFunction_refused (by rwa [depth, most]), depth]
    exact ⟨hs, .error (.error rfl)⟩
  · rw [callFunction_entered hd, callFunction_entered (by rwa [depth, most]), params]
    have bound := bindParams f.decl.params args hs.bindings []
    rw [List.map_nil] at bound
    have run := h _ _ (hs.withBindings bound.1 (· + 1))
    refine ⟨run.1.withBindings ?_ (· - 1), callResult run.2⟩
    rw [bound.2]
    exact restoreParams f.decl.params _ run.1.bindings

end Calls

end Matches

end Action

end CanvasScript
