import CanvasScript.Proofs.Contract
import CanvasScript.Proofs.Frames
import CanvasScript.Proofs.Parameters

namespace CanvasScript

variable {σ α β : Type}

def Action.Blind (x : Action σ α) : Prop :=
  ∀ s bindings, x { s with bindings := bindings } =
    ((x s).1, { (x s).2 with bindings := bindings })

namespace Action.Blind

theorem pure (a : α) : Blind (Pure.pure a : Action σ α) := fun _ _ => rfl

theorem bind {x : Action σ α} {f : α → Action σ β} (hx : Blind x) (hf : ∀ a, Blind (f a)) :
    Blind (x >>= f) := by
  intro s bindings
  rw [bind_apply, bind_apply, hx s bindings]
  rcases x s with ⟨r, t⟩
  cases r with
  | ok a => exact hf a t bindings
  | error e => rfl

theorem outOfFuel : Blind (Action.outOfFuel : Action σ α) := fun _ _ => rfl

theorem interrupt (i : Interrupt) : Blind (Action.interrupt i : Action σ α) := fun _ _ => rfl

theorem onHeap (f : Heap → α) : Blind (Action.onHeap f : Action σ α) := fun _ _ => rfl

theorem newArray (items : Array Value) : Blind (Action.newArray items : Action σ Value) :=
  fun _ _ => rfl

theorem newObject (fields : Fields Value) : Blind (Action.newObject fields : Action σ Value) :=
  fun _ _ => rfl

theorem ask (host : Host σ) (r : Request) : Blind (Action.ask host r) := fun _ _ => rfl

theorem ofExcept (line : Nat) (r : Except Failure α) :
    Blind (Action.ofExcept line r : Action σ α) := by
  cases r with
  | ok a => exact pure a
  | error f => exact interrupt _

theorem attributed {line : Nat} {x : Action σ α} (hx : Blind x) :
    Blind (Action.attributed line x) := by
  intro s bindings
  unfold Action.attributed
  rw [hx s bindings]
  rcases x s with ⟨r, t⟩
  match r with
  | .ok a => rfl
  | .error .outOfFuel => rfl
  | .error (.interrupt i) => rfl

theorem edit (line : Nat) (find : Heap → Except Failure Place.Edit) :
    Blind (Action.edit line find : Action σ Unit) := by
  intro s bindings
  unfold Action.edit
  cases find s.heap <;> rfl

theorem callMethod (m : Method) (receiver : Value) (args : List Value) (line : Nat) :
    Blind (Action.callMethod m receiver args line : Action σ Value) := by
  intro s bindings
  unfold Action.callMethod
  cases m.bind receiver <;> rfl

theorem granted (b : Builtin) (r : Except String α) : Blind (Builtin.granted b r : Action σ α) := by
  cases r with
  | ok a => exact pure a
  | error reason => exact interrupt _

theorem entryValues (ds : List DirEntry) : Blind (Builtin.entryValues ds : Action σ _) := by
  induction ds with
  | nil => exact pure _
  | cons d ds ih => exact (newObject _).bind fun v => ih.bind fun vs => pure _

theorem request (host : Host σ) (r : Request) : Blind (Builtin.request host r) :=
  (ask host r).bind fun _ => pure _

theorem builtin (host : Host σ) (b : Builtin) (args : List Value) : Blind (b.call host args) := by
  have print (before after : String) : Blind (Builtin.print host before after args) :=
    (onHeap _).bind fun _ => request host _
  have math (f : Float → Float) : Blind (Builtin.math f args : Action σ Value) :=
    (onHeap _).bind fun _ => pure _
  cases b with
  | rect => exact (onHeap _).bind fun _ => request host _
  | pixel => exact (onHeap _).bind fun _ => request host _
  | clear =>
    have read : Blind (Action.read (·.canvas.background) : Action σ Color) := fun _ _ => rfl
    exact read.bind fun _ => request host _
  | random => exact (ask host .random).bind fun _ => pure _
  | round => exact math _
  | floor => exact math _
  | ceil => exact math _
  | abs => exact math _
  | sqrt => exact math _
  | pow => exact (onHeap _).bind fun _ => (onHeap _).bind fun _ => pure _
  | log => exact print _ _
  | warn => exact print _ _
  | error => exact print _ _
  | clearConsole => exact request host _
  | exit => exact interrupt _
  | wait => exact (onHeap _).bind fun _ => request host _
  | readFile =>
    exact (onHeap _).bind fun path => (ask host (.readFile path)).bind fun reply =>
      (granted _ reply).bind fun _ => pure _
  | writeFile =>
    exact (onHeap _).bind fun path => (onHeap _).bind fun contents =>
      (ask host (.writeFile path contents)).bind fun reply => (granted _ reply).bind fun _ => pure _
  | readDir =>
    exact (onHeap _).bind fun path => (ask host (.readDir path)).bind fun reply =>
      (granted _ reply).bind fun entries => (entryValues entries).bind fun vs => newArray _
  | exec =>
    exact (onHeap _).bind fun command => (ask host (.exec command)).bind fun reply =>
      (granted _ reply).bind fun _ => pure _

end Action.Blind

/-- The view of a call in progress: `own` are its parameters, and `pending` is what the other names
of `bound` have to stay bound to. -/
structure Scope (bound : String → Prop) where
  own : String → Prop
  pending : String → Option Value
  own_bound : ∀ name, own name → bound name

namespace Scope

variable {bound : String → Prop} {outer : String → Option Value}

/-- The state `s` shows what `t` holds apart: the frame in the names of `own`, the global variables
in the names that are not of `bound`. Of the latter kind are all global variables that change. -/
structure Mirror (outer : String → Option Value) (c : Scope bound) (s : State σ) (t : Framed σ) :
    Prop where
  rest : { s with bindings := t.state.bindings } = t.state
  framed : ∀ name : String, t.frame[name]?.isSome ↔ c.own name
  inner : ∀ (name : String) v, t.frame[name]? = some v → s.bindings[name]? = some v
  global : ∀ name : String, ¬ bound name → s.bindings[name]? = t.state.bindings[name]?
  pending : ∀ name : String, bound name → ¬ c.own name → s.bindings[name]? = c.pending name
  outer : ∀ name : String, bound name → t.state.bindings[name]? = outer name

def Visible (c : Scope bound) (name : String) : Prop := bound name → c.own name

namespace Mirror

variable {c : Scope bound} {s : State σ} {t : Framed σ} {name : String}

theorem frame_none (hm : c.Mirror outer s t) (h : ¬ c.own name) : t.frame[name]? = none := by
  rw [← hm.framed, Option.not_isSome_iff_eq_none] at h
  exact h

theorem lookup (hm : c.Mirror outer s t) (h : c.Visible name) :
    Local.lookup name t = s.bindings[name]? := by
  unfold Local.lookup
  by_cases ho : c.own name
  · obtain ⟨v, hv⟩ := Option.isSome_iff_exists.1 ((hm.framed name).2 ho)
    rw [hv, hm.inner name v hv]
    rfl
  · rw [hm.frame_none ho, hm.global name fun hb => ho (h hb)]
    rfl

theorem assign (hm : c.Mirror outer s t) (h : c.Visible name) (v : Value) :
    c.Mirror outer { s with bindings := s.bindings.insert name v } (Local.assign name v t) := by
  unfold Local.assign
  by_cases ho : c.own name
  -- a parameter: the frame changes, and no global variable does
  · rw [if_pos (by rw [← Std.HashMap.isSome_getElem?_eq_contains]; exact (hm.framed name).2 ho)]
    refine ⟨hm.rest, fun x => ?_, fun x w => ?_, fun x hx => ?_, fun x hx hox => ?_, hm.outer⟩
    · have hf := hm.framed x
      simp only [Std.HashMap.getElem?_insert]
      by_cases hx : name = x
      · simpa [hx] using hx ▸ ho
      · simpa [hx] using hf
    · simp only [Std.HashMap.getElem?_insert]
      by_cases hx : name = x
      · simp [hx]
      · simpa [hx] using hm.inner x w
    · have hne : name ≠ x := by
        rintro rfl
        exact hx (c.own_bound _ ho)
      simpa [Std.HashMap.getElem?_insert, hne] using hm.global x hx
    · have hne : name ≠ x := by
        rintro rfl
        exact hox ho
      simpa [Std.HashMap.getElem?_insert, hne] using hm.pending x hx hox
  -- a visible name that is no parameter of this call is none of any function
  · rw [if_neg (by rw [← Std.HashMap.isSome_getElem?_eq_contains, hm.framed name]; exact ho)]
    have hb : ¬ bound name := fun hb => ho (h hb)
    refine ⟨?_, hm.framed, fun x w hw => ?_, fun x hx => ?_, fun x hx hox => ?_, fun x hx => ?_⟩
    · exact congrArg (fun u : State σ => { u with bindings := t.state.bindings.insert name v })
        hm.rest
    · have hne : name ≠ x := by
        rintro rfl
        rw [hm.frame_none ho] at hw
        cases hw
      simpa [Std.HashMap.getElem?_insert, hne] using hm.inner x w hw
    · simp only [Std.HashMap.getElem?_insert, hm.global x hx]
    · have hne : name ≠ x := by
        rintro rfl
        exact hb hx
      simpa [Std.HashMap.getElem?_insert, hne] using hm.pending x hx hox
    · have hne : name ≠ x := by
        rintro rfl
        exact hb hx
      simpa [Std.HashMap.getElem?_insert, hne] using hm.outer x hx

end Mirror

def Mirrors (outer : String → Option Value) (V : Value → Prop) (c : Scope bound) (x : Action σ α)
    (y : Local σ α) : Prop :=
  ∀ s t, s.Holds V (fun _ => True) → c.Mirror outer s t →
    (y t).1 = (x s).1 ∧ c.Mirror outer (x s).2 (y t).2

namespace Mirrors

variable {V : Value → Prop} {c : Scope bound}

theorem pure (a : α) : c.Mirrors outer V (Pure.pure a : Action σ α) (Pure.pure a) :=
  fun _ _ _ hm => ⟨rfl, hm⟩

theorem bind {Q : α → Prop} {S : Stop → Prop} {x : Action σ α} {y : Local σ α}
    {f : α → Action σ β} {g : α → Local σ β} (hx : c.Mirrors outer V x y)
    (hk : x.Keeps V (fun _ => True) Q S) (hf : ∀ a, Q a → c.Mirrors outer V (f a) (g a)) :
    c.Mirrors outer V (x >>= f) (y >>= g) := by
  intro s t hs hm
  have hr := hx s t hs hm
  have hq := hk s hs
  rw [Action.bind_apply, Local.bind_apply]
  rcases hx' : x s with ⟨r, s'⟩
  rcases hy' : y t with ⟨r', t'⟩
  rw [hx', hy'] at hr
  rw [hx'] at hq
  obtain ⟨hr, hm'⟩ := hr
  cases hr
  cases r with
  | ok a => exact hf a hq.2 s' t' hq.1 hm'
  | error e => exact ⟨rfl, hm'⟩

theorem global {x : Action σ α} (hx : x.Blind) : c.Mirrors outer V x (Local.global x) := by
  intro s t hs hm
  have hb : (x s).2.bindings = s.bindings := congrArg (·.2.bindings) (hx s s.bindings)
  have ht : x t.state = ((x s).1, { (x s).2 with bindings := t.state.bindings }) := by
    rw [← hx s t.state.bindings, hm.rest]
  unfold Local.global
  rw [ht]
  exact ⟨rfl, rfl, hm.framed, by simpa only [hb] using hm.inner, by simpa only [hb] using hm.global,
    by simpa only [hb] using hm.pending, hm.outer⟩

theorem loopBody {x : Action σ Unit} {y : Local σ Unit} (hx : c.Mirrors outer V x y) :
    c.Mirrors outer V (Action.loopBody x) (Local.loopBody y) := by
  intro s t hs hm
  have hr := hx s t hs hm
  unfold Action.loopBody Local.loopBody
  rcases hx' : x s with ⟨r, s'⟩
  rcases hy' : y t with ⟨r', t'⟩
  rw [hx', hy'] at hr
  obtain ⟨hr, hm'⟩ := hr
  cases hr
  match r with
  | .ok () => exact ⟨rfl, hm'⟩
  | .error .outOfFuel => exact ⟨rfl, hm'⟩
  | .error (.interrupt (.returned _)) => exact ⟨rfl, hm'⟩
  | .error (.interrupt .break_) => exact ⟨rfl, hm'⟩
  | .error (.interrupt .continue_) => exact ⟨rfl, hm'⟩
  | .error (.interrupt .exit) => exact ⟨rfl, hm'⟩
  | .error (.interrupt (.error _)) => exact ⟨rfl, hm'⟩

variable {name : String}

theorem setVariable (h : c.Visible name) (v : Value) :
    c.Mirrors outer V (Action.setVariable name v : Action σ Unit) (Local.setVariable name v) :=
  fun _ _ _ hm => ⟨rfl, hm.assign h v⟩

theorem variable_ (h : c.Visible name) (line : Nat) :
    c.Mirrors outer V (Action.variable_ name line : Action σ Value)
      (Local.variable_ name line) := by
  intro s t hs hm
  unfold Action.variable_ Local.variable_
  rw [hm.lookup h]
  cases s.bindings[name]? with
  | none => exact global (Action.Blind.interrupt _) s t hs hm
  | some v => exact ⟨rfl, hm⟩

theorem update (h : c.Visible name) (op : UpdateOp) :
    c.Mirrors outer V (Evaluator.update op name : Action σ Value) (Local.update op name) := by
  intro s t hs hm
  have heap : t.state.heap = s.heap := (congrArg State.heap hm.rest).symm
  unfold Evaluator.update Local.update
  rw [hm.lookup h, heap]
  exact ⟨rfl, hm.assign h _⟩

def Reaches (c : Scope bound) : Place → Prop
  | .variable name => c.Visible name
  | _ => True

theorem readPlace {p : Place} (h : Reaches c p) (line : Nat) :
    c.Mirrors outer V (Action.readPlace p line : Action σ Value) (Local.readPlace p line) := by
  match p with
  | .variable name => exact variable_ h line
  | .member owner property =>
    exact global fun s bindings => Action.Blind.ofExcept line _ s bindings
  | .index owner index =>
    exact global fun s bindings => Action.Blind.ofExcept line _ s bindings

theorem writePlace {p : Place} (h : Reaches c p) (v : Value) (line : Nat) :
    c.Mirrors outer V (Action.writePlace p v line : Action σ Unit)
      (Local.writePlace p v line) := by
  match p with
  | .variable name => exact setVariable h v
  | .member owner property =>
    exact global (Action.Blind.edit line fun h => Place.setMember h owner property v)
  | .index owner index =>
    exact global (Action.Blind.edit line fun h => Place.setIndex h owner index v)

end Mirrors

end Scope

end CanvasScript
