import CanvasScript.Host.Extras
import CanvasScript.Proofs.Evaluations.Progress

namespace CanvasScript

variable {σ α : Type} {env : Embedding σ}

def Interrupt.Final : Interrupt → Prop
  | exit => True
  | error _ => True
  | _ => False

structure OpenCall (σ : Type) where
  function : Function
  args : List Value
  caller : State σ

namespace OpenCall

def leave (c : OpenCall σ) (u : State σ) : State σ :=
  { u with
    bindings := Evaluator.restoreParams c.function.decl.params
      (Evaluator.bindParams c.function.decl.params c.args c.caller.bindings []).2 u.bindings
    depth := u.depth - 1 }

theorem leave_binding (c : OpenCall σ) (u : State σ) {name : String}
    (h : name ∉ c.function.decl.params) : (c.leave u).bindings[name]? = u.bindings[name]? := by
  rw [leave, Evaluator.restoreParams_get, if_neg h]

def leaveAll (calls : List (OpenCall σ)) (u : State σ) : State σ := calls.foldr leave u

end OpenCall

/-- The state `v` is `u` after its open calls have been left, and differs from it in no more than
the count of calls and in parameters of these calls. -/
structure Unwound (calls : List (OpenCall σ)) (u v : State σ) : Prop where
  eq : v = OpenCall.leaveAll calls u
  world : v.world = u.world
  heap : v.heap = u.heap
  rest : v = { u with bindings := v.bindings, depth := v.depth }
  bindings : ∀ name : String, (∀ c ∈ calls, name ∉ c.function.decl.params) →
    v.bindings[name]? = u.bindings[name]?

theorem OpenCall.unwound (calls : List (OpenCall σ)) (u : State σ) :
    Unwound calls u (leaveAll calls u) := by
  have rest : leaveAll calls u =
      { u with bindings := (leaveAll calls u).bindings, depth := (leaveAll calls u).depth } := by
    induction calls with
    | nil => rfl
    | cons c calls ih => exact congrArg c.leave ih
  have world : (leaveAll calls u).world = u.world := by rw [rest]
  have heap : (leaveAll calls u).heap = u.heap := by rw [rest]
  refine ⟨rfl, world, heap, rest, fun name h => ?_⟩
  clear rest world heap
  induction calls with
  | nil => rfl
  | cons c calls ih =>
    have inner := ih fun d hd => h d (List.mem_cons_of_mem c hd)
    exact (c.leave_binding _ (h c List.mem_cons_self)).trans inner

/-- While the job `j` is done from the state `s` on with fuel `n`, the job `i` is begun in the state
`t` with fuel `m`, inside the bodies of `calls`, of which the outermost stands first. -/
inductive Within (env : Embedding σ) :
    Nat → Job → State σ → List (OpenCall σ) → Nat → Job → State σ → Prop
  | self {n : Nat} {j : Job} {s : State σ} : Within env n j s [] n j s
  | part {n m : Nat} {j i h : Job} {s t u : State σ} {calls : List (OpenCall σ)} :
      (j.plan env).Asks (Job.run env n) s 0 i t → Within env n i t calls m h u →
      Within env (n + 1) j s calls m h u
  | body {n m : Nat} {f : Function} {args : List Value} {line : Nat} {h : Job} {s u : State σ}
      {calls : List (OpenCall σ)} : s.depth < s.maxCallDepth →
      Within env n (.block f.unit f.decl.body) (Plan.entered f args s) calls m h u →
      Within env (n + 1) (.call (.function f) args line) s (⟨f, args, s⟩ :: calls) m h u

namespace Within

variable {n m : Nat} {j i : Job} {s t : State σ} {calls : List (OpenCall σ)}

theorem during (h : Within env n j s calls m i t) : During env n j s calls.length m i t := by
  induction h with
  | self => exact .self
  | part ha _ ih => simpa using During.within ha ih
  | @body n m f args line h s u calls hd _ ih =>
    have asked : ((Job.call (.function f) args line).plan env).Asks (Job.run env n) s 1
        (.block f.unit f.decl.body) (Plan.entered f args s) :=
      Job.asks_of_call.2 ⟨hd, rfl, rfl, rfl⟩
    have entered := During.within asked ih
    rwa [Nat.add_comm 1] at entered

theorem of_during {k : Nat} (h : During env n j s k m i t) :
    ∃ calls : List (OpenCall σ), calls.length = k ∧ Within env n j s calls m i t := by
  induction h with
  | self => exact ⟨[], rfl, .self⟩
  | @within n k l m j i h s t u ha _ ih =>
    obtain ⟨calls, hl, hw⟩ := ih
    by_cases hj : ∃ f args line, j = .call (.function f) args line
    · obtain ⟨f, args, line, rfl⟩ := hj
      obtain ⟨hd, rfl, rfl, rfl⟩ := Job.asks_of_call.1 ha
      exact ⟨⟨f, args, s⟩ :: calls, by simp [hl, Nat.add_comm], .body hd hw⟩
    · have free : (j.plan env).CallFree :=
        Job.plan_callFree fun f args line h => hj ⟨f, args, line, h⟩
      cases free.eq_zero ha
      exact ⟨calls, by simp [hl], .part ha hw⟩

end Within

theorem Action.loopBody_final {x : Action σ Unit} {s u : State σ} {i : Interrupt} (hi : i.Final)
    (h : x s = (.error (.interrupt i), u)) :
    Action.loopBody x s = (.error (.interrupt i), u) := by
  unfold Action.loopBody
  rw [h]
  cases i with
  | exit | error => rfl
  | returned | break_ | continue_ => exact hi.elim

theorem Evaluator.callResult_final {i : Interrupt} (hi : i.Final) :
    callResult (.error (.interrupt i)) = .error (.interrupt i) := by
  cases i with
  | exit | error => rfl
  | returned | break_ | continue_ => exact hi.elim

theorem Plan.Asks.ends {rec : (j : Job) → Action σ j.Result} {x : Plan env α} {s t u : State σ}
    {j : Job} {i : Interrupt} (h : x.Asks rec s 0 j t) (hi : i.Final)
    (hj : rec j t = (.error (.interrupt i), u)) : x.run rec s = (.error (.interrupt i), u) := by
  induction x generalizing s with
  | pure | step => exact h.elim
  | ask i =>
    obtain ⟨-, rfl, rfl⟩ := h
    exact hj
  | bind x g ihx ihg =>
    rw [run, Action.bind_apply]
    rcases h with h | ⟨a, v, hr, h⟩
    · rw [ihx h]
    · rw [hr]
      exact ihg a h
  | loopBody body ih => exact Action.loopBody_final hi (ih h)
  | inCall g args line body ih =>
    obtain ⟨-, k, hk, -⟩ := h
    omega

theorem Within.ends {n m : Nat} {j i : Job} {s t u : State σ} {calls : List (OpenCall σ)}
    {e : Interrupt} (h : Within env n j s calls m i t) (he : e.Final)
    (hi : i.run env m t = (.error (.interrupt e), u)) :
    j.run env n s = (.error (.interrupt e), OpenCall.leaveAll calls u) := by
  induction h with
  | self => exact hi
  | part ha _ ih =>
    rw [← Job.run_plan]
    exact ha.ends he (ih hi)
  | @body n m f args line h s u calls hd _ ih =>
    rw [← Job.run_plan]
    refine (Plan.run_inCall_entered _ (Nat.not_le.2 hd) args line _).trans ?_
    rw [Plan.run, ih hi, Plan.left, Evaluator.callResult_final he]
    rfl

def Native.action? (env : Embedding σ) (args : List Value) : Native → Option (Action σ Value)
  | builtin b => some (b.call env.host args)
  | custom slot _ _ => (env.customs[slot]?).map (·.call args)

theorem Native.run_call {f : Native} {args : List Value} {x : Action σ Value}
    (h : f.action? env args = some x) (m line : Nat) :
    (Job.call (.native f) args line).run env (m + 1) = Action.attributed line x := by
  cases f with
  | builtin b =>
    cases h
    rw [Job.run, Evaluator.call]
  | custom slot name suspends =>
    obtain ⟨c, hc, rfl⟩ := Option.map_eq_some_iff.1 h
    rw [Job.run, Evaluator.call]
    simp only [hc]

def Program.EndsAs (p : Program) (env : Embedding σ) (fuel : Nat) (s : State σ) (ending : Ending)
    (t : State σ) : Prop :=
  p.run env fuel s = (ending, t) ∧ ∀ source before, State.compile before source = (.ok p, s) →
    interpret env fuel source before = (.ended ending, t)

theorem Program.endsAs {p : Program} {fuel : Nat} {s t : State σ} {r : Except Stop Unit}
    (h : (Job.block p.unit p.statements).run env fuel { s with depth := 0 } = (r, t)) :
    p.EndsAs env fuel s (Ending.of r) t := by
  have run : p.run env fuel s = (Ending.of r, t) := by
    rw [Job.run] at h
    rw [Program.run, h]
  refine ⟨run, fun source before hc => ?_⟩
  simp only [interpret, hc, run]

theorem final_interrupt_ends_run (env : Embedding σ) (fuel : Nat) (p : Program) (s : State σ)
    {calls : List (OpenCall σ)} {m : Nat} {i : Job} {t : State σ}
    (h : Within env fuel (.block p.unit p.statements) { s with depth := 0 } calls m i t) :
    (∀ u, i.run env m t = (.error (.interrupt .exit), u) →
      ∃ v, p.EndsAs env fuel s .exited v ∧ Unwound calls u v) ∧
    (∀ e u, i.run env m t = (.error (.interrupt (.error e)), u) →
      ∃ v, p.EndsAs env fuel s (.failed e) v ∧ Unwound calls u v) ∧
    ∀ f args line x, i = .call (.native f) args line → 0 < m → f.action? env args = some x →
      (∀ u, x t = (.error (.interrupt .exit), u) →
        ∃ v, p.EndsAs env fuel s .exited v ∧ Unwound calls u v) ∧
      ∀ e u, x t = (.error (.interrupt (.error e)), u) →
        ∃ e' v, p.EndsAs env fuel s (.failed e') v ∧ e'.message = e.message ∧
          e'.line = (if e.line = 0 then line else e.line) ∧ Unwound calls u v := by
  have exits (u : State σ) (hr : i.run env m t = (.error (.interrupt .exit), u)) :
      ∃ v, p.EndsAs env fuel s .exited v ∧ Unwound calls u v :=
    ⟨_, Program.endsAs (h.ends (e := .exit) trivial hr), OpenCall.unwound calls u⟩
  have fails (e : RuntimeError) (u : State σ)
      (hr : i.run env m t = (.error (.interrupt (.error e)), u)) :
      ∃ v, p.EndsAs env fuel s (.failed e) v ∧ Unwound calls u v :=
    ⟨_, Program.endsAs (h.ends (e := .error e) trivial hr), OpenCall.unwound calls u⟩
  refine ⟨exits, fails, fun f args line x hi hm hx => ?_⟩
  obtain ⟨m, rfl⟩ : ∃ l, m = l + 1 := ⟨m - 1, by omega⟩
  subst hi
  have call := Native.run_call hx m line
  refine ⟨fun u hu => exits u ?_, fun e u hu => ?_⟩
  · rw [call, Action.attributed, hu]
    rfl
  · obtain ⟨v, hv, unwound⟩ := fails (e.attribute line) u (by
      rw [call, Action.attributed, hu]
      rfl)
    refine ⟨_, v, hv, ?_, ?_, unwound⟩
    · unfold RuntimeError.attribute
      split <;> rfl
    · unfold RuntimeError.attribute
      split <;> rfl

theorem failure_in_condition_ends_run :
    let env : Embedding Unit := ⟨.silent Unit, [Extras.fail]⟩
    let g : Native := .custom 0 "fail" false
    let f : Function :=
      ⟨0, ⟨"f", ["a"], [.expr (.call (.variable "g" ⟨3, 1⟩) [] ⟨3, 1⟩)], ⟨2, 1⟩⟩⟩
    let s : State Unit := { State.initial env .standard () with
      bindings := ((∅ : Bindings).insert "f" (.function f)).insert "g" (.native g) }
    let p : Program := ⟨1, [.while_ (.call (.variable "f" ⟨5, 7⟩) [] ⟨5, 7⟩) [] ⟨5, 1⟩]⟩
    let inside := Plan.entered f [] s
    Within env 20 (.block p.unit p.statements) { s with depth := 0 } [⟨f, [], s⟩] 12
        (.call (.native g) [] 3) inside ∧
      ∃ e v, p.EndsAs env 20 s (.failed e) v ∧ e.message = "undefined" ∧ e.line = 3 ∧
        Unwound [⟨f, [], s⟩] inside v := by
  intro env g f s p inside
  have callee (n : Nat) : Evaluator.expr env (n + 1) (.variable "f" ⟨5, 7⟩) s =
      (.ok (.function f), s) := by
    have bound : s.bindings["f"]? = some (.function f) := by
      simp only [s]
      rw [Std.HashMap.getElem?_insert, if_neg (by decide), Std.HashMap.getElem?_insert,
        if_pos (by decide)]
    simp only [Evaluator.expr, Action.variable_, bound]
  have native (n : Nat) : Evaluator.expr env (n + 1) (.variable "g" ⟨3, 1⟩) inside =
      (.ok (.native g), inside) := by
    have bound : inside.bindings["g"]? = some (.native g) := by
      simp only [inside, Plan.entered, f, s, Evaluator.bindParams]
      rw [Std.HashMap.getElem?_insert, if_neg (by decide), Std.HashMap.getElem?_insert,
        if_pos (by decide)]
    simp only [Evaluator.expr, Action.variable_, bound]
  have noArgs (n : Nat) (t : State Unit) : Evaluator.exprs env (n + 1) [] t = (.ok [], t) := by
    simp only [Evaluator.exprs]
    rfl
  have shallow : s.depth < s.maxCallDepth := by
    simp [s, State.initial, Settings.standard]
  have within : Within env 20 (.block p.unit p.statements) { s with depth := 0 } [⟨f, [], s⟩] 12
      (.call (.native g) [] 3) inside := by
    have inBody : Within env 15 (.block f.unit f.decl.body) inside [] 12 (.call (.native g) [] 3)
        inside := by
      refine .part (.inl ⟨rfl, rfl, rfl⟩) (.part (.inl ⟨rfl, rfl, rfl⟩) (.part ?_ .self))
      exact .inr ⟨.native g, inside, native 11, .inr ⟨[], inside, noArgs 11 inside, rfl, rfl, rfl⟩⟩
    have inCall :
        Within env 16 (.call (.function f) [] 5) s [⟨f, [], s⟩] 12 (.call (.native g) [] 3) inside := .body shallow inBody
    refine .part (.inl ⟨rfl, rfl, rfl⟩) (.part ⟨rfl, rfl, rfl⟩ (.part (.inl ⟨rfl, rfl, rfl⟩)
      (.part ?_ inCall)))
    exact .inr ⟨.function f, s, callee 15, .inr ⟨[], s, noArgs 15 s, rfl, rfl, rfl⟩⟩
  have raised : (Extras.fail (σ := Unit)).call [] inside =
      (.error (.interrupt (.error ⟨0, .custom "undefined"⟩)), inside) := rfl
  obtain ⟨e, v, ends, message, line, unwound⟩ :=
    ((final_interrupt_ends_run env 20 p s within).2.2 g [] 3 _ rfl (by decide) rfl).2 _ _ raised
  exact ⟨within, e, v, ends, message, line, unwound⟩

end CanvasScript
