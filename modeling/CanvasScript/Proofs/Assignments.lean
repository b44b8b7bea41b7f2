import CanvasScript.Bindings
import CanvasScript.Proofs.Evaluations.Alike
import CanvasScript.Proofs.Sums

namespace CanvasScript

variable {σ : Type} {env : Embedding σ}

namespace Expr

def combined (op : ArithOp) (x : String) (e : Expr) (p q r : Position) : Expr :=
  .assign (.variable x) (.binary (.arith op) (.variable x q) e r) p

def counted (op : UpdateOp) (x : String) (p q : Position) : Expr :=
  .compound op.step (.variable x) (.literal (.number (Number.ofNat 1)) q) p

end Expr

namespace Plan

open Job (expr place)

def combine (op : ArithOp) (x : String) (line : Nat) (e : Expr) : Plan env Value := do
  let old ← step (.readPlace (.variable x) line)
  let v : Value ← ask (expr e)
  let new ← step (.onHeap fun h => Value.arith h op old v)
  step (.setVariable x new)
  return .undefined

variable {op : ArithOp} {x : String} {e : Expr}

theorem alike_compound (p : Position) :
    (ask (expr (.compound op (.variable x) e p)) : Plan env Value).Alike
      (combine op x p.line e) := by
  have target : (ask (place (.variable x)) : Plan env Place).Alike (return .variable x) :=
    Alike.plan nofun
  refine (Alike.plan (j := expr (.compound op (.variable x) e p)) nofun).trans ?_
  refine (Alike.bind_of_pure target _).trans ?_
  refine .bind (.refl _) fun old => .bind (.refl _) fun v => .bind (.refl _) fun new => ?_
  exact .bind (.of_run rfl) fun _ => .refl _

theorem alike_combined (p q r : Position) :
    (ask (expr (.combined op x e p q r)) : Plan env Value).Alike (combine op x q.line e) := by
  have target : (ask (place (.variable x)) : Plan env Place).Alike (return .variable x) :=
    Alike.plan nofun
  have read : (ask (expr (.variable x q)) : Plan env Value).Alike
      (step (.readPlace (.variable x) q.line)) := Alike.plan nofun
  have sum : (ask (expr (.binary (.arith op) (.variable x q) e r)) : Plan env Value).Alike
      (step (.readPlace (.variable x) q.line) >>= fun old => ask (expr e) >>= fun v : Value =>
        step (.onHeap fun h => Value.arith h op old v)) :=
    (Alike.plan (j := expr (.binary _ _ _ r)) nofun).trans (read.bind fun _ => .refl _)
  have write (v : Value) : (ask (place (.variable x)) >>= fun dest : Place =>
      step (.writePlace dest v p.line) >>= fun _ => return .undefined : Plan env Value).Alike
        (step (.setVariable x v) >>= fun _ => return .undefined) :=
    (Alike.bind_of_pure target _).trans (.bind (.of_run rfl) fun _ => .refl _)
  refine (Alike.plan (j := expr (.assign _ _ p)) nofun).trans ((sum.bind write).trans ?_)
  refine (Alike.assoc ..).trans (.bind (.refl _) fun old => ?_)
  exact .assoc ..

section Outcomes

variable {s u : State σ} {old v : Value} (line : Nat)

theorem ends_combine (bound : s.bindings[x]? = some old) (value : (expr e).Ends env s (.ok v) u) :
    (combine op x line e : Plan env Value).Ends s (.ok .undefined)
      { u with bindings := u.bindings.insert x (Value.arith u.heap op old v) } := by
  have read : (Step.readPlace (.variable x) line : Step env Value).run s = (.ok old, s) := by
    simp [Step.run, Action.readPlace, Action.variable_, bound]
  refine ends_bind.2 (.inr ⟨old, s, ends_step_ok read, ?_⟩)
  refine ends_bind.2 (.inr ⟨v, u, ends_ask.2 value, ?_⟩)
  refine ends_bind.2 (.inr ⟨_, u, ends_step_ok rfl, ?_⟩)
  exact ends_bind.2 (.inr ⟨(), _, ends_step_ok rfl, ends_pure.2 rfl⟩)

theorem ends_combine_unbound (unbound : s.bindings[x]? = none) :
    (combine op x line e : Plan env Value).Ends s
      (.error (.interrupt (.error ⟨line, .undefinedVariable x⟩))) s := by
  have read : (Step.readPlace (.variable x) line : Step env Value).run s =
      (.error (.interrupt (.error ⟨line, .undefinedVariable x⟩)), s) := by
    simp only [Step.run, Action.readPlace, Action.variable_, unbound]
    rfl
  exact ends_bind.2 (.inl ⟨.interrupt _, ends_step_interrupt read, rfl⟩)

theorem combine_calls_nothing {y : Float} (r : Position) {k : Nat} {callee : Value}
    {args : List Value} {l : Nat} {t : State σ} :
    ¬ (combine op x line (.literal (.number y) r) : Plan env Value).Begins s k
      (.call callee args l) t := by
  have number : (ask (expr (.literal (.number y) r)) : Plan env Value).Alike (return .number y) :=
    Alike.plan nofun
  have steps (old : Value) := Alike.bind_of_pure number fun v : Value =>
    (step (.onHeap fun h => Value.arith h op old v) >>= fun new =>
      step (.setVariable x new) >>= fun _ => return .undefined : Plan env Value)
  intro begun
  obtain ⟨old, u, -, begun⟩ := begins_step_bind.1 begun
  obtain ⟨new, u, -, begun⟩ := begins_step_bind.1 (((steps old).calls ..).1 begun)
  obtain ⟨_, u, -, _, _, _, _, _, begun, -⟩ := begins_step_bind.1 begun
  exact begun

end Outcomes

end Plan

theorem Value.arith_undefined (h : Heap) (op : UpdateOp) :
    Value.arith h op.step .undefined (.number (Number.ofNat 1)) = .number Number.nan := by
  have counted : Number.nan + Number.ofNat 1 = Number.nan ∧
      Number.nan - Number.ofNat 1 = Number.nan :=
    ⟨Number.eq_of_shape (by decide +kernel), Number.eq_of_shape (by decide +kernel)⟩
  cases op with
  | increment => exact congrArg Value.number counted.1
  | decrement => exact congrArg Value.number counted.2

def State.counted (s : State σ) (op : UpdateOp) (x : String) (old : Value) : State σ :=
  { s with bindings :=
      s.bindings.insert x (Value.arith s.heap op.step old (.number (Number.ofNat 1))) }

section Counted

variable {op : UpdateOp} {x : String} {s t : State σ} {old : Value} (p q : Position)

theorem Job.update_bound (bound : s.bindings[x]? = some old) :
    (expr (.update op x p)).Ends env s (.ok old) (s.counted op x old) :=
  ends_update.2 (by simp only [Evaluator.update, bound, Option.getD_some, State.counted])

theorem Job.update_unbound (unbound : s.bindings[x]? = none) :
    (expr (.update op x p)).Ends env s (.ok .undefined)
      { s with bindings := s.bindings.insert x (.number Number.nan) } :=
  ends_update.2 (by
    simp only [Evaluator.update, unbound, Option.getD_none, Value.arith_undefined])

theorem Job.counted_bound (bound : s.bindings[x]? = some old) :
    (expr (.counted op x p q)).Ends env s (.ok .undefined) (s.counted op x old) :=
  Plan.ends_ask.1 (((Plan.alike_compound p).ends ..).2
    (Plan.ends_combine _ bound (ends_literal nofun)))

theorem Job.counted_unbound (unbound : s.bindings[x]? = none) :
    (expr (.counted op x p q)).Ends env s
      (.error (.interrupt (.error ⟨p.line, .undefinedVariable x⟩))) s :=
  Plan.ends_ask.1 (((Plan.alike_compound p).ends ..).2 (Plan.ends_combine_unbound _ unbound))

variable {k : Nat} {callee : Value} {args : List Value} {line : Nat}

theorem Job.update_calls_nothing :
    ¬ (expr (.update op x p)).Begins env s k (.call callee args line) t := by
  have alike : (Plan.ask (expr (.update op x p)) : Plan env Value).Alike _ := Plan.Alike.plan nofun
  intro begun
  exact Plan.begins_step ((alike.calls ..).1 (Plan.begins_ask.2 begun))

theorem Job.counted_calls_nothing :
    ¬ (expr (.counted op x p q)).Begins env s k (.call callee args line) t := by
  intro begun
  have begun := ((Plan.alike_compound p).calls ..).1 (Plan.begins_ask.2 begun)
  exact Plan.combine_calls_nothing p.line q begun

end Counted

theorem assignments_abbreviate (env : Embedding σ) (x : String) :
    (∀ (op : ArithOp) (e : Expr) (p p' q r : Position), p.line = q.line →
      let short := Job.expr (.compound op (.variable x) e p)
      let long := Job.expr (.combined op x e p' q r)
      (∀ s outcome t, short.Ends env s outcome t ↔ long.Ends env s outcome t) ∧
        ∀ s k callee args line t, short.Begins env s k (.call callee args line) t ↔
          long.Begins env s k (.call callee args line) t) ∧
    ∀ (op : UpdateOp) (p p' q : Position) (s : State σ),
      let update := Job.expr (.update op x p)
      let sum := Job.expr (.counted op x p' q)
      (∀ old, s.bindings[x]? = some old →
        update.Ends env s (.ok old) (s.counted op x old) ∧
          sum.Ends env s (.ok .undefined) (s.counted op x old)) ∧
      (s.bindings[x]? = none →
        update.Ends env s (.ok .undefined)
          { s with bindings := s.bindings.insert x (.number Number.nan) } ∧
        sum.Ends env s (.error (.interrupt (.error ⟨p'.line, .undefinedVariable x⟩))) s) ∧
      ∀ k callee args line t, ¬ update.Begins env s k (.call callee args line) t ∧
        ¬ sum.Begins env s k (.call callee args line) t := by
  constructor
  · intro op e p p' q r sameLine short long
    have alike : (Plan.ask short : Plan env Value).Alike (Plan.ask long) :=
      (Plan.alike_compound p).trans (sameLine ▸ (Plan.alike_combined p' q r).symm)
    refine ⟨alike.ends, fun s k callee args line t => ?_⟩
    exact Plan.begins_ask.symm.trans ((alike.calls ..).trans Plan.begins_ask)
  · intro op p p' q s update sum
    refine ⟨fun old bound => ?_, fun unbound => ?_, fun k callee args line t => ?_⟩
    · exact ⟨Job.update_bound p bound, Job.counted_bound p' q bound⟩
    · exact ⟨Job.update_unbound p unbound, Job.counted_unbound p' q unbound⟩
    · exact ⟨Job.update_calls_nothing p, Job.counted_calls_nothing p' q⟩

def textState : State Unit :=
  { State.initial (.plain (.silent Unit)) .standard () with
    bindings := (∅ : Bindings).insert "x" (.text "a") }

theorem combined_while_updated :
    let env : Embedding Unit := .plain (.silent Unit)
    let update := Expr.update .increment "x" .start
    Position.start.line = (⟨1, 5⟩ : Position).line ∧
    textState.bindings["x"]? = some (.text "a") ∧ textState.bindings["y"]? = none ∧
    (∃ t, (Job.expr (.combined .add "x" update .start ⟨1, 5⟩ .start)).Ends env textState
      (.ok .undefined) t ∧ t.bindings["x"]? = some (.text "aa")) ∧
    (Job.expr update).Ends env textState (.ok (.text "a"))
      (textState.counted .increment "x" (.text "a")) ∧
    (Job.expr (.counted .increment "y" .start .start)).Ends env textState
      (.error (.interrupt (.error ⟨1, .undefinedVariable "y"⟩))) textState := by
  intro env update
  have x : textState.bindings["x"]? = some (.text "a") := by simp [textState]
  have y : textState.bindings["y"]? = none := by simp [textState]
  have added : (Job.expr (.compound .add (.variable "x") update .start)).Ends env textState
      (.ok .undefined) _ := Plan.ends_ask.1 (((Plan.alike_compound _).ends ..).2
        (Plan.ends_combine _ x (Job.update_bound .start x)))
  have whole := assignments_abbreviate env "x"
  refine ⟨rfl, x, y, ⟨_, ((whole.1 .add update .start .start ⟨1, 5⟩ .start rfl).1 ..).1 added, ?_⟩,
    ((whole.2 .increment .start .start .start textState).1 _ x).1,
    (((assignments_abbreviate env "y").2 .increment .start .start .start textState).2.1 y).2⟩
  exact Std.HashMap.getElem?_insert_self

theorem update_ne_counted :
    ¬ ∀ (s : State Unit) stop t,
      let env : Embedding Unit := .plain (.silent Unit)
      (Job.expr (.update .increment "y" .start)).Ends env s (.error stop) t ↔
        (Job.expr (.counted .increment "y" .start .start)).Ends env s (.error stop) t := by
  intro h
  have y : textState.bindings["y"]? = none := by simp [textState]
  have failed := (h textState _ textState).2 (Job.counted_unbound .start .start y)
  have updated := Job.ends_update.1 failed
  cases updated

end CanvasScript
