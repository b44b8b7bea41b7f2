import CanvasScript.Proofs.Parameters
import CanvasScript.Run

namespace CanvasScript

variable {σ : Type}

inductive Job where
  | block (unit : Nat) (ss : List Stmt)
  | stmt (unit : Nat) (s : Stmt)
  | branches (unit : Nat) (bs : List (Expr × List Stmt)) (otherwise : Option (List Stmt))
  | whileLoop (unit : Nat) (c : Expr) (body : List Stmt)
  | forLoop (unit : Nat) (counter : String) (count : Nat) (body : List Stmt) (k : Nat)
  | expr (e : Expr)
  | exprs (es : List Expr)
  | properties (ps : List (String × Expr)) (fields : Fields Value)
  | interpolated (p : Position) (segments : List Segment) (done : String)
  | place (target : Target)
  | call (callee : Value) (args : List Value) (line : Nat)

namespace Job

@[reducible]
def Result : Job → Type
  | block _ _ => Unit
  | stmt _ _ => Unit
  | branches _ _ _ => Unit
  | whileLoop _ _ _ => Unit
  | forLoop _ _ _ _ _ => Unit
  | expr _ => Value
  | exprs _ => List Value
  | properties _ _ => Fields Value
  | interpolated _ _ _ => String
  | place _ => Place
  | call _ _ _ => Value

def run (env : Embedding σ) (n : Nat) : (j : Job) → Action σ j.Result
  | block unit ss => Evaluator.block env n unit ss
  | stmt unit s => Evaluator.stmt env n unit s
  | branches unit bs otherwise => Evaluator.branches env n unit bs otherwise
  | whileLoop unit c body => Evaluator.whileLoop env n unit c body
  | forLoop unit counter count body k => Evaluator.forLoop env n unit counter count body k
  | expr e => Evaluator.expr env n e
  | exprs es => Evaluator.exprs env n es
  | properties ps fields => Evaluator.properties env n ps fields
  | interpolated p segments done => Evaluator.interpolated env n p segments done
  | place target => Evaluator.place env n target
  | call callee args line => Evaluator.call env n callee args line

theorem run_zero (env : Embedding σ) (j : Job) (s : State σ) :
    j.run env 0 s = (.error .outOfFuel, s) := by
  cases j <;>
    simp only [run, Evaluator.block, Evaluator.stmt, Evaluator.branches, Evaluator.whileLoop,
      Evaluator.forLoop, Evaluator.expr, Evaluator.exprs, Evaluator.properties,
      Evaluator.interpolated, Evaluator.place, Evaluator.call] <;>
    rfl

end Job

inductive Step (env : Embedding σ) : Type → Type 1 where
  | interrupt {α : Type} (i : Interrupt) : Step env α
  | onHeap {α : Type} (f : Heap → α) : Step env α
  | setVariable (name : String) (v : Value) : Step env Unit
  | update (op : UpdateOp) (name : String) : Step env Value
  | readPlace (p : Place) (line : Nat) : Step env Value
  | writePlace (p : Place) (v : Value) (line : Nat) : Step env Unit
  | newArray (items : Array Value) : Step env Value
  | newObject (fields : Fields Value) : Step env Value
  | callMethod (m : Method) (receiver : Value) (args : List Value) (line : Nat) : Step env Value
  | builtin (b : Builtin) (args : List Value) (line : Nat) : Step env Value
  | custom (c : CustomFunction σ) (hc : c ∈ env.customs) (args : List Value) (line : Nat) :
      Step env Value

namespace Step

variable {env : Embedding σ}

def fail {α : Type} (line : Nat) (f : Failure) : Step env α := interrupt (.error ⟨line, f⟩)

def run {α : Type} : Step env α → Action σ α
  | interrupt i => Action.interrupt i
  | onHeap f => Action.onHeap f
  | setVariable name v => Action.setVariable name v
  | update op name => Evaluator.update op name
  | readPlace p line => Action.readPlace p line
  | writePlace p v line => Action.writePlace p v line
  | newArray items => Action.newArray items
  | newObject fields => Action.newObject fields
  | callMethod m receiver args line => Action.callMethod m receiver args line
  | builtin b args line => Action.attributed line (b.call env.host args)
  | custom c _ args line => Action.attributed line (c.call args)

end Step

inductive Plan (env : Embedding σ) : Type → Type 1 where
  | pure {α : Type} (a : α) : Plan env α
  | step {α : Type} (x : Step env α) : Plan env α
  | ask (j : Job) : Plan env j.Result
  | bind {α β : Type} (x : Plan env α) (f : α → Plan env β) : Plan env β
  | loopBody (body : Plan env Unit) : Plan env Bool
  | inCall (f : Function) (args : List Value) (line : Nat) (body : Plan env Unit) : Plan env Value

namespace Plan

variable {env : Embedding σ}

instance : Monad (Plan env) where
  pure := pure
  bind := bind

def run (rec : (j : Job) → Action σ j.Result) {α : Type} : Plan env α → Action σ α
  | pure a => Pure.pure a
  | step x => x.run
  | ask j => rec j
  | bind x f => x.run rec >>= fun a => (f a).run rec
  | loopBody body => Action.loopBody (body.run rec)
  | inCall f args line body => Evaluator.callFunction f args line (body.run rec)

section

variable (rec : (j : Job) → Action σ j.Result) {α β : Type}

theorem run_bind (x : Plan env α) (f : α → Plan env β) :
    (x >>= f).run rec = x.run rec >>= fun a => (f a).run rec := rfl

theorem run_ite (c : Prop) [Decidable c] (x y : Plan env α) :
    (if c then x else y).run rec = if c then x.run rec else y.run rec := by
  split <;> rfl

end

def entered (f : Function) (args : List Value) (s : State σ) : State σ :=
  { s with
    bindings := (Evaluator.bindParams f.decl.params args s.bindings []).1, depth := s.depth + 1 }

def left (f : Function) (args : List Value) (s : State σ) (r : Except Stop Unit × State σ) :
    Except Stop Value × State σ :=
  (Evaluator.callResult r.1, { r.2 with
    bindings := Evaluator.restoreParams f.decl.params
      (Evaluator.bindParams f.decl.params args s.bindings []).2 r.2.bindings
    depth := r.2.depth - 1 })

theorem run_inCall_refused (rec : (j : Job) → Action σ j.Result) {f : Function} {s : State σ}
    (h : s.maxCallDepth ≤ s.depth) (args : List Value) (line : Nat) (body : Plan env Unit) :
    (inCall f args line body).run rec s =
      (.error (.interrupt (.error ⟨line, .callDepth f.decl.name s.depth⟩)), s) :=
  Evaluator.callFunction_refused h args line _

theorem run_inCall_entered (rec : (j : Job) → Action σ j.Result) {f : Function} {s : State σ}
    (h : ¬ s.maxCallDepth ≤ s.depth) (args : List Value) (line : Nat) (body : Plan env Unit) :
    (inCall f args line body).run rec s = left f args s (body.run rec (entered f args s)) :=
  Evaluator.callFunction_entered h args line _

/-- Begun in the state `s`, the plan asks for the job `j` in the state `t`, with `k` bodies of
script functions entered in between that are still open. -/
def Asks (rec : (j : Job) → Action σ j.Result) {α : Type} (x : Plan env α) (s : State σ) (k : Nat)
    (j : Job) (t : State σ) : Prop :=
  match x with
  | pure _ => False
  | step _ => False
  | ask i => k = 0 ∧ j = i ∧ t = s
  | bind x f => x.Asks rec s k j t ∨ ∃ a u, x.run rec s = (.ok a, u) ∧ (f a).Asks rec u k j t
  | loopBody body => body.Asks rec s k j t
  | inCall f args _ body => s.depth < s.maxCallDepth ∧
      ∃ i, k = i + 1 ∧ body.Asks rec (entered f args s) i j t

end Plan

namespace Job

open Plan (ask step loopBody inCall)

def plan (env : Embedding σ) : (j : Job) → Plan env j.Result
  | block _ [] => return ()
  | block unit (s :: rest) => do
    ask (stmt unit s)
    ask (block unit rest)
  | stmt unit (.function name params body p) =>
    step (.setVariable name (.function ⟨unit, ⟨name, params, body, p⟩⟩))
  | stmt _ (.return_ none _) => step (.interrupt (.returned .null))
  | stmt _ (.return_ (some e) _) => do
    let v : Value ← ask (expr e)
    step (.interrupt (.returned v))
  | stmt unit (.branch c body elseifs otherwise _) =>
    ask (branches unit ((c, body) :: elseifs) otherwise)
  | stmt unit (.while_ c body _) => ask (whileLoop unit c body)
  | stmt unit (.for_ counter count body _) => do
    let v : Value ← ask (expr count)
    let count ← step (.onHeap fun h => Number.countBelow (v.toNumber h))
    ask (forLoop unit counter count body 0)
  | stmt _ (.break_ _) => step (.interrupt .break_)
  | stmt _ (.continue_ _) => step (.interrupt .continue_)
  | stmt _ (.expr e) => do
    let _ ← ask (expr e)
  | branches _ [] none => return ()
  | branches unit [] (some body) => ask (block unit body)
  | branches unit ((c, body) :: rest) otherwise => do
    let v : Value ← ask (expr c)
    if v.truthy then ask (block unit body) else ask (branches unit rest otherwise)
  | whileLoop unit c body => do
    let v : Value ← ask (expr c)
    if v.truthy then
      let goesOn ← loopBody (ask (block unit body))
      if goesOn then ask (whileLoop unit c body) else return ()
    else return ()
  | forLoop unit counter count body k =>
    if k < count then do
      step (.setVariable counter (.number (Number.ofNat k)))
      let goesOn ← loopBody (ask (block unit body))
      if goesOn then ask (forLoop unit counter count body (Evaluator.nextCount k)) else return ()
    else return ()
  | expr (.literal (.text s) p) =>
    if Evaluator.mayHoldMarker s then do
      let t : String ← ask (interpolated p (Marker.segments s) "")
      return .text t
    else return .text s
  | expr (.literal l _) => return Evaluator.literal l
  | expr (.variable name p) => step (.readPlace (.variable name) p.line)
  | expr (.assign target value p) => do
    let v : Value ← ask (expr value)
    let dest : Place ← ask (place target)
    step (.writePlace dest v p.line)
    return .undefined
  | expr (.compound op target value p) => do
    let dest : Place ← ask (place target)
    let old ← step (.readPlace dest p.line)
    let v : Value ← ask (expr value)
    let new ← step (.onHeap fun h => Value.arith h op old v)
    step (.writePlace dest new p.line)
    return .undefined
  | expr (.update op name _) => step (.update op name)
  | expr (.unary op operand _) => do
    let v : Value ← ask (expr operand)
    step (.onHeap fun h => Value.unary h op v)
  | expr (.binary op left right _) => do
    let a : Value ← ask (expr left)
    let b : Value ← ask (expr right)
    step (.onHeap fun h => Value.binary h op a b)
  | expr (.call callee args p) => do
    let f : Value ← ask (expr callee)
    let vs : List Value ← ask (exprs args)
    if f.isCallable then ask (call f vs p.line)
    else step (.fail p.line (.notAFunction (Evaluator.calleeName callee f)))
  | expr (.member owner property p) => do
    let v : Value ← ask (expr owner)
    step (.readPlace (.member v property) p.line)
  | expr (.index owner index p) => do
    let v : Value ← ask (expr owner)
    let i : Value ← ask (expr index)
    step (.readPlace (.index v i) p.line)
  | expr (.array items _) => do
    let vs : List Value ← ask (exprs items)
    step (.newArray vs.toArray)
  | expr (.object ps _) => do
    let fields : Fields Value ← ask (properties ps .empty)
    step (.newObject fields)
  | exprs [] => return []
  | exprs (e :: es) => do
    let v : Value ← ask (expr e)
    let vs : List Value ← ask (exprs es)
    return v :: vs
  | properties [] fields => return fields
  | properties ((key, e) :: rest) fields => do
    let v : Value ← ask (expr e)
    ask (properties rest (fields.set key v))
  | interpolated _ [] done => return done
  | interpolated p (.text s :: rest) done => ask (interpolated p rest (done ++ s))
  | interpolated p (.expr source :: rest) done =>
    match Marker.parse source p with
    | .error problems => step (.fail p.line (.marker source problems))
    | .ok e => do
      let v : Value ← ask (expr e)
      let t ← step (.onHeap v.display)
      ask (interpolated p rest (done ++ t))
  | place (.variable name) => return .variable name
  | place (.member owner property) => do
    let v : Value ← ask (expr owner)
    return .member v property
  | place (.index owner index) => do
    let v : Value ← ask (expr owner)
    let i : Value ← ask (expr index)
    return .index v i
  | call (.function f) args line => inCall f args line (ask (block f.unit f.decl.body))
  | call (.native (.builtin b)) args line => step (.builtin b args line)
  | call (.native (.custom slot name _)) args line =>
    match hc : env.customs[slot]? with
    | some c => step (.custom c (List.mem_of_getElem? hc) args line)
    | none => step (.fail line (.notAFunction (.named name)))
  | call (.method receiver m) args line => step (.callMethod m receiver args line)
  | call v _ line => step (.fail line (.notAFunction (.ofKind v.kind)))

theorem run_plan (env : Embedding σ) (n : Nat) (j : Job) :
    (j.plan env).run (run env n) = j.run env (n + 1) := by
  match j with
  | block _ [] | block _ (_ :: _) => simp only [run, Evaluator.block]; rfl
  | stmt _ (.return_ none _) | stmt _ (.return_ (some _) _) | stmt _ (.function ..)
  | stmt _ (.branch ..) | stmt _ (.while_ ..) | stmt _ (.for_ ..) | stmt _ (.break_ _)
  | stmt _ (.continue_ _) | stmt _ (.expr _) => simp only [run, Evaluator.stmt]; rfl
  | branches _ [] none | branches _ [] (some _) => simp only [run, Evaluator.branches]; rfl
  | branches _ ((_, _) :: _) _ =>
    simp only [run, plan, Plan.run_bind, Plan.run_ite, Evaluator.branches]; rfl
  | whileLoop _ _ _ =>
    simp only [run, plan, Plan.run_bind, Plan.run_ite, Evaluator.whileLoop]; rfl
  | forLoop _ _ _ _ _ =>
    simp only [run, plan, Plan.run_bind, Plan.run_ite, Evaluator.forLoop]; rfl
  | expr (.literal (.text _) _) =>
    simp only [run, plan, Plan.run_bind, Plan.run_ite, Evaluator.expr]; rfl
  | expr (.call ..) => simp only [run, plan, Plan.run_bind, Plan.run_ite, Evaluator.expr]; rfl
  | expr (.literal (.number _) _) | expr (.literal (.bool _) _) | expr (.literal .null _)
  | expr (.literal .undefined _) | expr (.variable ..) | expr (.assign ..) | expr (.compound ..)
  | expr (.update ..) | expr (.unary ..) | expr (.binary ..) | expr (.member ..)
  | expr (.index ..) | expr (.array ..) | expr (.object ..) =>
    simp only [run, Evaluator.expr]; rfl
  | exprs [] | exprs (_ :: _) => simp only [run, Evaluator.exprs]; rfl
  | properties [] _ | properties ((_, _) :: _) _ => simp only [run, Evaluator.properties]; rfl
  | interpolated _ [] _ | interpolated _ (.text _ :: _) _ =>
    simp only [run, Evaluator.interpolated]; rfl
  | interpolated p (.expr source :: _) _ =>
    simp only [run, plan, Evaluator.interpolated]
    cases Marker.parse source p <;> rfl
  | place (.variable _) | place (.member ..) | place (.index ..) =>
    simp only [run, Evaluator.place]; rfl
  | call (.native (.custom slot _ _)) _ _ =>
    simp only [run, plan, Evaluator.call]
    split <;> rename_i h <;> simp only [h] <;> rfl
  | call (.function _) _ _ | call (.native (.builtin _)) _ _ | call (.method ..) _ _
  | call (.number _) _ _ | call (.text _) _ _ | call (.bool _) _ _ | call .null _ _
  | call .undefined _ _ | call (.array _) _ _ | call (.object _) _ _ =>
    simp only [run, Evaluator.call]; rfl

end Job

end CanvasScript
