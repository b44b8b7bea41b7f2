import CanvasScript.Run

namespace CanvasScript

structure Framed (σ : Type) where
  frame : Bindings
  state : State σ

def Framed.parameters : List String → List Value → Bindings
  | [], _ => ∅
  | p :: ps, args => (parameters ps args.tail).insert p (args.headD .undefined)

def Local (σ α : Type) : Type := Framed σ → Except Stop α × Framed σ

namespace Local

variable {σ α β : Type}

protected def pure (a : α) : Local σ α := fun t => (.ok a, t)

protected def bind (x : Local σ α) (f : α → Local σ β) : Local σ β := fun t =>
  match x t with
  | (.ok a, t) => f a t
  | (.error e, t) => (.error e, t)

instance : Monad (Local σ) where
  pure := Local.pure
  bind := Local.bind

theorem bind_apply (x : Local σ α) (f : α → Local σ β) (t : Framed σ) :
    (x >>= f) t = match x t with
      | (.ok a, t) => f a t
      | (.error e, t) => (.error e, t) := rfl

def global (x : Action σ α) : Local σ α := fun t =>
  ((x t.state).1, { t with state := (x t.state).2 })

def loopBody (body : Local σ Unit) : Local σ Bool := fun t =>
  match body t with
  | (.ok (), t) => (.ok true, t)
  | (.error (.interrupt .continue_), t) => (.ok true, t)
  | (.error (.interrupt .break_), t) => (.ok false, t)
  | (.error e, t) => (.error e, t)

def lookup (name : String) (t : Framed σ) : Option Value :=
  t.frame[name]?.or t.state.bindings[name]?

def assign (name : String) (v : Value) (t : Framed σ) : Framed σ :=
  if t.frame.contains name then { t with frame := t.frame.insert name v }
  else { t with state := { t.state with bindings := t.state.bindings.insert name v } }

def setVariable (name : String) (v : Value) : Local σ Unit := fun t => (.ok (), assign name v t)

def variable_ (name : String) (line : Nat) : Local σ Value := fun t =>
  match lookup name t with
  | some v => (.ok v, t)
  | none => global (Action.fail line (.undefinedVariable name)) t

def readPlace (p : Place) (line : Nat) : Local σ Value :=
  match p with
  | .variable name => variable_ name line
  | p => global (Action.readPlace p line)

def writePlace (p : Place) (v : Value) (line : Nat) : Local σ Unit :=
  match p with
  | .variable name => setVariable name v
  | p => global (Action.writePlace p v line)

def update (op : UpdateOp) (name : String) : Local σ Value := fun t =>
  let old := (lookup name t).getD .undefined
  (.ok old, assign name (Value.arith t.state.heap op.step old (.number (Number.ofNat 1))) t)

def callFunction (f : Function) (args : List Value) (line : Nat) (body : Local σ Unit) :
    Local σ Value := fun t =>
  if t.state.maxCallDepth ≤ t.state.depth then
    global (Action.fail line (.callDepth f.decl.name t.state.depth)) t
  else
    let (outcome, u) := body
      ⟨Framed.parameters f.decl.params args, { t.state with depth := t.state.depth + 1 }⟩
    (Evaluator.callResult outcome, ⟨t.frame, { u.state with depth := u.state.depth - 1 }⟩)

variable (host : Host σ)

mutual

def block : Nat → Nat → List Stmt → Local σ Unit
  | 0, _, _ => global Action.outOfFuel
  | _ + 1, _, [] => pure ()
  | n + 1, unit, s :: rest => do
    stmt n unit s
    block n unit rest

def stmt : Nat → Nat → Stmt → Local σ Unit
  | 0, _, _ => global Action.outOfFuel
  | n + 1, unit, s =>
    match s with
    | .function name params body p =>
      setVariable name (.function ⟨unit, ⟨name, params, body, p⟩⟩)
    | .return_ none _ => global (Action.interrupt (.returned .null))
    | .return_ (some e) _ => do
      let v ← expr n e
      global (Action.interrupt (.returned v))
    | .branch c body elseifs otherwise _ => branches n unit ((c, body) :: elseifs) otherwise
    | .while_ c body _ => whileLoop n unit c body
    | .for_ counter count body _ => do
      let v ← expr n count
      let count ← global (Action.onHeap fun h => Number.countBelow (v.toNumber h))
      forLoop n unit counter count body 0
    | .break_ _ => global (Action.interrupt .break_)
    | .continue_ _ => global (Action.interrupt .continue_)
    | .expr e => do
      let _ ← expr n e

def branches : Nat → Nat → List (Expr × List Stmt) → Option (List Stmt) → Local σ Unit
  | 0, _, _, _ => global Action.outOfFuel
  | _ + 1, _, [], none => pure ()
  | n + 1, unit, [], some body => block n unit body
  | n + 1, unit, (c, body) :: rest, otherwise => do
    let v ← expr n c
    if v.truthy then block n unit body else branches n unit rest otherwise

def whileLoop : Nat → Nat → Expr → List Stmt → Local σ Unit
  | 0, _, _, _ => global Action.outOfFuel
  | n + 1, unit, c, body => do
    let v ← expr n c
    if v.truthy then
      let goesOn ← loopBody (block n unit body)
      if goesOn then whileLoop n unit c body else pure ()
    else pure ()

def forLoop : Nat → Nat → String → Nat → List Stmt → Nat → Local σ Unit
  | 0, _, _, _, _, _ => global Action.outOfFuel
  | n + 1, unit, counter, count, body, k =>
    if k < count then do
      setVariable counter (.number (Number.ofNat k))
      let goesOn ← loopBody (block n unit body)
      if goesOn then forLoop n unit counter count body (Evaluator.nextCount k) else pure ()
    else pure ()

def expr : Nat → Expr → Local σ Value
  | 0, _ => global Action.outOfFuel
  | n + 1, e =>
    match e with
    | .literal (.text s) p =>
      if Evaluator.mayHoldMarker s then do
        let t ← interpolated n p (Marker.segments s) ""
        return .text t
      else return .text s
    | .literal l _ => return Evaluator.literal l
    | .variable name p => variable_ name p.line
    | .assign target value p => do
      let v ← expr n value
      let place ← place n target
      writePlace place v p.line
      return .undefined
    | .compound op target value p => do
      let place ← place n target
      let old ← readPlace place p.line
      let v ← expr n value
      let new ← global (Action.onHeap fun h => Value.arith h op old v)
      writePlace place new p.line
      return .undefined
    | .update op name _ => update op name
    | .unary op operand _ => do
      let v ← expr n operand
      global (Action.onHeap fun h => Value.unary h op v)
    | .binary op left right _ => do
      let a ← expr n left
      let b ← expr n right
      global (Action.onHeap fun h => Value.binary h op a b)
    | .call callee args p => do
      let f ← expr n callee
      let vs ← exprs n args
      if f.isCallable then call n f vs p.line
      else global (Action.fail p.line (.notAFunction (Evaluator.calleeName callee f)))
    | .member owner property p => do
      let v ← expr n owner
      readPlace (.member v property) p.line
    | .index owner index p => do
      let v ← expr n owner
      let i ← expr n index
      readPlace (.index v i) p.line
    | .array items _ => do
      let vs ← exprs n items
      global (Action.newArray vs.toArray)
    | .object ps _ => do
      let fields ← properties n ps .empty
      global (Action.newObject fields)

def exprs : Nat → List Expr → Local σ (List Value)
  | 0, _ => global Action.outOfFuel
  | _ + 1, [] => return []
  | n + 1, e :: es => do
    let v ← expr n e
    let vs ← exprs n es
    return v :: vs

def properties : Nat → List (String × Expr) → Fields Value → Local σ (Fields Value)
  | 0, _, _ => global Action.outOfFuel
  | _ + 1, [], fields => return fields
  | n + 1, (key, e) :: rest, fields => do
    let v ← expr n e
    properties n rest (fields.set key v)

def interpolated : Nat → Position → List Segment → String → Local σ String
  | 0, _, _, _ => global Action.outOfFuel
  | _ + 1, _, [], done => return done
  | n + 1, p, .text s :: rest, done => interpolated n p rest (done ++ s)
  | n + 1, p, .expr source :: rest, done =>
    match Marker.parse source p with
    | .error problems => global (Action.fail p.line (.marker source problems))
    | .ok e => do
      let v ← expr n e
      let t ← global (Action.onHeap v.display)
      interpolated n p rest (done ++ t)

def place : Nat → Target → Local σ Place
  | 0, _ => global Action.outOfFuel
  | n + 1, target =>
    match target with
    | .variable name => return .variable name
    | .member owner property => do
      let v ← expr n owner
      return .member v property
    | .index owner index => do
      let v ← expr n owner
      let i ← expr n index
      return .index v i

def call : Nat → Value → List Value → Nat → Local σ Value
  | 0, _, _, _ => global Action.outOfFuel
  | n + 1, callee, args, line =>
    match callee with
    | .function f => callFunction f args line (block n f.unit f.decl.body)
    | .native (.builtin b) => global (Action.attributed line (b.call host args))
    | .method receiver m => global (Action.callMethod m receiver args line)
    | .native (.custom _ name _) => global (Action.fail line (.notAFunction (.named name)))
    | v => global (Action.fail line (.notAFunction (.ofKind v.kind)))

end

end Local

def Program.runFramed {σ : Type} (p : Program) (host : Host σ) (fuel : Nat) (s : State σ) :
    Ending × State σ :=
  let (outcome, t) := Local.block host fuel p.unit p.statements ⟨∅, { s with depth := 0 }⟩
  (Ending.of outcome, t.state)

end CanvasScript
