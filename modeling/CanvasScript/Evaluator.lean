import CanvasScript.Builtin
import CanvasScript.Marker
import CanvasScript.Place

namespace CanvasScript.Evaluator

variable {σ : Type}

def calleeName (callee : Expr) (v : Value) : CalleeName :=
  match callee with
  | .variable name _ => .named name
  | .member _ property _ => .named property
  | _ => .ofKind v.kind

def literal : Literal → Value
  | .number x => .number x
  | .text s => .text s
  | .bool b => .bool b
  | .null => .null
  | .undefined => .undefined

def mayHoldMarker (s : String) : Bool := s.any (· = '$')

/-- Binds parameters from left to right, missing arguments as undefined. The list holds what each
parameter was bound to right before, the last one first. -/
def bindParams : List String → List Value → Bindings → List (String × Value) →
    Bindings × List (String × Value)
  | [], _, bindings, saved => (bindings, saved)
  | p :: ps, args, bindings, saved =>
    let saved := match bindings[p]? with
      | some v => (p, v) :: saved
      | none => saved
    bindParams ps args.tail (bindings.insert p (args.headD .undefined)) saved

/-- Gives each parameter the value that was saved for it last, or removes it. -/
def restoreParams (params : List String) (saved : List (String × Value)) (bindings : Bindings) :
    Bindings :=
  params.foldl (fun bindings p =>
    match saved.lookup p with
    | some v => bindings.insert p v
    | none => bindings.erase p) bindings

def callResult : Except Stop Unit → Except Stop Value
  | .ok () => .ok .undefined
  | .error (.interrupt (.returned v)) => .ok v
  | .error e => .error e

@[inline]
def callFunction (f : Function) (args : List Value) (line : Nat) (body : Action σ Unit) :
    Action σ Value := fun s =>
  if s.maxCallDepth ≤ s.depth then
    Action.fail line (.callDepth f.decl.name s.depth) s
  else
    let (bindings, saved) := bindParams f.decl.params args s.bindings []
    let (outcome, s) := body { s with bindings := bindings, depth := s.depth + 1 }
    (callResult outcome,
      { s with bindings := restoreParams f.decl.params saved s.bindings, depth := s.depth - 1 })

/-- Adds one to a variable or takes one from it, and gives its old value. An unbound variable
counts as undefined. -/
def update (op : UpdateOp) (name : String) : Action σ Value := fun s =>
  let old := s.bindings[name]?.getD .undefined
  let new := Value.arith s.heap op.step old (.number (Number.ofNat 1))
  (.ok old, { s with bindings := s.bindings.insert name new })

/-- The counter of a loop after `k`; adding one to `2 ^ 53` changes nothing. -/
def nextCount (k : Nat) : Nat := min (k + 1) (Number.pow2 53)

variable (env : Embedding σ)

mutual

/-- Statements one after the other. `unit` tells the functions that they declare from those of
other programs. -/
def block : Nat → Nat → List Stmt → Action σ Unit
  | 0, _, _ => Action.outOfFuel
  | _ + 1, _, [] => pure ()
  | n + 1, unit, s :: rest => do
    stmt n unit s
    block n unit rest

def stmt : Nat → Nat → Stmt → Action σ Unit
  | 0, _, _ => Action.outOfFuel
  | n + 1, unit, s =>
    match s with
    | .function name params body p =>
      Action.setVariable name (.function ⟨unit, ⟨name, params, body, p⟩⟩)
    | .return_ none _ => Action.interrupt (.returned .null)
    | .return_ (some e) _ => do
      let v ← expr n e
      Action.interrupt (.returned v)
    | .branch c body elseifs otherwise _ => branches n unit ((c, body) :: elseifs) otherwise
    | .while_ c body _ => whileLoop n unit c body
    | .for_ counter count body _ => do
      let v ← expr n count
      let count ← Action.onHeap fun h => Number.countBelow (v.toNumber h)
      forLoop n unit counter count body 0
    | .break_ _ => Action.interrupt .break_
    | .continue_ _ => Action.interrupt .continue_
    | .expr e => do
      let _ ← expr n e

def branches : Nat → Nat → List (Expr × List Stmt) → Option (List Stmt) → Action σ Unit
  | 0, _, _, _ => Action.outOfFuel
  | _ + 1, _, [], none => pure ()
  | n + 1, unit, [], some body => block n unit body
  | n + 1, unit, (c, body) :: rest, otherwise => do
    let v ← expr n c
    if v.truthy then block n unit body else branches n unit rest otherwise

def whileLoop : Nat → Nat → Expr → List Stmt → Action σ Unit
  | 0, _, _, _ => Action.outOfFuel
  | n + 1, unit, c, body => do
    let v ← expr n c
    if v.truthy then
      let goesOn ← Action.loopBody (block n unit body)
      if goesOn then whileLoop n unit c body else pure ()
    else pure ()

/-- Counts from `k` up to below `count`. The body may change the variable; the count goes on. -/
def forLoop : Nat → Nat → String → Nat → List Stmt → Nat → Action σ Unit
  | 0, _, _, _, _, _ => Action.outOfFuel
  | n + 1, unit, counter, count, body, k =>
    if k < count then do
      Action.setVariable counter (.number (Number.ofNat k))
      let goesOn ← Action.loopBody (block n unit body)
      if goesOn then forLoop n unit counter count body (nextCount k) else pure ()
    else pure ()

def expr : Nat → Expr → Action σ Value
  | 0, _ => Action.outOfFuel
  | n + 1, e =>
    match e with
    | .literal (.text s) p =>
      if mayHoldMarker s then do
        let t ← interpolated n p (Marker.segments s) ""
        return .text t
      else return .text s
    | .literal l _ => return literal l
    | .variable name p => Action.variable_ name p.line
    | .assign target value p => do
      let v ← expr n value
      let place ← place n target
      Action.writePlace place v p.line
      return .undefined
    | .compound op target value p => do
      let place ← place n target
      let old ← Action.readPlace place p.line
      let v ← expr n value
      let new ← Action.onHeap fun h => Value.arith h op old v
      Action.writePlace place new p.line
      return .undefined
    | .update op name _ => update op name
    | .unary op operand _ => do
      let v ← expr n operand
      Action.onHeap fun h => Value.unary h op v
    | .binary op left right _ => do
      let a ← expr n left
      let b ← expr n right
      Action.onHeap fun h => Value.binary h op a b
    | .call callee args p => do
      let f ← expr n callee
      let vs ← exprs n args
      if f.isCallable then call n f vs p.line
      else Action.fail p.line (.notAFunction (calleeName callee f))
    | .member owner property p => do
      let v ← expr n owner
      Action.readPlace (.member v property) p.line
    | .index owner index p => do
      let v ← expr n owner
      let i ← expr n index
      Action.readPlace (.index v i) p.line
    | .array items _ => do
      let vs ← exprs n items
      Action.newArray vs.toArray
    | .object ps _ => do
      let fields ← properties n ps .empty
      Action.newObject fields

def exprs : Nat → List Expr → Action σ (List Value)
  | 0, _ => Action.outOfFuel
  | _ + 1, [] => return []
  | n + 1, e :: es => do
    let v ← expr n e
    let vs ← exprs n es
    return v :: vs

def properties : Nat → List (String × Expr) → Fields Value → Action σ (Fields Value)
  | 0, _, _ => Action.outOfFuel
  | _ + 1, [], fields => return fields
  | n + 1, (key, e) :: rest, fields => do
    let v ← expr n e
    properties n rest (fields.set key v)

/-- The text of segments, behind that of the segments before. A marker's source is read anew each
time. -/
def interpolated : Nat → Position → List Segment → String → Action σ String
  | 0, _, _, _ => Action.outOfFuel
  | _ + 1, _, [], done => return done
  | n + 1, p, .text s :: rest, done => interpolated n p rest (done ++ s)
  | n + 1, p, .expr source :: rest, done =>
    match Marker.parse source p with
    | .error problems => Action.fail p.line (.marker source problems)
    | .ok e => do
      let v ← expr n e
      let t ← Action.onHeap v.display
      interpolated n p rest (done ++ t)

def place : Nat → Target → Action σ Place
  | 0, _ => Action.outOfFuel
  | n + 1, target =>
    match target with
    | .variable name => return .variable name
    | .member owner property => do
      let v ← expr n owner
      return .member v property
    | .index owner index => do
      let v ← expr n owner
      let i ← expr n index
      return .index v i

def call : Nat → Value → List Value → Nat → Action σ Value
  | 0, _, _, _ => Action.outOfFuel
  | n + 1, callee, args, line =>
    match callee with
    | .function f => callFunction f args line (block n f.unit f.decl.body)
    | .native (.builtin b) => Action.attributed line (b.call env.host args)
    | .native (.custom slot name _) =>
      match env.customs[slot]? with
      | some c => Action.attributed line (c.call args)
      | none => Action.fail line (.notAFunction (.named name))
    | .method receiver m => Action.callMethod m receiver args line
    | v => Action.fail line (.notAFunction (.ofKind v.kind))

end

end CanvasScript.Evaluator
