import CanvasScript.Proofs.Grammar.Fuel

namespace CanvasScript.Descent

open Ahead

inductive Mode where
  | program
  | interpolation

def Mode.bareName? : Mode → Option Lexeme → Option String
  | interpolation, some (.name s) => some s
  | _, _ => none

inductive Task where
  | sign (s : Sign) (ts : Ahead)
  | keyword (k : Keyword) (ts : Ahead)
  | name (ts : Ahead)
  | names (ts : Ahead)
  | expr (ts : Ahead)
  | chain (level : Level) (ts : Ahead)
  | chainRest (level : Level) (left : Expr) (ts : Ahead)
  | operand (level : Level) (ts : Ahead)
  | unary (ts : Ahead)
  | postfixed (ts : Ahead)
  | accesses (e : Expr) (ts : Ahead)
  | primary (ts : Ahead)
  | items (closing : Sign) (ts : Ahead)
  | itemsRest (closing : Sign) (ts : Ahead)
  | properties (ts : Ahead)
  | propertiesRest (ts : Ahead)
  | stmt (inLoop : Bool) (ts : Ahead)
  | block (inLoop : Bool) (closing : List Keyword) (ts : Ahead)
  | branches (inLoop : Bool) (ts : Ahead)
  | otherwise (inLoop : Bool) (ts : Ahead)

namespace Task

@[reducible]
def Value : Task → Type
  | sign _ _ | keyword _ _ => Unit
  | name _ => String
  | names _ => List String
  | expr _ | chain _ _ | chainRest _ _ _ | operand _ _ | unary _ | postfixed _ | accesses _ _
  | primary _ => Expr
  | items _ _ | itemsRest _ _ => List Expr
  | properties _ | propertiesRest _ => List (String × Expr)
  | stmt _ _ => Stmt
  | block _ _ _ => List Stmt
  | branches _ _ => List (Expr × List Stmt)
  | otherwise _ _ => Option (List Stmt)

@[reducible]
def Result (t : Task) : Type := t.Value × Ahead

def run (n : Nat) : (t : Task) → Except Diagnostic t.Result
  | sign s ts => (ts.expectSign s).map fun us => ((), us)
  | keyword k ts => (ts.expectKeyword k).map fun us => ((), us)
  | name ts => ts.expectName
  | names ts => Parse.names (ts.length + 1) ts
  | expr ts => Parse.expr n ts
  | chain level ts => Parse.chain n level ts
  | chainRest level left ts => Parse.chainRest n level left ts
  | operand level ts => Parse.operand n level ts
  | unary ts => Parse.unary n ts
  | postfixed ts => Parse.postfixed n ts
  | accesses e ts => Parse.accesses n e ts
  | primary ts => Parse.primary n ts
  | items closing ts => Parse.items n closing ts
  | itemsRest closing ts => Parse.itemsRest n closing ts
  | properties ts => Parse.properties n ts
  | propertiesRest ts => Parse.propertiesRest n ts
  | stmt inLoop ts => Parse.stmt n inLoop ts
  | block inLoop closing ts => Parse.block n inLoop closing ts
  | branches inLoop ts => Parse.branches n inLoop ts
  | otherwise inLoop ts => Parse.otherwise n inLoop ts

end Task

inductive Refusal where
  | missing (ts : Ahead) (what : Expectation)
  | refused (ts : Ahead) (d : Diagnostic)

def Refusal.diagnostic : Refusal → Diagnostic
  | missing ts what => ⟨.expected what ts.head?, ts.position⟩
  | refused _ d => d

inductive Work (α : Type) where
  | done (a : α)
  | stop (r : Refusal)
  | ask (t : Task) (next : t.Result → Work α)

namespace Work

variable {α β : Type}

def bind : Work α → (α → Work β) → Work β
  | done a, f => f a
  | stop r, _ => stop r
  | ask t next, f => ask t fun r => (next r).bind f

instance : Monad Work where
  pure := done
  bind := bind

def task (t : Task) : Work t.Result := ask t done

def missing (ts : Ahead) (what : Expectation) : Work α := stop (.missing ts what)

def refused (ts : Ahead) (problem : Problem) (p : Position) : Work α :=
  stop (.refused ts ⟨problem, p⟩)

def run (rec : (t : Task) → Except Diagnostic t.Result) : Work α → Except Diagnostic α
  | done a => .ok a
  | stop r => .error r.diagnostic
  | ask t next => rec t >>= fun r => (next r).run rec

section

variable (rec : (t : Task) → Except Diagnostic t.Result)

@[simp] theorem run_pure (a : α) : (pure a : Work α).run rec = .ok a := rfl

-- the type of the result is computed from the task, so it is no key to find the lemma by
@[simp] theorem run_task (t : Task) : @Work.run (no_index t.Result) rec (task t) = rec t := by
  show (rec t >>= fun r => Except.ok r) = rec t
  cases rec t <;> rfl

@[simp] theorem run_bind (x : Work α) (f : α → Work β) :
    (x >>= f).run rec = x.run rec >>= fun a => (f a).run rec := by
  induction x with
  | done a => rfl
  | stop r => rfl
  | ask t next ih =>
    show (rec t >>= fun r => ((next r) >>= f).run rec) = _
    simp only [ih, run]
    cases rec t <;> rfl

@[simp] theorem run_ite (c : Prop) [Decidable c] (x y : Work α) :
    (if c then x else y).run rec = if c then x.run rec else y.run rec := by
  split <;> rfl

@[simp] theorem run_missing (ts : Ahead) (what : Expectation) :
    (missing ts what : Work α).run rec = ts.fail what := rfl

@[simp] theorem run_refused (ts : Ahead) (problem : Problem) (p : Position) :
    (refused ts problem p : Work α).run rec = .error ⟨problem, p⟩ := rfl

end

end Work

open Work

def passSign (s : Sign) (ts : Ahead) : Work Ahead := do
  let r ← task (.sign s ts)
  return r.2

def passKeyword (k : Keyword) (ts : Ahead) : Work Ahead := do
  let r ← task (.keyword k ts)
  return r.2

def close (ts : Ahead) : Work Ahead := do
  let us ← passKeyword .end_ ts
  return us.skipSemicolon

def params (ts : Ahead) : Work (List String × Ahead) :=
  if ts.startsWith (Lexeme.isSign .rightParen) then return ([], ts) else task (.names ts)

def condition (ts : Ahead) : Work (Expr × Ahead) := do
  let us ← passSign .leftParen ts
  let r ← task (.expr us)
  let us ← passSign .rightParen r.2
  return (r.1, us.skipSemicolon)

def returned (ts : Ahead) : Work (Option Expr × Ahead) :=
  if ts.head?.all Lexeme.endsReturn then return (none, ts)
  else do
    let r ← task (.expr ts)
    return (some r.1, r.2)

def valued (key : String) (ts : Ahead) : Work (List (String × Expr) × Ahead) := do
  let us ← passSign .colon ts
  let value ← task (.expr us)
  if value.2.startsWith (Lexeme.isSign .comma) then
    let others ← task (.propertiesRest value.2.rest)
    return ((key, value.1) :: others.1, others.2)
  else
    let us ← passSign .rightBrace value.2
    return ([(key, value.1)], us)

def plan (mode : Mode) : (t : Task) → Work t.Result
  | .sign s ts =>
    if ts.startsWith (Lexeme.isSign s) then return ((), ts.rest)
    else missing ts (.lexeme (.sign s))
  | .keyword k ts =>
    if ts.startsWith (Lexeme.isKeyword k) then return ((), ts.rest)
    else missing ts (.lexeme (.keyword k))
  | .name ts =>
    match ts.head? with
    | some (.name s) => return (s, ts.rest)
    | _ => missing ts .identifier
  | .names ts => do
    let first ← task (.name ts)
    if first.2.startsWith (Lexeme.isSign .comma) then
      let others ← task (.names first.2.rest)
      return (first.1 :: others.1, others.2)
    else return ([first.1], first.2)
  | .expr ts => do
    let left ← task (.chain .or ts)
    match left.2.head?.bind Lexeme.assignment? with
    | none => return left
    | some op => do
      let value ← task (.expr left.2.rest)
      match left.1.target? with
      | none => refused value.2 .invalidAssignmentTarget left.1.position
      | some target =>
        match op with
        | none => return (.assign target value.1 left.1.position, value.2)
        | some op => return (.compound op target value.1 left.1.position, value.2)
  | .chain level ts => do
    let left ← task (.operand level ts)
    task (.chainRest level left.1 left.2)
  | .chainRest level left ts =>
    match ts.head?.bind level.operator? with
    | none => return (left, ts)
    | some op => do
      let right ← task (.operand level ts.rest)
      task (.chainRest level (.binary op left right.1 left.position) right.2)
  | .operand level ts =>
    match level.tighter? with
    | some tighter => task (.chain tighter ts)
    | none => task (.unary ts)
  | .unary ts =>
    match ts.head?.bind Lexeme.unaryOp? with
    | none => task (.postfixed ts)
    | some op => do
      let inner ← task (.unary ts.rest)
      return (.unary op inner.1 ts.position, inner.2)
  | .postfixed ts => do
    let first ← task (.primary ts)
    let e ← task (.accesses first.1 first.2)
    match e.2.head?.bind Lexeme.updateOp? with
    | none => return e
    | some (op, sign) =>
      match e.1 with
      | .variable name p => return (.update op name p, e.2.rest)
      | _ => refused e.2 (.invalidUpdateTarget sign e.1.position) e.2.position
  | .accesses e ts =>
    match ts.head? with
    | some (.sign .dot) => do
      let property ← task (.name ts.rest)
      task (.accesses (.member e property.1 e.position) property.2)
    | some (.sign .leftBracket) => do
      let index ← task (.expr ts.rest)
      let us ← passSign .rightBracket index.2
      task (.accesses (.index e index.1 e.position) us)
    | some (.sign .leftParen) => do
      let args ← task (.items .rightParen ts.rest)
      task (.accesses (.call e args.1 e.position) args.2)
    | _ => return (e, ts)
  | .primary ts =>
    match mode.bareName? ts.head? with
    | some s => return (.variable s ts.position, ts.rest)
    | none =>
      match ts.head? with
      | some (.name s) => return (.variable s ts.position, ts.rest)
      | some (.sign .dollar) => do
        let name ← task (.name ts.rest)
        return (.variable name.1 ts.position, name.2)
      | some (.sign .leftBracket) => do
        let es ← task (.items .rightBracket ts.rest)
        return (.array es.1 ts.position, es.2)
      | some (.sign .leftBrace) => do
        let ps ← task (.properties ts.rest)
        return (.object (Fields.ofList ps.1).entries ts.position, ps.2)
      | some (.sign .leftParen) => do
        let e ← task (.expr ts.rest)
        let us ← passSign .rightParen e.2
        return (e.1, us)
      | head =>
        match head.bind Lexeme.literal? with
        | some l => return (.literal l ts.position, ts.rest)
        | none => missing ts .expression
  | .items closing ts =>
    if ts.startsWith (Lexeme.isSign closing) then return ([], ts.rest)
    else task (.itemsRest closing ts)
  | .itemsRest closing ts => do
    let e ← task (.expr ts)
    if e.2.startsWith (Lexeme.isSign .comma) then
      let es ← task (.itemsRest closing e.2.rest)
      return (e.1 :: es.1, es.2)
    else
      let us ← passSign closing e.2
      return ([e.1], us)
  | .properties ts =>
    if ts.startsWith (Lexeme.isSign .rightBrace) then return ([], ts.rest)
    else task (.propertiesRest ts)
  | .propertiesRest ts =>
    match ts.head? with
    | some (.text s) => valued s ts.rest
    | some (.name s) => valued s ts.rest
    | _ => missing ts .propertyName
  | .stmt inLoop ts =>
    match ts.head? with
    | some (.keyword .if_) => do
      let c ← condition ts.rest
      let body ← task (.block inLoop [.elseif, .else_, .end_] c.2)
      let elseifs ← task (.branches inLoop body.2)
      let otherwise ← task (.otherwise inLoop elseifs.2)
      let us ← close otherwise.2
      return (.branch c.1 body.1 elseifs.1 otherwise.1 ts.position, us)
    | some (.keyword .while_) => do
      let c ← condition ts.rest
      let body ← task (.block true [.end_] c.2)
      let us ← close body.2
      return (.while_ c.1 body.1 ts.position, us)
    | some (.keyword .for_) => do
      let us ← passSign .leftParen ts.rest
      let counter ← task (.name us)
      let us ← passSign .comma counter.2
      let count ← task (.expr us)
      let us ← passSign .rightParen count.2
      let body ← task (.block true [.end_] us.skipSemicolon)
      let us ← close body.2
      return (.for_ counter.1 count.1 body.1 ts.position, us)
    | some (.keyword .function) => do
      let name ← task (.name ts.rest)
      let us ← passSign .leftParen name.2
      let ps ← params us
      let us ← passSign .rightParen ps.2
      let body ← task (.block inLoop [.end_] us.skipSemicolon)
      let us ← close body.2
      return (.function name.1 ps.1 body.1 ts.position, us)
    | some (.keyword .return_) => do
      let value ← returned ts.rest
      return (.return_ value.1 ts.position, value.2.skipSemicolon)
    | some (.keyword .break_) =>
      if inLoop then return (.break_ ts.position, ts.rest.skipSemicolon)
      else refused ts .breakOutsideLoop ts.position
    | some (.keyword .continue_) =>
      if inLoop then return (.continue_ ts.position, ts.rest.skipSemicolon)
      else refused ts .continueOutsideLoop ts.position
    | _ => do
      let e ← task (.expr ts)
      return (.expr e.1, e.2.skipSemicolon)
  | .block inLoop closing ts =>
    match ts.head? with
    | none => return ([], ts)
    | some l =>
      if closing.any (Lexeme.isKeyword · l) then return ([], ts)
      else do
        let s ← task (.stmt inLoop ts)
        let others ← task (.block inLoop closing s.2)
        return (s.1 :: others.1, others.2)
  | .branches inLoop ts =>
    if ts.startsWith (Lexeme.isKeyword .elseif) then do
      let c ← condition ts.rest
      let body ← task (.block inLoop [.elseif, .else_, .end_] c.2)
      let others ← task (.branches inLoop body.2)
      return ((c.1, body.1) :: others.1, others.2)
    else return ([], ts)
  | .otherwise inLoop ts =>
    if ts.startsWith (Lexeme.isKeyword .else_) then do
      let body ← task (.block inLoop [.end_] ts.rest.skipSemicolon)
      return (some body.1, body.2)
    else return (none, ts)

section Runs

variable {mode : Mode} {n : Nat}

@[simp] theorem run_passSign (n : Nat) (s : Sign) (ts : Ahead) :
    (passSign s ts).run (Task.run n) = ts.expectSign s := by
  simp only [passSign, run_bind, run_task, run_pure, Task.run]
  cases ts.expectSign s <;> rfl

@[simp] theorem run_passKeyword (n : Nat) (k : Keyword) (ts : Ahead) :
    (passKeyword k ts).run (Task.run n) = ts.expectKeyword k := by
  simp only [passKeyword, run_bind, run_task, run_pure, Task.run]
  cases ts.expectKeyword k <;> rfl

@[simp] theorem run_close (n : Nat) (ts : Ahead) :
    (close ts).run (Task.run n) = Parse.close ts := by
  simp only [close, run_bind, run_passKeyword, run_pure, Parse.close]
  rfl

@[simp] theorem run_params (n : Nat) (ts : Ahead) :
    (params ts).run (Task.run n) = Parse.params ts := by
  simp only [params, run_ite, run_pure, run_task, Task.run, Parse.params, Ahead.length]

@[simp] theorem run_condition (n : Nat) (ts : Ahead) :
    (condition ts).run (Task.run n) = Parse.condition n ts := by
  simp only [condition, run_bind, run_passSign, run_task, run_pure, Task.run, Parse.condition]
  rfl

@[simp] theorem run_returned (n : Nat) (ts : Ahead) :
    (returned ts).run (Task.run n) = Parse.returned n ts := by
  simp only [returned, run_ite, run_bind, run_task, run_pure, Task.run, Parse.returned]
  rfl

@[simp] theorem run_valued (n : Nat) (key : String) (ts : Ahead) :
    (valued key ts).run (Task.run n) = Parse.valued n key ts := by
  simp only [valued, run_ite, run_bind, run_passSign, run_task, run_pure, Task.run, Parse.valued]
  rfl

theorem run_names (ts : Ahead) :
    (plan mode (.names ts)).run (Task.run n) = Parse.names (ts.length + 1) ts := by
  simp only [plan, run_ite, run_bind, run_task, run_pure, Task.run, Parse.names]
  refine Parse.bind_rest_congr fun x us hx => ?_
  have shorter := length_expectName hx
  dsimp only at shorter ⊢
  split
  · rename_i comma
    have rest := length_rest_lt_of_startsWith comma
    rw [Parse.names_eq (Nat.lt_succ_self us.rest.length) (by omega)]
    rfl
  · rfl

theorem run_expr (ts : Ahead) :
    (plan mode (.expr ts)).run (Task.run n) = Parse.expr (n + 1) ts := by
  simp only [plan, run_bind, run_task, Task.run, Parse.expr]
  refine Parse.bind_congr fun left _ => ?_
  cases left.2.head?.bind Lexeme.assignment? with
  | none => rfl
  | some op =>
    simp only [run_bind, run_task, Task.run]
    refine Parse.bind_congr fun value _ => ?_
    cases left.1.target? with
    | none => rfl
    | some target => cases op <;> rfl

theorem run_postfixed (ts : Ahead) :
    (plan mode (.postfixed ts)).run (Task.run n) = Parse.postfixed (n + 1) ts := by
  simp only [plan, run_bind, run_task, Task.run, Parse.postfixed]
  refine Parse.bind_congr fun first _ => Parse.bind_congr fun e _ => ?_
  cases e.2.head?.bind Lexeme.updateOp? with
  | none => rfl
  | some op =>
    obtain ⟨e, us⟩ := e
    cases e <;> rfl

theorem run_accesses (e : Expr) (ts : Ahead) :
    (plan mode (.accesses e ts)).run (Task.run n) = Parse.accesses (n + 1) e ts := by
  rw [plan, Parse.accesses]
  generalize ts.head? = head
  cases head with
  | none => rfl
  | some l =>
    cases l with
    | sign s =>
      cases s
      case dot | leftBracket | leftParen =>
        simp only [run_bind, run_task, run_passSign, Task.run]
      all_goals rfl
    | _ => rfl

theorem Mode.name_of_bareName? {head : Option Lexeme} {s : String}
    (h : mode.bareName? head = some s) : head = some (.name s) := by
  unfold Mode.bareName? at h
  split at h
  · cases h
    rfl
  · cases h

theorem run_primary (ts : Ahead) :
    (plan mode (.primary ts)).run (Task.run n) = Parse.primary (n + 1) ts := by
  rw [plan, Parse.primary]
  generalize ts.head? = head
  cases head with
  | none => cases mode <;> rfl
  | some l =>
    cases l with
    | sign s =>
      have noName : mode.bareName? (some (.sign s)) = none := by cases mode <;> rfl
      simp only [noName]
      cases s
      case dollar | leftBracket | leftBrace | leftParen =>
        simp only [run_bind, run_task, run_passSign, run_pure, Task.run]
        rfl
      all_goals rfl
    | keyword k => cases mode <;> cases k <;> rfl
    | _ => cases mode <;> rfl

theorem run_stmt (inLoop : Bool) (ts : Ahead) :
    (plan mode (.stmt inLoop ts)).run (Task.run n) = Parse.stmt (n + 1) inLoop ts := by
  rw [plan, Parse.stmt]
  generalize ts.head? = head
  have expression : Work.run (Task.run n)
      (do let e ← task (.expr ts); return (Stmt.expr e.1, e.2.skipSemicolon)) =
      do let r ← Parse.expr n ts; return (Stmt.expr r.1, r.2.skipSemicolon) := by
    simp only [run_bind, run_task, run_pure, Task.run]
    rfl
  cases head with
  | none => exact expression
  | some l =>
    cases l with
    | keyword k =>
      cases k
      case if_ | while_ | for_ | function | return_ =>
        simp only [run_bind, run_task, run_passSign, run_condition, run_close, run_params,
          run_returned, run_pure, Task.run]
        rfl
      case break_ | continue_ => simp only [run_ite, run_pure, run_refused]
      all_goals exact expression
    | _ => exact expression

theorem run_plan (t : Task) : (plan mode t).run (Task.run n) = t.run (n + 1) := by
  cases t with
  | sign s ts =>
    simp only [plan, run_ite, run_pure, run_missing, Task.run, expectSign]
    split <;> rfl
  | keyword k ts =>
    simp only [plan, run_ite, run_pure, run_missing, Task.run, expectKeyword]
    split <;> rfl
  | name ts =>
    rw [plan, Task.run, expectName]
    generalize ts.head? = head
    cases head with
    | none => rfl
    | some l => cases l <;> rfl
  | names ts => exact run_names ts
  | expr ts => exact run_expr ts
  | chain level ts => simp only [plan, run_bind, run_task, Task.run, Parse.chain]
  | chainRest level left ts =>
    rw [plan, Task.run, Parse.chainRest]
    cases ts.head?.bind level.operator? with
    | none => rfl
    | some op => simp only [run_bind, run_task, Task.run]
  | operand level ts =>
    rw [plan, Task.run, Parse.operand]
    cases level.tighter? with
    | none => exact run_task _ _
    | some tighter => exact run_task _ _
  | unary ts =>
    rw [plan, Task.run, Parse.unary]
    cases ts.head?.bind Lexeme.unaryOp? with
    | none => exact run_task _ _
    | some op =>
      simp only [run_bind, run_task, run_pure, Task.run]
      rfl
  | postfixed ts => exact run_postfixed ts
  | accesses e ts => exact run_accesses e ts
  | primary ts => exact run_primary ts
  | items closing ts => simp only [plan, run_ite, run_pure, run_task, Task.run, Parse.items]
  | itemsRest closing ts =>
    simp only [plan, run_bind, run_task, run_ite, run_passSign, run_pure, Task.run, Parse.itemsRest]
    rfl
  | properties ts => simp only [plan, run_ite, run_pure, run_task, Task.run, Parse.properties]
  | propertiesRest ts =>
    rw [plan, Task.run, Parse.propertiesRest]
    generalize ts.head? = head
    cases head with
    | none => rfl
    | some l =>
      cases l with
      | text s => exact run_valued n s ts.rest
      | name s => exact run_valued n s ts.rest
      | _ => rfl
  | stmt inLoop ts => exact run_stmt inLoop ts
  | block inLoop closing ts =>
    rw [plan, Task.run, Parse.block]
    cases ts.head? with
    | none => rfl
    | some l =>
      simp only [run_ite, run_bind, run_task, run_pure, Task.run]
      rfl
  | branches inLoop ts =>
    simp only [plan, run_ite, run_bind, run_task, run_condition, run_pure, Task.run, Parse.branches]
    rfl
  | otherwise inLoop ts =>
    simp only [plan, run_ite, run_bind, run_task, run_pure, Task.run, Parse.otherwise]
    rfl

end Runs

end CanvasScript.Descent
