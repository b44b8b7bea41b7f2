import CanvasScript.Proofs.Grammar.Fuel
import CanvasScript.Proofs.Grammar.Steps

namespace CanvasScript.Parse

variable {α β : Type} {vs : List Token} {f g : Position}

inductive Ended (f : Position) : Except Diagnostic (α × Ahead) → Prop
  | ok (a : α) : Ended f (.ok (a, ⟨[], f⟩))
  | missing (what : Expectation) : Ended f (.error ⟨.expected what none, f⟩)

inductive Tracks (vs : List Token) (f g : Position) :
    Except Diagnostic (α × Ahead) → Except Diagnostic (α × Ahead) → Prop
  | ended {x : Except Diagnostic (α × Ahead)} (y : Except Diagnostic (α × Ahead)) : Ended f x →
      Tracks vs f g x y
  | ok (a : α) (t : Token) (us : List Token) :
      Tracks vs f g (.ok (a, ⟨t :: us, f⟩)) (.ok (a, ⟨t :: (us ++ vs), g⟩))
  | error (d e : Diagnostic) : Tracks vs f g (.error d) (.error e)

structure Telling (p : Ahead → Except Diagnostic (α × Ahead)) : Prop where
  ended : ∀ f, Ended f (p ⟨[], f⟩)
  tracks : ∀ t us vs f g, Tracks vs f g (p ⟨t :: us, f⟩) (p ⟨t :: (us ++ vs), g⟩)

theorem Ended.bind {x : Except Diagnostic (α × Ahead)}
    {k : α × Ahead → Except Diagnostic (β × Ahead)} (hx : Ended f x)
    (hk : ∀ a, Telling fun ts => k (a, ts)) : Ended f (x >>= k) := by
  cases hx with
  | ok a => exact (hk a).ended f
  | missing what => exact .missing what

theorem Ended.bind_error {x : Except Diagnostic (α × Ahead)} (hx : Ended f x)
    (h : ∀ r, x ≠ .ok r) (d : Diagnostic) :
    Ended f (x >>= fun _ => (.error d : Except Diagnostic (β × Ahead))) := by
  cases hx with
  | ok a => exact absurd rfl (h _)
  | missing what => exact .missing what

theorem Tracks.bind {x y : Except Diagnostic (α × Ahead)}
    {k : α × Ahead → Except Diagnostic (β × Ahead)} (h : Tracks vs f g x y)
    (hk : ∀ a, Telling fun ts => k (a, ts)) : Tracks vs f g (x >>= k) (y >>= k) := by
  cases h with
  | ended y hx => exact .ended _ (hx.bind hk)
  | ok a t us => exact (hk a).tracks t us vs f g
  | error d e => exact .error d e

theorem Tracks.bind_error {x y : Except Diagnostic (α × Ahead)} (h : Tracks vs f g x y)
    (d : Diagnostic) :
    Tracks vs f g (x >>= fun _ => (.error d : Except Diagnostic (β × Ahead)))
      (y >>= fun _ => .error d) := by
  have fails : ∃ e, (y >>= fun _ => (.error d : Except Diagnostic (β × Ahead))) = .error e := by
    cases y with
    | ok r => exact ⟨d, rfl⟩
    | error e => exact ⟨e, rfl⟩
  obtain ⟨e, he⟩ := fails
  rw [he]
  cases h with
  | ended y hx =>
    cases hx with
    | ok a => exact .error d e
    | missing what => exact .ended _ (.missing what)
  | ok a t us => exact .error d e
  | error d' e' => exact .error d' e

namespace Telling

variable {p q : Ahead → Except Diagnostic (α × Ahead)}

theorem on (hp : Telling p) (us vs : List Token) (f g : Position) :
    Tracks vs f g (p ⟨us, f⟩) (p ⟨us ++ vs, g⟩) := by
  cases us with
  | nil => exact .ended _ (hp.ended f)
  | cons t us => exact hp.tracks t us vs f g

theorem ok (a : α) : Telling fun ts => .ok (a, ts) :=
  ⟨fun _ => .ok a, fun t us _ _ _ => .ok a t us⟩

theorem fail (what : Expectation) : Telling fun ts => (ts.fail what : Except _ (α × Ahead)) :=
  ⟨fun _ => .missing what, fun _ _ _ _ _ => .error _ _⟩

theorem bind {k : α × Ahead → Except Diagnostic (β × Ahead)} (hp : Telling p)
    (hk : ∀ a, Telling fun ts => k (a, ts)) : Telling fun ts => p ts >>= k :=
  ⟨fun f => (hp.ended f).bind hk, fun t us vs f g => (hp.tracks t us vs f g).bind hk⟩

theorem bind_error (hp : Telling p) (h : ∀ f r, p ⟨[], f⟩ ≠ .ok r) (d : Diagnostic) :
    Telling fun ts => p ts >>= fun _ => (.error d : Except Diagnostic (β × Ahead)) :=
  ⟨fun f => (hp.ended f).bind_error (h f) d,
    fun t us vs f g => (hp.tracks t us vs f g).bind_error d⟩

theorem map (hp : Telling p) (h : α → β) : Telling fun ts => p ts >>= fun r => .ok (h r.1, r.2) :=
  hp.bind fun a => ok (h a)

theorem ifStartsWith {l : Lexeme → Bool} (hp : Telling p) (hq : Telling q) :
    Telling fun ts => if ts.startsWith l then p ts.rest else q ts := by
  refine ⟨fun f => hq.ended f, fun t us vs f g => ?_⟩
  by_cases h : l t.lexeme
  · simp only [startsWith_cons, rest_cons, h, if_true]
    exact hp.on us vs f g
  · simp only [startsWith_cons, h]
    exact hq.tracks t us vs f g

theorem expectSign {s : Sign} (hp : Telling p) : Telling fun ts => ts.expectSign s >>= p := by
  refine ⟨fun f => .missing _, fun t us vs f g => ?_⟩
  by_cases h : t.lexeme.isSign s
  · simp only [Ahead.expectSign, startsWith_cons, rest_cons, h, if_true]
    exact hp.on us vs f g
  · simp only [Ahead.expectSign, startsWith_cons, h]
    exact .error _ _

theorem expectKeyword {k : Keyword} (hp : Telling p) :
    Telling fun ts => ts.expectKeyword k >>= p := by
  refine ⟨fun f => .missing _, fun t us vs f g => ?_⟩
  by_cases h : t.lexeme.isKeyword k
  · simp only [Ahead.expectKeyword, startsWith_cons, rest_cons, h, if_true]
    exact hp.on us vs f g
  · simp only [Ahead.expectKeyword, startsWith_cons, h]
    exact .error _ _

theorem expectName : Telling Ahead.expectName := by
  refine ⟨fun f => .missing _, fun t us vs f g => ?_⟩
  simp only [Ahead.expectName, head?_cons, rest_cons]
  cases t.lexeme with
  | name x => exact (ok x).on us vs f g
  | _ => exact .error _ _

theorem skipSemicolon (hp : Telling p) : Telling fun ts => p ts.skipSemicolon := by
  refine ⟨fun f => hp.ended f, fun t us vs f g => ?_⟩
  by_cases h : t.lexeme.isSign .semicolon
  · simp only [Ahead.skipSemicolon, startsWith_cons, rest_cons, h, if_true]
    exact hp.on us vs f g
  · simp only [Ahead.skipSemicolon, startsWith_cons, h]
    exact hp.tracks t us vs f g

theorem close (hp : Telling p) : Telling fun ts => Parse.close ts >>= p := by
  have steps : (fun ts => Parse.close ts >>= p) =
      fun ts : Ahead => ts.expectKeyword .end_ >>= fun us => p us.skipSemicolon := by
    funext ts
    rw [Parse.close, bind_assoc]
    rfl
  rw [steps]
  exact expectKeyword (skipSemicolon hp)

theorem names (n : Nat) : Telling (Parse.names n) := by
  induction n with
  | zero => exact fail _
  | succ n ih =>
    refine expectName.bind fun x => ?_
    exact ifStartsWith (ih.map (x :: ·)) (ok [x])

theorem params : Telling Parse.params := by
  refine ⟨fun f => .missing _, fun t us vs f g => ?_⟩
  -- both lists of names are read with the fuel for the longer one
  have fuel : Parse.names ((t :: us).length + 1) ⟨t :: us, f⟩ =
      Parse.names ((t :: (us ++ vs)).length + 1) ⟨t :: us, f⟩ :=
    (names_eq (Nat.lt_succ_self _) (by simp [Ahead.length])).symm
  by_cases h : t.lexeme.isSign .rightParen
  · simp only [Parse.params, startsWith_cons, h, if_true]
    exact (ok []).tracks t us vs f g
  · simp only [Parse.params, startsWith_cons, h]
    rw [fuel]
    exact (names _).tracks t us vs f g

end Telling

structure TellingExpr (n : Nat) : Prop where
  expr : Telling (expr n)
  chain : ∀ level, Telling (chain n level)
  chainRest : ∀ level left, Telling (chainRest n level left)
  operand : ∀ level, Telling (operand n level)
  unary : Telling (unary n)
  postfixed : Telling (postfixed n)
  accesses : ∀ e, Telling (accesses n e)
  primary : Telling (primary n)
  items : ∀ closing, Telling (items n closing)
  itemsRest : ∀ closing, Telling (itemsRest n closing)
  properties : Telling (properties n)
  propertiesRest : Telling (propertiesRest n)

theorem tellingExpr_zero : TellingExpr 0 where
  expr := .fail _
  chain _ := .fail _
  chainRest _ _ := .fail _
  operand _ := .fail _
  unary := .fail _
  postfixed := .fail _
  accesses _ := .fail _
  primary := .fail _
  items _ := .fail _
  itemsRest _ := .fail _
  properties := .fail _
  propertiesRest := .fail _

namespace TellingExpr

variable {n : Nat} (k : TellingExpr n)
include k

theorem assigned (op : Option ArithOp) (left : Expr) : Telling fun ts =>
    Parse.expr n ts >>= fun r =>
      match left.target? with
      | none => .error ⟨.invalidAssignmentTarget, left.position⟩
      | some target =>
        match op with
        | none => .ok (Expr.assign target r.1 left.position, r.2)
        | some op => .ok (.compound op target r.1 left.position, r.2) := by
  have needs (f : Position) (r : Expr × Ahead) : Parse.expr n ⟨[], f⟩ ≠ .ok r :=
    fun h => Nat.not_lt_zero _ (length_expr h)
  cases left.target? with
  | none => exact k.expr.bind_error needs _
  | some target =>
    cases op with
    | none => exact k.expr.map (Expr.assign target · left.position)
    | some op => exact k.expr.map (Expr.compound op target · left.position)

theorem expr_succ : Telling (Parse.expr (n + 1)) := by
  refine (k.chain .or).bind fun left => ⟨fun f => .ok left, fun t us vs f g => ?_⟩
  simp only [head?_cons, rest_cons, Option.bind_some]
  cases t.lexeme.assignment? with
  | none => exact (Telling.ok left).tracks t us vs f g
  | some op => exact (k.assigned op left).on us vs f g

theorem chain_succ (level : Level) : Telling (Parse.chain (n + 1) level) :=
  (k.operand level).bind (k.chainRest level)

theorem chainRest_succ (level : Level) (left : Expr) :
    Telling (Parse.chainRest (n + 1) level left) := by
  refine ⟨fun f => .ok left, fun t us vs f g => ?_⟩
  rw [Parse.chainRest, Parse.chainRest]
  simp only [head?_cons, rest_cons, Option.bind_some]
  cases level.operator? t.lexeme with
  | none => exact (Telling.ok left).tracks t us vs f g
  | some op =>
    refine ((k.operand level).on us vs f g).bind fun right => ?_
    exact k.chainRest level (.binary op left right left.position)

theorem operand_succ (level : Level) : Telling (Parse.operand (n + 1) level) := by
  cases ht : level.tighter? with
  | some tighter =>
    have steps : Parse.operand (n + 1) level = Parse.chain n tighter :=
      funext fun _ => operand_tighter ht
    rw [steps]
    exact k.chain tighter
  | none =>
    have steps : Parse.operand (n + 1) level = Parse.unary n := funext fun _ => operand_unary ht
    rw [steps]
    exact k.unary

theorem unary_succ : Telling (Parse.unary (n + 1)) := by
  refine ⟨fun f => k.postfixed.ended f, fun t us vs f g => ?_⟩
  rw [Parse.unary, Parse.unary]
  simp only [head?_cons, rest_cons, Option.bind_some]
  cases t.lexeme.unaryOp? with
  | none => exact k.postfixed.tracks t us vs f g
  | some op => exact (k.unary.map (Expr.unary op · t.position)).on us vs f g

theorem postfixed_succ : Telling (Parse.postfixed (n + 1)) := by
  refine k.primary.bind fun first => (k.accesses first).bind fun e => ?_
  refine ⟨fun f => .ok e, fun t us vs f g => ?_⟩
  simp only [head?_cons, rest_cons, Option.bind_some]
  cases t.lexeme.updateOp? with
  | none => exact (Telling.ok e).tracks t us vs f g
  | some update =>
    cases e with
    | «variable» name p => exact (Telling.ok _).on us vs f g
    | _ => exact .error _ _

theorem accesses_succ (e : Expr) : Telling (Parse.accesses (n + 1) e) := by
  have behind (e : Expr) (t : Token) (us vs : List Token) (f g : Position) :
      Tracks vs f g (.ok (e, ⟨t :: us, f⟩)) (.ok (e, ⟨t :: (us ++ vs), g⟩)) := .ok e t us
  have member : Telling fun ts => ts.expectName >>= fun r =>
      Parse.accesses n (.member e r.1 e.position) r.2 :=
    Telling.expectName.bind fun property => k.accesses (.member e property e.position)
  have index : Telling fun ts => Parse.expr n ts >>= fun r =>
      r.2.expectSign .rightBracket >>= Parse.accesses n (.index e r.1 e.position) :=
    k.expr.bind fun i => (k.accesses (.index e i e.position)).expectSign
  have call : Telling fun ts => Parse.items n .rightParen ts >>= fun r =>
      Parse.accesses n (.call e r.1 e.position) r.2 :=
    (k.items .rightParen).bind fun args => k.accesses (.call e args e.position)
  refine ⟨fun f => .ok e, fun t us vs f g => ?_⟩
  rw [Parse.accesses, Parse.accesses]
  simp only [head?_cons, rest_cons]
  cases t.lexeme with
  | sign s =>
    cases s with
    | dot => exact member.on us vs f g
    | leftBracket => exact index.on us vs f g
    | leftParen => exact call.on us vs f g
    | _ => exact behind ..
  | _ => exact behind ..

theorem primary_succ : Telling (Parse.primary (n + 1)) := by
  refine ⟨fun f => .missing _, fun t us vs f g => ?_⟩
  have paren : Telling fun ts => Parse.expr n ts >>= fun r =>
      r.2.expectSign .rightParen >>= fun us => .ok (r.1, us) :=
    k.expr.bind fun e => (Telling.ok e).expectSign
  rw [Parse.primary, Parse.primary]
  simp only [head?_cons, rest_cons]
  cases t.lexeme with
  | name x => exact (Telling.ok (Expr.variable x t.position)).on us vs f g
  | number x => exact (Telling.ok (Expr.literal (.number x) t.position)).on us vs f g
  | text x => exact (Telling.ok (Expr.literal (.text x) t.position)).on us vs f g
  | keyword word =>
    cases word with
    | null | undefined | true_ | false_ => exact (Telling.ok _).on us vs f g
    | _ => exact .error _ _
  | sign s =>
    cases s with
    | dollar => exact (Telling.expectName.map (Expr.variable · t.position)).on us vs f g
    | leftBracket => exact ((k.items .rightBracket).map (Expr.array · t.position)).on us vs f g
    | leftBrace =>
      exact (k.properties.map fun ps =>
        Expr.object (Fields.ofList ps).entries t.position).on us vs f g
    | leftParen => exact paren.on us vs f g
    | _ => exact .error _ _

theorem items_succ (closing : Sign) : Telling (Parse.items (n + 1) closing) :=
  .ifStartsWith (.ok []) (k.itemsRest closing)

theorem itemsRest_succ (closing : Sign) : Telling (Parse.itemsRest (n + 1) closing) := by
  refine k.expr.bind fun e => ?_
  exact .ifStartsWith ((k.itemsRest closing).map (e :: ·)) (.expectSign (.ok [e]))

theorem properties_succ : Telling (Parse.properties (n + 1)) :=
  .ifStartsWith (.ok []) k.propertiesRest

theorem valued (key : String) : Telling (Parse.valued n key) := by
  refine .expectSign (k.expr.bind fun value => ?_)
  exact .ifStartsWith (k.propertiesRest.map ((key, value) :: ·)) (.expectSign (.ok [(key, value)]))

theorem propertiesRest_succ : Telling (Parse.propertiesRest (n + 1)) := by
  refine ⟨fun f => .missing _, fun t us vs f g => ?_⟩
  rw [Parse.propertiesRest, Parse.propertiesRest]
  simp only [head?_cons, rest_cons]
  cases t.lexeme with
  | text key => exact (k.valued key).on us vs f g
  | name key => exact (k.valued key).on us vs f g
  | _ => exact .error _ _

end TellingExpr

theorem tellingExpr (n : Nat) : TellingExpr n := by
  induction n with
  | zero => exact tellingExpr_zero
  | succ n k =>
    exact ⟨k.expr_succ, k.chain_succ, k.chainRest_succ, k.operand_succ, k.unary_succ,
      k.postfixed_succ, k.accesses_succ, k.primary_succ, k.items_succ, k.itemsRest_succ,
      k.properties_succ, k.propertiesRest_succ⟩

namespace Telling

variable (n : Nat)

theorem condition : Telling (Parse.condition n) := by
  refine .expectSign ((tellingExpr n).expr.bind fun c => ?_)
  exact .expectSign (.skipSemicolon (.ok c))

theorem returned : Telling (Parse.returned n) := by
  refine ⟨fun f => .ok none, fun t us vs f g => ?_⟩
  by_cases h : t.lexeme.endsReturn
  · simp only [Parse.returned, head?_cons, Option.all_some, h, if_true]
    exact (ok none).tracks t us vs f g
  · simp only [Parse.returned, head?_cons, Option.all_some, h]
    exact ((tellingExpr n).expr.map some).tracks t us vs f g

end Telling

structure TellingStmt (n : Nat) : Prop where
  stmt : ∀ inLoop, Telling (stmt n inLoop)
  block : ∀ inLoop closing, Telling (block n inLoop closing)
  branches : ∀ inLoop, Telling (branches n inLoop)
  otherwise : ∀ inLoop, Telling (otherwise n inLoop)

theorem tellingStmt_zero : TellingStmt 0 where
  stmt _ := .fail _
  block _ _ := .fail _
  branches _ := .fail _
  otherwise _ := .fail _

namespace TellingStmt

variable {n : Nat} (k : TellingStmt n) (inLoop : Bool)
include k

theorem closed (h : List Stmt → α) : Telling (fun ts => do
    let (body, rest) ← Parse.block n inLoop [.end_] ts
    let rest ← close rest
    .ok (h body, rest)) :=
  (k.block inLoop [.end_]).bind fun body => .close (.ok (h body))

theorem branch (p : Position) : Telling (fun ts => do
    let (c, rest) ← Parse.condition n ts
    let (body, rest) ← Parse.block n inLoop [.elseif, .else_, .end_] rest
    let (elseifs, rest) ← Parse.branches n inLoop rest
    let (otherwise, rest) ← Parse.otherwise n inLoop rest
    let rest ← close rest
    .ok (Stmt.branch c body elseifs otherwise p, rest)) := by
  refine (Telling.condition n).bind fun c => (k.block _ _).bind fun body => ?_
  refine (k.branches _).bind fun elseifs => (k.otherwise _).bind fun other => ?_
  exact .close (.ok _)

theorem whileLoop (p : Position) : Telling (fun ts => do
    let (c, rest) ← Parse.condition n ts
    let (body, rest) ← Parse.block n true [.end_] rest
    let rest ← close rest
    .ok (Stmt.while_ c body p, rest)) :=
  (Telling.condition n).bind fun c => k.closed true (Stmt.while_ c · p)

theorem forLoop (p : Position) : Telling (fun ts : Ahead => do
    let rest ← ts.expectSign .leftParen
    let (counter, rest) ← rest.expectName
    let rest ← rest.expectSign .comma
    let (count, rest) ← Parse.expr n rest
    let rest ← rest.expectSign .rightParen
    let (body, rest) ← Parse.block n true [.end_] rest.skipSemicolon
    let rest ← close rest
    .ok (Stmt.for_ counter count body p, rest)) := by
  refine .expectSign (Telling.expectName.bind fun counter => .expectSign ?_)
  refine (tellingExpr n).expr.bind fun count => ?_
  exact .expectSign (.skipSemicolon (k.closed true (Stmt.for_ counter count · p)))

theorem declaration (p : Position) : Telling (fun ts : Ahead => do
    let (name, rest) ← ts.expectName
    let rest ← rest.expectSign .leftParen
    let (ps, rest) ← params rest
    let rest ← rest.expectSign .rightParen
    let (body, rest) ← Parse.block n inLoop [.end_] rest.skipSemicolon
    let rest ← close rest
    .ok (Stmt.function name ps body p, rest)) := by
  refine Telling.expectName.bind fun name => .expectSign (Telling.params.bind fun ps => ?_)
  exact .expectSign (.skipSemicolon (k.closed inLoop (Stmt.function name ps · p)))

theorem stmt_succ : Telling (Parse.stmt (n + 1) inLoop) := by
  have plain : Telling fun ts => Parse.expr n ts >>= fun r =>
      .ok (Stmt.expr r.1, r.2.skipSemicolon) :=
    (tellingExpr n).expr.bind fun e => .skipSemicolon (.ok (Stmt.expr e))
  have back (p : Position) : Telling fun ts => Parse.returned n ts >>= fun r =>
      .ok (Stmt.return_ r.1 p, r.2.skipSemicolon) :=
    (Telling.returned n).bind fun value => .skipSemicolon (.ok (Stmt.return_ value p))
  refine ⟨fun f => plain.ended f, fun t us vs f g => ?_⟩
  rw [Parse.stmt, Parse.stmt]
  simp only [head?_cons, rest_cons]
  cases t.lexeme with
  | keyword word =>
    cases word with
    | if_ => exact (k.branch inLoop t.position).on us vs f g
    | while_ => exact (k.whileLoop t.position).on us vs f g
    | for_ => exact (k.forLoop t.position).on us vs f g
    | function => exact (k.declaration inLoop t.position).on us vs f g
    | return_ => exact (back t.position).on us vs f g
    | break_ =>
      cases inLoop with
      | true => exact (Telling.skipSemicolon (.ok (Stmt.break_ t.position))).on us vs f g
      | false => exact .error _ _
    | continue_ =>
      cases inLoop with
      | true => exact (Telling.skipSemicolon (.ok (Stmt.continue_ t.position))).on us vs f g
      | false => exact .error _ _
    | _ => exact plain.tracks t us vs f g
  | _ => exact plain.tracks t us vs f g

theorem block_succ (closing : List Keyword) : Telling (Parse.block (n + 1) inLoop closing) := by
  refine ⟨fun f => .ok [], fun t us vs f g => ?_⟩
  rw [Parse.block, Parse.block]
  simp only [head?_cons]
  split
  · exact (Telling.ok []).tracks t us vs f g
  · refine ((k.stmt inLoop).tracks t us vs f g).bind fun s => ?_
    exact (k.block inLoop closing).map (s :: ·)

theorem elseif : Telling (fun ts => do
    let (c, rest) ← Parse.condition n ts
    let (body, rest) ← Parse.block n inLoop [.elseif, .else_, .end_] rest
    let (elseifs, rest) ← Parse.branches n inLoop rest
    .ok ((c, body) :: elseifs, rest)) := by
  refine (Telling.condition n).bind fun c => (k.block _ _).bind fun body => ?_
  exact (k.branches inLoop).map ((c, body) :: ·)

theorem branches_succ : Telling (Parse.branches (n + 1) inLoop) :=
  .ifStartsWith (k.elseif inLoop) (.ok [])

theorem otherwise_succ : Telling (Parse.otherwise (n + 1) inLoop) := by
  have body : Telling (fun ts : Ahead => do
      let (body, rest) ← Parse.block n inLoop [.end_] ts.skipSemicolon
      .ok (some body, rest)) :=
    .skipSemicolon ((k.block inLoop [.end_]).map some)
  exact .ifStartsWith body (.ok none)

end TellingStmt

theorem tellingStmt (n : Nat) : TellingStmt n := by
  induction n with
  | zero => exact tellingStmt_zero
  | succ n k => exact ⟨k.stmt_succ, k.block_succ, k.branches_succ, k.otherwise_succ⟩

end CanvasScript.Parse

namespace CanvasScript

theorem TokenStream.program_of_append {us vs : List Token} {f g : Position} {body : List Stmt}
    (h : (⟨us ++ vs, g⟩ : TokenStream).program = .ok body) :
    (∃ part, (⟨us, f⟩ : TokenStream).program = .ok part) ∨
      ∃ what, (⟨us, f⟩ : TokenStream).program = .error ⟨.expected what none, f⟩ := by
  obtain ⟨r, hb, -⟩ := Parse.ok_of_map h
  have deep : Parse.depth ⟨us, f⟩ ≤ Parse.depth ⟨us ++ vs, g⟩ := by
    simp only [Parse.depth, List.length_append]
    omega
  have tracks := ((Parse.tellingStmt (Parse.depth ⟨us ++ vs, g⟩)).block false []).on us vs f g
  rw [Parse.block_depth deep, hb] at tracks
  unfold program
  generalize Parse.block (Parse.depth ⟨us, f⟩) false [] ⟨us, f⟩ = x at tracks ⊢
  cases tracks with
  | ended y hx =>
    cases hx with
    | ok part => exact .inl ⟨part, rfl⟩
    | missing what => exact .inr ⟨what, rfl⟩
  | ok part t us => exact .inl ⟨part, rfl⟩

theorem incomplete_told_apart (ts : TokenStream) :
    (∀ body, ts.program = .ok body → ∀ k finish,
      let part : TokenStream := ⟨ts.tokens.take k, finish⟩
      (∃ beginning, part.program = .ok beginning) ∨
        ∃ d, part.program = .error d ∧ d.code = "P003" ∧ d.position = finish) ∧
    ∀ d, ts.program = .error d → d.code ≠ "P003" → ∀ more finish body,
      (⟨ts.tokens ++ more, finish⟩ : TokenStream).program ≠ .ok body := by
  refine ⟨fun body h k finish => ?_, fun d hd hc more finish body h => ?_⟩
  · have all : (⟨ts.tokens.take k ++ ts.tokens.drop k, ts.finish⟩ : TokenStream).program =
        .ok body := by
      rw [List.take_append_drop]
      exact h
    rcases TokenStream.program_of_append (f := finish) all with accepted | ⟨what, missing⟩
    · exact .inl accepted
    · exact .inr ⟨_, missing, rfl, rfl⟩
  · rcases TokenStream.program_of_append (f := ts.finish) h with ⟨part, accepted⟩ | ⟨what, missing⟩
    · cases hd.symm.trans accepted
    · cases hd.symm.trans missing
      exact hc rfl

theorem branch_and_break_told_apart :
    let a : Expr := .variable "a" .start
    let b : Expr := .variable "b" .start
    let branch : TokenStream := ⟨[Keyword.if_.token .start, Sign.leftParen.token .start,
      ⟨.name "a", .start⟩, Sign.rightParen.token .start, ⟨.name "b", .start⟩,
      Sign.semicolon.token .start, Keyword.end_.token .start], .start⟩
    let stray : TokenStream := ⟨[Keyword.break_.token .start], .start⟩
    branch.program = .ok [.branch a [.expr b] [] none .start] ∧
    (∀ k finish,
      let part : TokenStream := ⟨branch.tokens.take k, finish⟩
      (∃ beginning, part.program = .ok beginning) ∨
        ∃ d, part.program = .error d ∧ d.code = "P003" ∧ d.position = finish) ∧
    stray.program = .error ⟨.breakOutsideLoop, .start⟩ ∧
    ∀ more finish body, (⟨stray.tokens ++ more, finish⟩ : TokenStream).program ≠ .ok body := by
  intro a b branch stray
  have accepted : branch.program = .ok [.branch a [.expr b] [] none .start] := by rfl
  have rejected : stray.program = .error ⟨.breakOutsideLoop, .start⟩ := by rfl
  exact ⟨accepted, (incomplete_told_apart branch).1 _ accepted, rejected,
    (incomplete_told_apart stray).2 _ rejected (by decide)⟩

end CanvasScript
