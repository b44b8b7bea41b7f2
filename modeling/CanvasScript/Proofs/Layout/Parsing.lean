import CanvasScript.Proofs.Grammar.Soundness
import CanvasScript.Proofs.Grammar.Steps
import CanvasScript.Proofs.Layout.Moved

namespace CanvasScript

variable {α β γ : Type} (τ : Position → Position)

namespace Ahead

theorem head?_moved (ts : Ahead) : Ahead.head? (ts.moved τ) = ts.head? := by
  obtain ⟨tokens, finish⟩ := ts
  cases tokens <;> rfl

theorem position_moved (ts : Ahead) : Ahead.position (ts.moved τ) = τ ts.position := by
  obtain ⟨tokens, finish⟩ := ts
  cases tokens <;> rfl

theorem rest_moved (ts : Ahead) : Ahead.rest (ts.moved τ) = ts.rest.moved τ := by
  obtain ⟨tokens, finish⟩ := ts
  cases tokens <;> rfl

theorem startsWith_moved (ts : Ahead) (l : Lexeme → Bool) :
    Ahead.startsWith (ts.moved τ) l = ts.startsWith l := by
  rw [startsWith, head?_moved, startsWith]

theorem skipSemicolon_moved (ts : Ahead) :
    Ahead.skipSemicolon (ts.moved τ) = ts.skipSemicolon.moved τ := by
  rw [skipSemicolon, startsWith_moved, rest_moved, skipSemicolon]
  split <;> rfl

end Ahead

namespace Parse

def moved (g : α → β) : Except Diagnostic (α × Ahead) → Except Diagnostic (β × Ahead)
  | .ok (a, ts) => .ok (g a, ts.moved τ)
  | .error d => .error (d.moved τ)

theorem moved_bind {g : α → β} {δ : Type} {g' : γ → δ} (x : Except Diagnostic (α × Ahead))
    {k : α × Ahead → Except Diagnostic (γ × Ahead)} {k' : β × Ahead → Except Diagnostic (δ × Ahead)}
    (hk : ∀ a ts, k' (g a, ts.moved τ) = moved τ g' (k (a, ts))) :
    (moved τ g x >>= k') = moved τ g' (x >>= k) := by
  cases x with
  | ok r => exact hk r.1 r.2
  | error d => rfl

theorem fail_moved (g : α → β) (ts : Ahead) (what : Expectation) :
    Ahead.fail (ts.moved τ) what = moved τ g (ts.fail what) := by
  rw [Ahead.fail, Ahead.head?_moved, Ahead.position_moved]
  rfl

theorem expectSign_moved {g : α → β} (ts : Ahead) (s : Sign)
    {k : Ahead → Except Diagnostic (α × Ahead)} {k' : Ahead → Except Diagnostic (β × Ahead)}
    (hk : ∀ us : Ahead, k' (us.moved τ) = moved τ g (k us)) :
    (Ahead.expectSign (ts.moved τ) s >>= k') = moved τ g (ts.expectSign s >>= k) := by
  rw [Ahead.expectSign, Ahead.expectSign, Ahead.startsWith_moved, Ahead.rest_moved]
  by_cases h : ts.startsWith (Lexeme.isSign s)
  · rw [if_pos h, if_pos h]
    exact hk ts.rest
  · rw [if_neg h, if_neg h, Ahead.fail, Ahead.head?_moved, Ahead.position_moved]
    rfl

theorem expectName_moved (ts : Ahead) :
    Ahead.expectName (ts.moved τ) = moved τ id ts.expectName := by
  rw [Ahead.expectName, Ahead.expectName, Ahead.head?_moved, Ahead.rest_moved, fail_moved τ id]
  split <;> rfl

theorem close_moved {g : α → β} (ts : Ahead)
    {k : Ahead → Except Diagnostic (α × Ahead)} {k' : Ahead → Except Diagnostic (β × Ahead)}
    (hk : ∀ us : Ahead, k' (us.moved τ) = moved τ g (k us)) :
    (close (ts.moved τ) >>= k') = moved τ g (close ts >>= k) := by
  rw [close, close, Ahead.expectKeyword, Ahead.expectKeyword, Ahead.startsWith_moved,
    Ahead.rest_moved]
  by_cases h : ts.startsWith (Lexeme.isKeyword .end_)
  · rw [if_pos h, if_pos h, ok_bind, ok_bind, Ahead.skipSemicolon_moved]
    exact hk _
  · rw [if_neg h, if_neg h, Ahead.fail, Ahead.head?_moved, Ahead.position_moved]
    rfl

theorem names_moved (n : Nat) (ts : Ahead) : names n (ts.moved τ) = moved τ id (names n ts) := by
  induction n generalizing ts with
  | zero => exact fail_moved τ id ts _
  | succ n ih =>
    rw [names, expectName_moved]
    refine moved_bind τ ts.expectName fun x us => ?_
    simp only [Ahead.startsWith_moved, Ahead.rest_moved, ih]
    split
    · exact moved_bind τ (names n us.rest) fun xs ws => rfl
    · rfl

theorem params_moved (ts : Ahead) : params (ts.moved τ) = moved τ id (params ts) := by
  have length : (ts.moved τ).tokens.length = ts.tokens.length := List.length_map _
  rw [params, params, Ahead.startsWith_moved, length, names_moved]
  split <;> rfl

structure MovedExpr (n : Nat) : Prop where
  expr : ∀ ts : Ahead, expr n (ts.moved τ) = moved τ (Expr.moved τ) (expr n ts)
  chain : ∀ level (ts : Ahead),
    chain n level (ts.moved τ) = moved τ (Expr.moved τ) (chain n level ts)
  chainRest : ∀ level (left : Expr) (ts : Ahead), chainRest n level (left.moved τ) (ts.moved τ) =
    moved τ (Expr.moved τ) (chainRest n level left ts)
  operand : ∀ level (ts : Ahead),
    operand n level (ts.moved τ) = moved τ (Expr.moved τ) (operand n level ts)
  unary : ∀ ts : Ahead, unary n (ts.moved τ) = moved τ (Expr.moved τ) (unary n ts)
  postfixed : ∀ ts : Ahead, postfixed n (ts.moved τ) = moved τ (Expr.moved τ) (postfixed n ts)
  accesses : ∀ (e : Expr) (ts : Ahead), accesses n (e.moved τ) (ts.moved τ) =
    moved τ (Expr.moved τ) (accesses n e ts)
  primary : ∀ ts : Ahead, primary n (ts.moved τ) = moved τ (Expr.moved τ) (primary n ts)
  items : ∀ closing (ts : Ahead),
    items n closing (ts.moved τ) = moved τ (Expr.movedList τ) (items n closing ts)
  itemsRest : ∀ closing (ts : Ahead),
    itemsRest n closing (ts.moved τ) = moved τ (Expr.movedList τ) (itemsRest n closing ts)
  properties : ∀ ts : Ahead,
    properties n (ts.moved τ) = moved τ (Expr.movedProperties τ) (properties n ts)
  propertiesRest : ∀ ts : Ahead,
    propertiesRest n (ts.moved τ) = moved τ (Expr.movedProperties τ) (propertiesRest n ts)

theorem movedExpr_zero : MovedExpr τ 0 where
  expr ts := fail_moved τ _ ts _
  chain _ ts := fail_moved τ _ ts _
  chainRest _ _ ts := fail_moved τ _ ts _
  operand _ ts := fail_moved τ _ ts _
  unary ts := fail_moved τ _ ts _
  postfixed ts := fail_moved τ _ ts _
  accesses _ ts := fail_moved τ _ ts _
  primary ts := fail_moved τ _ ts _
  items _ ts := fail_moved τ _ ts _
  itemsRest _ ts := fail_moved τ _ ts _
  properties ts := fail_moved τ _ ts _
  propertiesRest ts := fail_moved τ _ ts _

namespace MovedExpr

variable {τ} {n : Nat} (k : MovedExpr τ n)
include k

theorem expr_succ (ts : Ahead) :
    Parse.expr (n + 1) (ts.moved τ) = moved τ (Expr.moved τ) (Parse.expr (n + 1) ts) := by
  rw [Parse.expr, k.chain, Parse.expr]
  refine moved_bind τ (Parse.chain n .or ts) fun left us => ?_
  simp only [Ahead.head?_moved, Ahead.rest_moved, k.expr, Expr.target?_moved, Expr.position_moved]
  cases us.head?.bind Lexeme.assignment? with
  | none => rfl
  | some op =>
    refine moved_bind τ (Parse.expr n us.rest) fun value ws => ?_
    cases left.target? with
    | none => rfl
    | some target => cases op <;> rfl

theorem chain_succ (level : Level) (ts : Ahead) : Parse.chain (n + 1) level (ts.moved τ) =
    moved τ (Expr.moved τ) (Parse.chain (n + 1) level ts) := by
  rw [Parse.chain, k.operand, Parse.chain]
  exact moved_bind τ (Parse.operand n level ts) fun left us => k.chainRest level left us

theorem chainRest_succ (level : Level) (left : Expr) (ts : Ahead) :
    Parse.chainRest (n + 1) level (left.moved τ) (ts.moved τ) =
      moved τ (Expr.moved τ) (Parse.chainRest (n + 1) level left ts) := by
  rw [Parse.chainRest, Parse.chainRest]
  simp only [Ahead.head?_moved, Ahead.rest_moved, k.operand, Expr.position_moved]
  cases ts.head?.bind level.operator? with
  | none => rfl
  | some op =>
    refine moved_bind τ (Parse.operand n level ts.rest) fun right us => ?_
    exact k.chainRest level (.binary op left right left.position) us

theorem operand_succ (level : Level) (ts : Ahead) : Parse.operand (n + 1) level (ts.moved τ) =
    moved τ (Expr.moved τ) (Parse.operand (n + 1) level ts) := by
  rw [Parse.operand, Parse.operand]
  split
  · exact k.chain _ ts
  · exact k.unary ts

theorem unary_succ (ts : Ahead) :
    Parse.unary (n + 1) (ts.moved τ) = moved τ (Expr.moved τ) (Parse.unary (n + 1) ts) := by
  rw [Parse.unary]
  conv_rhs => rw [Parse.unary]
  simp only [Ahead.head?_moved, Ahead.rest_moved, Ahead.position_moved, k.unary]
  cases ts.head?.bind Lexeme.unaryOp? with
  | none => exact k.postfixed ts
  | some op => exact moved_bind τ (Parse.unary n ts.rest) fun inner us => rfl

theorem postfixed_succ (ts : Ahead) : Parse.postfixed (n + 1) (ts.moved τ) =
    moved τ (Expr.moved τ) (Parse.postfixed (n + 1) ts) := by
  rw [Parse.postfixed, k.primary, Parse.postfixed]
  refine moved_bind τ (Parse.primary n ts) fun first us => ?_
  simp only [k.accesses]
  refine moved_bind τ (Parse.accesses n first us) fun e ws => ?_
  simp only [Ahead.head?_moved, Ahead.rest_moved, Ahead.position_moved, Expr.position_moved]
  cases ws.head?.bind Lexeme.updateOp? with
  | none => rfl
  | some update => cases e <;> rfl

theorem accesses_succ (e : Expr) (ts : Ahead) :
    Parse.accesses (n + 1) (e.moved τ) (ts.moved τ) =
      moved τ (Expr.moved τ) (Parse.accesses (n + 1) e ts) := by
  rw [Parse.accesses, Parse.accesses]
  simp only [Ahead.head?_moved, Ahead.rest_moved, Expr.position_moved, expectName_moved, k.expr,
    k.items]
  split
  · refine moved_bind τ ts.rest.expectName fun property us => ?_
    exact k.accesses (.member e property e.position) us
  · refine moved_bind τ (Parse.expr n ts.rest) fun i us => ?_
    exact expectSign_moved τ us .rightBracket fun ws => k.accesses (.index e i e.position) ws
  · refine moved_bind τ (Parse.items n .rightParen ts.rest) fun args us => ?_
    exact k.accesses (.call e args e.position) us
  · rfl

theorem primary_succ (ts : Ahead) : Parse.primary (n + 1) (ts.moved τ) =
    moved τ (Expr.moved τ) (Parse.primary (n + 1) ts) := by
  rw [Parse.primary, Parse.primary]
  simp only [Ahead.head?_moved, Ahead.rest_moved, Ahead.position_moved, expectName_moved, k.expr,
    k.items, k.properties, fail_moved τ (Expr.moved τ)]
  split
  · rfl
  · exact moved_bind τ ts.rest.expectName fun x us => rfl
  · exact moved_bind τ (Parse.items n .rightBracket ts.rest) fun es us => rfl
  · refine moved_bind τ (Parse.properties n ts.rest) fun ps us => ?_
    simp only [Expr.ofList_movedProperties]
    rfl
  · refine moved_bind τ (Parse.expr n ts.rest) fun e us => ?_
    exact expectSign_moved τ us .rightParen fun ws => rfl
  · split <;> rfl

theorem items_succ (closing : Sign) (ts : Ahead) : Parse.items (n + 1) closing (ts.moved τ) =
    moved τ (Expr.movedList τ) (Parse.items (n + 1) closing ts) := by
  rw [Parse.items, Parse.items, Ahead.startsWith_moved, Ahead.rest_moved, k.itemsRest]
  split <;> rfl

theorem itemsRest_succ (closing : Sign) (ts : Ahead) :
    Parse.itemsRest (n + 1) closing (ts.moved τ) =
      moved τ (Expr.movedList τ) (Parse.itemsRest (n + 1) closing ts) := by
  rw [Parse.itemsRest, k.expr, Parse.itemsRest]
  refine moved_bind τ (Parse.expr n ts) fun e us => ?_
  simp only [Ahead.startsWith_moved, Ahead.rest_moved, k.itemsRest]
  split
  · exact moved_bind τ (Parse.itemsRest n closing us.rest) fun es ws => rfl
  · exact expectSign_moved τ us closing fun ws => rfl

theorem properties_succ (ts : Ahead) : Parse.properties (n + 1) (ts.moved τ) =
    moved τ (Expr.movedProperties τ) (Parse.properties (n + 1) ts) := by
  rw [Parse.properties, Parse.properties, Ahead.startsWith_moved, Ahead.rest_moved,
    k.propertiesRest]
  split <;> rfl

theorem valued_moved (key : String) (ts : Ahead) : valued n key (ts.moved τ) =
    moved τ (Expr.movedProperties τ) (valued n key ts) := by
  rw [valued, valued]
  refine expectSign_moved τ ts .colon fun us => ?_
  rw [k.expr]
  refine moved_bind τ (Parse.expr n us) fun value ws => ?_
  simp only [Ahead.startsWith_moved, Ahead.rest_moved, k.propertiesRest]
  split
  · exact moved_bind τ (Parse.propertiesRest n ws.rest) fun ps xs => rfl
  · exact expectSign_moved τ ws .rightBrace fun xs => rfl

theorem propertiesRest_succ (ts : Ahead) : Parse.propertiesRest (n + 1) (ts.moved τ) =
    moved τ (Expr.movedProperties τ) (Parse.propertiesRest (n + 1) ts) := by
  rw [Parse.propertiesRest, Parse.propertiesRest, Ahead.head?_moved, Ahead.rest_moved]
  split
  · exact k.valued_moved _ ts.rest
  · exact k.valued_moved _ ts.rest
  · exact fail_moved τ _ ts _

end MovedExpr

theorem movedExpr (n : Nat) : MovedExpr τ n := by
  induction n with
  | zero => exact movedExpr_zero τ
  | succ n k =>
    exact ⟨k.expr_succ, k.chain_succ, k.chainRest_succ, k.operand_succ, k.unary_succ,
      k.postfixed_succ, k.accesses_succ, k.primary_succ, k.items_succ, k.itemsRest_succ,
      k.properties_succ, k.propertiesRest_succ⟩

section Headers

variable (n : Nat) (ts : Ahead)

theorem condition_moved : condition n (ts.moved τ) = moved τ (Expr.moved τ) (condition n ts) := by
  rw [condition, condition]
  refine expectSign_moved τ ts .leftParen fun us => ?_
  rw [(movedExpr τ n).expr]
  refine moved_bind τ (expr n us) fun e ws => ?_
  refine expectSign_moved τ ws .rightParen fun xs => ?_
  rw [Ahead.skipSemicolon_moved]
  rfl

theorem returned_moved :
    returned n (ts.moved τ) = moved τ (Option.map (Expr.moved τ)) (returned n ts) := by
  rw [returned, returned, Ahead.head?_moved, (movedExpr τ n).expr]
  split
  · rfl
  · exact moved_bind τ (expr n ts) fun e us => rfl

end Headers

structure MovedStmt (n : Nat) : Prop where
  stmt : ∀ inLoop (ts : Ahead),
    stmt n inLoop (ts.moved τ) = moved τ (Stmt.moved τ) (stmt n inLoop ts)
  block : ∀ inLoop closing (ts : Ahead),
    block n inLoop closing (ts.moved τ) = moved τ (Stmt.movedList τ) (block n inLoop closing ts)
  branches : ∀ inLoop (ts : Ahead),
    branches n inLoop (ts.moved τ) = moved τ (Stmt.movedBranches τ) (branches n inLoop ts)
  otherwise : ∀ inLoop (ts : Ahead),
    otherwise n inLoop (ts.moved τ) = moved τ (Stmt.movedOtherwise τ) (otherwise n inLoop ts)

theorem movedStmt_zero : MovedStmt τ 0 where
  stmt _ ts := fail_moved τ _ ts _
  block _ _ ts := fail_moved τ _ ts _
  branches _ ts := fail_moved τ _ ts _
  otherwise _ ts := fail_moved τ _ ts _

namespace MovedStmt

variable {τ} {n : Nat} (k : MovedStmt τ n) (inLoop : Bool) (ts : Ahead)
include k

theorem closed (g : List Stmt → α) (g' : List Stmt → β) (h : α → β)
    (hg : ∀ body, g' (Stmt.movedList τ body) = h (g body)) :
    (Parse.block n inLoop [.end_] (ts.moved τ) >>= fun r =>
        close r.2 >>= fun us => .ok (g' r.1, us)) =
      moved τ h (Parse.block n inLoop [.end_] ts >>= fun r =>
        close r.2 >>= fun us => .ok (g r.1, us)) := by
  rw [k.block]
  refine moved_bind τ (Parse.block n inLoop [.end_] ts) fun body us => ?_
  refine close_moved τ us fun ws => ?_
  rw [hg]
  rfl

theorem stmt_succ : Parse.stmt (n + 1) inLoop (ts.moved τ) =
    moved τ (Stmt.moved τ) (Parse.stmt (n + 1) inLoop ts) := by
  rw [Parse.stmt, Parse.stmt]
  simp only [Ahead.head?_moved, Ahead.rest_moved, Ahead.position_moved]
  split
  -- a branch
  case h_1 =>
    rw [condition_moved]
    refine moved_bind τ (condition n ts.rest) fun c us => ?_
    rw [k.block]
    refine moved_bind τ (Parse.block n inLoop _ us) fun body ws => ?_
    rw [k.branches]
    refine moved_bind τ (Parse.branches n inLoop ws) fun elseifs xs => ?_
    rw [k.otherwise]
    refine moved_bind τ (Parse.otherwise n inLoop xs) fun other ys => ?_
    exact close_moved τ ys fun zs => rfl
  -- the loops
  case h_2 =>
    rw [condition_moved]
    refine moved_bind τ (condition n ts.rest) fun c us => ?_
    exact k.closed true us (.while_ c · ts.position) (.while_ (c.moved τ) · (τ ts.position))
      (Stmt.moved τ) fun body => rfl
  case h_3 =>
    refine expectSign_moved τ ts.rest .leftParen fun us => ?_
    rw [expectName_moved]
    refine moved_bind τ us.expectName fun counter vs => ?_
    refine expectSign_moved τ vs .comma fun ws => ?_
    rw [(movedExpr τ n).expr]
    refine moved_bind τ (expr n ws) fun count xs => ?_
    refine expectSign_moved τ xs .rightParen fun ys => ?_
    rw [Ahead.skipSemicolon_moved]
    exact k.closed true ys.skipSemicolon (.for_ counter count · ts.position)
      (.for_ counter (count.moved τ) · (τ ts.position)) (Stmt.moved τ) fun body => rfl
  -- a declaration
  case h_4 =>
    rw [expectName_moved]
    refine moved_bind τ ts.rest.expectName fun name us => ?_
    refine expectSign_moved τ us .leftParen fun ws => ?_
    rw [params_moved]
    refine moved_bind τ (params ws) fun ps xs => ?_
    refine expectSign_moved τ xs .rightParen fun ys => ?_
    rw [Ahead.skipSemicolon_moved]
    exact k.closed inLoop ys.skipSemicolon (.function name ps · ts.position)
      (.function name ps · (τ ts.position)) (Stmt.moved τ) fun body => rfl
  -- `return`, `break` and `continue`
  case h_5 =>
    rw [returned_moved]
    refine moved_bind τ (returned n ts.rest) fun value us => ?_
    rw [Ahead.skipSemicolon_moved]
    cases value <;> rfl
  case h_6 =>
    rw [Ahead.skipSemicolon_moved]
    cases inLoop <;> rfl
  case h_7 =>
    rw [Ahead.skipSemicolon_moved]
    cases inLoop <;> rfl
  case h_8 =>
    rw [(movedExpr τ n).expr]
    refine moved_bind τ (expr n ts) fun e us => ?_
    rw [Ahead.skipSemicolon_moved]
    rfl

theorem block_succ (closing : List Keyword) (ts : Ahead) :
    Parse.block (n + 1) inLoop closing (ts.moved τ) =
      moved τ (Stmt.movedList τ) (Parse.block (n + 1) inLoop closing ts) := by
  rw [Parse.block, Ahead.head?_moved, k.stmt]
  conv_rhs => rw [Parse.block]
  split
  · rfl
  · split
    · rfl
    · refine moved_bind τ (Parse.stmt n inLoop ts) fun s us => ?_
      simp only [k.block]
      exact moved_bind τ (Parse.block n inLoop closing us) fun ss ws => rfl

theorem branches_succ : Parse.branches (n + 1) inLoop (ts.moved τ) =
    moved τ (Stmt.movedBranches τ) (Parse.branches (n + 1) inLoop ts) := by
  rw [Parse.branches, Ahead.startsWith_moved, Ahead.rest_moved, condition_moved]
  conv_rhs => rw [Parse.branches]
  split
  · refine moved_bind τ (condition n ts.rest) fun c us => ?_
    simp only [k.block]
    refine moved_bind τ (Parse.block n inLoop _ us) fun body ws => ?_
    simp only [k.branches]
    exact moved_bind τ (Parse.branches n inLoop ws) fun rest xs => rfl
  · rfl

theorem otherwise_succ : Parse.otherwise (n + 1) inLoop (ts.moved τ) =
    moved τ (Stmt.movedOtherwise τ) (Parse.otherwise (n + 1) inLoop ts) := by
  rw [Parse.otherwise, Ahead.startsWith_moved, Ahead.rest_moved, Ahead.skipSemicolon_moved, k.block]
  conv_rhs => rw [Parse.otherwise]
  split
  · exact moved_bind τ (Parse.block n inLoop [.end_] ts.rest.skipSemicolon) fun body us => rfl
  · rfl

end MovedStmt

theorem movedStmt (n : Nat) : MovedStmt τ n := by
  induction n with
  | zero => exact movedStmt_zero τ
  | succ n k => exact ⟨k.stmt_succ, k.block_succ, k.branches_succ, k.otherwise_succ⟩

end Parse

section Results

def movedParse (g : α → β) : Except Diagnostic α → Except Diagnostic β
  | .ok a => .ok (g a)
  | .error d => .error (d.moved τ)

theorem depth_moved (ts : TokenStream) : Parse.depth (ts.moved τ) = Parse.depth ts := by
  rw [Parse.depth, Parse.depth, TokenStream.moved, List.length_map]

theorem TokenStream.program_moved (ts : TokenStream) :
    (ts.moved τ).program = movedParse τ (Stmt.movedList τ) ts.program := by
  rw [program, program, depth_moved, (Parse.movedStmt τ _).block]
  cases Parse.block (Parse.depth ts) false [] ts <;> rfl

theorem TokenStream.expression_moved (ts : TokenStream) :
    (ts.moved τ).expression = movedParse τ (Expr.moved τ) ts.expression := by
  rw [expression, expression, depth_moved, (Parse.movedExpr τ _).expr]
  cases Parse.expr (Parse.depth ts) ts <;> rfl

end Results

end CanvasScript
