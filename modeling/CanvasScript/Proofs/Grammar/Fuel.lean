import CanvasScript.Proofs.Grammar.Soundness

namespace CanvasScript

def Level.descent (level : Level) : Nat := 2 * (8 - level.rank)

theorem Level.descent_tighter {level tighter : Level} (h : level.tighter? = some tighter) :
    tighter.descent + 2 = level.descent := by
  cases level <;> cases h <;> rfl

theorem Level.descent_pos (level : Level) : 4 ≤ level.descent := by
  cases level <;> decide

theorem Level.descent_le (level : Level) : level.descent ≤ 14 := by
  cases level <;> decide

def Ahead.length (ts : Ahead) : Nat := ts.tokens.length

namespace Ahead

variable {ts us : Ahead}

theorem length_rest_le (ts : Ahead) : ts.rest.length ≤ ts.length := by
  simp [length, rest]

theorem length_rest_lt {l : Lexeme} (h : ts.head? = some l) : ts.rest.length < ts.length := by
  obtain ⟨p, hp⟩ := tokens_of_head? h
  rw [length, length, hp]
  exact Nat.lt_succ_self _

theorem length_rest_lt_of_bind {α : Type} {f : Lexeme → Option α} {a : α}
    (h : ts.head?.bind f = some a) : ts.rest.length < ts.length := by
  obtain ⟨l, hl, -⟩ := Option.bind_eq_some_iff.1 h
  exact length_rest_lt hl

theorem length_rest_lt_of_startsWith {f : Lexeme → Bool} (h : ts.startsWith f = true) :
    ts.rest.length < ts.length := by
  obtain ⟨l, p, -, hp⟩ := tokens_of_startsWith h
  rw [length, length, hp]
  exact Nat.lt_succ_self _

theorem length_expectSign {s : Sign} (h : ts.expectSign s = .ok us) : us.length < ts.length := by
  obtain ⟨p, hp⟩ := tokens_of_expectSign h
  rw [length, length, hp]
  exact Nat.lt_succ_self _

theorem length_expectName {r : String × Ahead} (h : ts.expectName = .ok r) :
    r.2.length < ts.length := by
  obtain ⟨p, hp⟩ := tokens_of_expectName h
  rw [length, length, hp]
  exact Nat.lt_succ_self _

theorem length_skipSemicolon_le (ts : Ahead) : ts.skipSemicolon.length ≤ ts.length := by
  unfold skipSemicolon
  split
  · exact ts.length_rest_le
  · exact Nat.le_refl _

end Ahead

section Nonempty

variable {lax : Bool} {ts : List Token}

theorem Written.expr_ne_nil {g : Grade} {e : Expr} (h : Written lax (.expr g e) ts) : ts ≠ [] := by
  cases h <;> simp

theorem Written.stmt_ne_nil {inLoop : Bool} {s : Stmt} (h : Written lax (.stmt inLoop s) ts) :
    ts ≠ [] := by
  cases h with
  | expr he => exact fun h => he.expr_ne_nil (List.append_eq_nil_iff.1 h).1
  | _ => simp

theorem Spans.length_le {phrase : Phrase} {ls us : List Token} (h : Spans phrase ls ts us) :
    us.length ≤ ts.length := by
  obtain ⟨cs, rfl, -⟩ := h
  simp

theorem Spans.length_lt {phrase : Phrase} {us : List Token} (h : Spans phrase [] ts us)
    (hp : ∀ {cs}, Written true phrase cs → cs ≠ []) : us.length < ts.length := by
  obtain ⟨cs, rfl, hw⟩ := h
  have := List.length_pos_iff.2 (hp hw)
  simp only [List.nil_append, List.length_append] at this ⊢
  omega

end Nonempty

namespace Parse

section Lengths

variable {n : Nat} {ts : Ahead}

theorem length_expr {r : Expr × Ahead} (h : expr n ts = .ok r) : r.2.length < ts.length :=
  ((soundExpr n).expr h).length_lt Written.expr_ne_nil

theorem length_operand {level : Level} {r : Expr × Ahead} (h : operand n level ts = .ok r) :
    r.2.length < ts.length :=
  ((soundExpr n).operand h).length_lt Written.expr_ne_nil

theorem length_chain {level : Level} {r : Expr × Ahead} (h : chain n level ts = .ok r) :
    r.2.length < ts.length :=
  ((soundExpr n).chain h).length_lt Written.expr_ne_nil

theorem length_primary {r : Expr × Ahead} (h : primary n ts = .ok r) : r.2.length < ts.length :=
  ((soundExpr n).primary h).length_lt Written.expr_ne_nil

theorem length_items {closing : Sign} {r : List Expr × Ahead} (h : items n closing ts = .ok r) :
    r.2.length < ts.length := by
  obtain ⟨p, spans⟩ := (soundExpr n).items h
  exact spans.length_le

theorem length_condition {r : Expr × Ahead} (h : condition n ts = .ok r) :
    r.2.length < ts.length := by
  obtain ⟨p, cs, q, hs, ht, -, -⟩ := condition_spans h
  rw [Ahead.length, Ahead.length, ht]
  simp only [List.length_append, List.length_cons]
  omega

theorem length_params {r : List String × Ahead} (h : params ts = .ok r) :
    r.2.length ≤ ts.length :=
  (params_spans h).length_le

theorem length_stmt {inLoop : Bool} {r : Stmt × Ahead} (h : stmt n inLoop ts = .ok r) :
    r.2.length < ts.length :=
  ((soundStmt n).stmt h).length_lt Written.stmt_ne_nil

theorem length_block {inLoop : Bool} {closing : List Keyword} {r : List Stmt × Ahead}
    (h : block n inLoop closing ts = .ok r) : r.2.length ≤ ts.length :=
  ((soundStmt n).block h).length_le

theorem length_branches {inLoop : Bool} {r : List (Expr × List Stmt) × Ahead}
    (h : branches n inLoop ts = .ok r) : r.2.length ≤ ts.length :=
  ((soundStmt n).branches h).length_le

end Lengths

theorem bind_congr {ε α β : Type} {x : Except ε α} {f g : α → Except ε β}
    (h : ∀ a, x = .ok a → f a = g a) : (x >>= f) = x >>= g := by
  cases x with
  | ok a => exact h a rfl
  | error e => rfl

theorem bind_rest_congr {ε α β : Type} {x : Except ε (α × Ahead)} {f g : α × Ahead → Except ε β}
    (h : ∀ a us, x = .ok (a, us) → f (a, us) = g (a, us)) : (x >>= f) = x >>= g :=
  bind_congr fun r hr => h r.1 r.2 hr

theorem names_steady {n : Nat} {ts : Ahead} (h : ts.length < n) :
    names (n + 1) ts = names n ts := by
  induction n generalizing ts with
  | zero => omega
  | succ n ih =>
    rw [names, names]
    refine bind_rest_congr fun x us hx => ?_
    have shorter := Ahead.length_expectName hx
    dsimp only at shorter ⊢
    split
    · have rest := us.length_rest_le
      rw [ih (by omega)]
    · rfl

theorem names_eq {n m : Nat} {ts : Ahead} (hn : ts.length < n) (h : n ≤ m) :
    names m ts = names n ts := by
  induction h with
  | refl => rfl
  | step h ih => rw [names_steady (Nat.lt_of_lt_of_le hn h), ih]

structure SteadyExpr (n : Nat) : Prop where
  expr : ∀ ts : Ahead, 20 * ts.length + 16 ≤ n → expr (n + 1) ts = expr n ts
  chain : ∀ level (ts : Ahead), 20 * ts.length + level.descent + 1 ≤ n →
    chain (n + 1) level ts = chain n level ts
  chainRest : ∀ level e (ts : Ahead), 20 * ts.length + 1 ≤ n →
    chainRest (n + 1) level e ts = chainRest n level e ts
  operand : ∀ level (ts : Ahead), 20 * ts.length + level.descent ≤ n →
    operand (n + 1) level ts = operand n level ts
  unary : ∀ ts : Ahead, 20 * ts.length + 3 ≤ n → unary (n + 1) ts = unary n ts
  postfixed : ∀ ts : Ahead, 20 * ts.length + 2 ≤ n → postfixed (n + 1) ts = postfixed n ts
  accesses : ∀ e (ts : Ahead), 20 * ts.length + 1 ≤ n → accesses (n + 1) e ts = accesses n e ts
  primary : ∀ ts : Ahead, 20 * ts.length + 1 ≤ n → primary (n + 1) ts = primary n ts
  items : ∀ closing (ts : Ahead), 20 * ts.length + 18 ≤ n →
    items (n + 1) closing ts = items n closing ts
  itemsRest : ∀ closing (ts : Ahead), 20 * ts.length + 17 ≤ n →
    itemsRest (n + 1) closing ts = itemsRest n closing ts
  properties : ∀ ts : Ahead, 20 * ts.length + 18 ≤ n → properties (n + 1) ts = properties n ts
  propertiesRest : ∀ ts : Ahead, 20 * ts.length + 17 ≤ n →
    propertiesRest (n + 1) ts = propertiesRest n ts

namespace SteadyExpr

variable {n : Nat} (k : SteadyExpr n)
include k

theorem expr_succ (ts : Ahead) (h : 20 * ts.length + 16 ≤ n + 1) :
    Parse.expr (n + 1 + 1) ts = Parse.expr (n + 1) ts := by
  have deep := Level.or.descent_le
  rw [Parse.expr, Parse.expr, k.chain .or ts (by omega)]
  refine bind_rest_congr fun left us hl => ?_
  have shorter := length_chain hl
  have rest := us.length_rest_le
  dsimp only at shorter ⊢
  rw [k.expr us.rest (by omega)]

theorem chain_succ (level : Level) (ts : Ahead) (h : 20 * ts.length + level.descent + 1 ≤ n + 1) :
    Parse.chain (n + 1 + 1) level ts = Parse.chain (n + 1) level ts := by
  rw [Parse.chain, Parse.chain, k.operand level ts (by omega)]
  refine bind_rest_congr fun left us hl => ?_
  have shorter := length_operand hl
  exact k.chainRest level left us (by dsimp only at shorter; omega)

theorem chainRest_succ (level : Level) (left : Expr) (ts : Ahead) (h : 20 * ts.length + 1 ≤ n + 1) :
    Parse.chainRest (n + 1 + 1) level left ts = Parse.chainRest (n + 1) level left ts := by
  have deep := level.descent_le
  rw [Parse.chainRest, Parse.chainRest]
  split
  · rfl
  · rename_i op ho
    have rest := Ahead.length_rest_lt_of_bind ho
    rw [k.operand level ts.rest (by omega)]
    refine bind_rest_congr fun right us hr => ?_
    have shorter := length_operand hr
    exact k.chainRest level _ us (by dsimp only at shorter; omega)

theorem operand_succ (level : Level) (ts : Ahead) (h : 20 * ts.length + level.descent ≤ n + 1) :
    Parse.operand (n + 1 + 1) level ts = Parse.operand (n + 1) level ts := by
  have deep := level.descent_pos
  rw [Parse.operand, Parse.operand]
  split
  · rename_i tighter ht
    have down := Level.descent_tighter ht
    exact k.chain tighter ts (by omega)
  · exact k.unary ts (by omega)

theorem unary_succ (ts : Ahead) (h : 20 * ts.length + 3 ≤ n + 1) :
    Parse.unary (n + 1 + 1) ts = Parse.unary (n + 1) ts := by
  rw [Parse.unary]
  conv_rhs => rw [Parse.unary]
  split
  · exact k.postfixed ts (by omega)
  · rename_i op ho
    have rest := Ahead.length_rest_lt_of_bind ho
    rw [k.unary ts.rest (by omega)]

theorem postfixed_succ (ts : Ahead) (h : 20 * ts.length + 2 ≤ n + 1) :
    Parse.postfixed (n + 1 + 1) ts = Parse.postfixed (n + 1) ts := by
  rw [Parse.postfixed, Parse.postfixed, k.primary ts (by omega)]
  refine bind_rest_congr fun first us hf => ?_
  have shorter := length_primary hf
  dsimp only at shorter ⊢
  rw [k.accesses first us (by omega)]

theorem accesses_succ (e : Expr) (ts : Ahead) (h : 20 * ts.length + 1 ≤ n + 1) :
    Parse.accesses (n + 1 + 1) e ts = Parse.accesses (n + 1) e ts := by
  rw [Parse.accesses, Parse.accesses]
  split
  · rename_i hd
    have rest := Ahead.length_rest_lt hd
    refine bind_rest_congr fun property us hp => ?_
    have shorter := Ahead.length_expectName hp
    exact k.accesses _ us (by dsimp only at shorter; omega)
  · rename_i hd
    have rest := Ahead.length_rest_lt hd
    rw [k.expr ts.rest (by omega)]
    refine bind_rest_congr fun i us hi => ?_
    have inner := length_expr hi
    refine bind_congr fun ws hc => ?_
    have shorter := Ahead.length_expectSign hc
    exact k.accesses _ ws (by dsimp only at inner shorter; omega)
  · rename_i hd
    have rest := Ahead.length_rest_lt hd
    rw [k.items .rightParen ts.rest (by omega)]
    refine bind_rest_congr fun args us ha => ?_
    have shorter := length_items ha
    exact k.accesses _ us (by dsimp only at shorter; omega)
  · rfl

theorem primary_succ (ts : Ahead) (h : 20 * ts.length + 1 ≤ n + 1) :
    Parse.primary (n + 1 + 1) ts = Parse.primary (n + 1) ts := by
  rw [Parse.primary, Parse.primary]
  split
  · rfl
  · rfl
  · rename_i hd
    have rest := Ahead.length_rest_lt hd
    rw [k.items .rightBracket ts.rest (by omega)]
  · rename_i hd
    have rest := Ahead.length_rest_lt hd
    rw [k.properties ts.rest (by omega)]
  · rename_i hd
    have rest := Ahead.length_rest_lt hd
    rw [k.expr ts.rest (by omega)]
  · rfl

theorem items_succ (closing : Sign) (ts : Ahead) (h : 20 * ts.length + 18 ≤ n + 1) :
    Parse.items (n + 1 + 1) closing ts = Parse.items (n + 1) closing ts := by
  rw [Parse.items, Parse.items, k.itemsRest closing ts (by omega)]

theorem itemsRest_succ (closing : Sign) (ts : Ahead) (h : 20 * ts.length + 17 ≤ n + 1) :
    Parse.itemsRest (n + 1 + 1) closing ts = Parse.itemsRest (n + 1) closing ts := by
  rw [Parse.itemsRest, Parse.itemsRest, k.expr ts (by omega)]
  refine bind_rest_congr fun e us he => ?_
  have shorter := length_expr he
  have rest := us.length_rest_le
  dsimp only at shorter ⊢
  rw [k.itemsRest closing us.rest (by omega)]

theorem properties_succ (ts : Ahead) (h : 20 * ts.length + 18 ≤ n + 1) :
    Parse.properties (n + 1 + 1) ts = Parse.properties (n + 1) ts := by
  rw [Parse.properties, Parse.properties, k.propertiesRest ts (by omega)]

theorem valued_succ (key : String) (ts : Ahead) (h : 20 * ts.length + 17 ≤ n + 1) :
    valued (n + 1) key ts = valued n key ts := by
  rw [valued, valued]
  refine bind_congr fun us hc => ?_
  have colon := Ahead.length_expectSign hc
  rw [k.expr us (by omega)]
  refine bind_rest_congr fun value ws hv => ?_
  have shorter := length_expr hv
  have rest := ws.length_rest_le
  dsimp only at shorter ⊢
  rw [k.propertiesRest ws.rest (by omega)]

theorem propertiesRest_succ (ts : Ahead) (h : 20 * ts.length + 17 ≤ n + 1) :
    Parse.propertiesRest (n + 1 + 1) ts = Parse.propertiesRest (n + 1) ts := by
  have rest := ts.length_rest_le
  rw [Parse.propertiesRest, Parse.propertiesRest]
  split
  · exact k.valued_succ _ ts.rest (by omega)
  · exact k.valued_succ _ ts.rest (by omega)
  · rfl

end SteadyExpr

theorem steadyExpr (n : Nat) : SteadyExpr n := by
  induction n with
  | zero =>
    have deep (level : Level) := level.descent_pos
    constructor
    case chain | operand => intro level ts h; have := deep level; omega
    all_goals intros; omega
  | succ n k =>
    exact ⟨k.expr_succ, k.chain_succ, k.chainRest_succ, k.operand_succ, k.unary_succ,
      k.postfixed_succ, k.accesses_succ, k.primary_succ, k.items_succ, k.itemsRest_succ,
      k.properties_succ, k.propertiesRest_succ⟩

section Statements

variable {n : Nat} {ts : Ahead}

theorem condition_steady (h : 20 * ts.length + 16 ≤ n) : condition (n + 1) ts = condition n ts := by
  rw [condition, condition]
  refine bind_congr fun us ho => ?_
  have shorter := Ahead.length_expectSign ho
  rw [(steadyExpr n).expr us (by omega)]

theorem returned_steady (h : 20 * ts.length + 16 ≤ n) : returned (n + 1) ts = returned n ts := by
  rw [returned, returned, (steadyExpr n).expr ts h]

end Statements

structure SteadyStmt (n : Nat) : Prop where
  stmt : ∀ inLoop (ts : Ahead), 20 * ts.length + 17 ≤ n →
    stmt (n + 1) inLoop ts = stmt n inLoop ts
  block : ∀ inLoop closing (ts : Ahead), 20 * ts.length + 18 ≤ n →
    block (n + 1) inLoop closing ts = block n inLoop closing ts
  branches : ∀ inLoop (ts : Ahead), 20 * ts.length + 18 ≤ n →
    branches (n + 1) inLoop ts = branches n inLoop ts
  otherwise : ∀ inLoop (ts : Ahead), 20 * ts.length + 18 ≤ n →
    otherwise (n + 1) inLoop ts = otherwise n inLoop ts

namespace SteadyStmt

variable {n : Nat} (k : SteadyStmt n)
include k

theorem stmt_succ (inLoop : Bool) (ts : Ahead) (h : 20 * ts.length + 17 ≤ n + 1) :
    Parse.stmt (n + 1 + 1) inLoop ts = Parse.stmt (n + 1) inLoop ts := by
  rw [Parse.stmt, Parse.stmt]
  split
  -- a branch
  case h_1 hd =>
    have rest := Ahead.length_rest_lt hd
    rw [condition_steady (by omega)]
    refine bind_rest_congr fun c us hc => ?_
    have header := length_condition hc
    dsimp only at header ⊢
    rw [k.block _ _ us (by omega)]
    refine bind_rest_congr fun body ws hb => ?_
    have shorter := length_block hb
    dsimp only at shorter ⊢
    rw [k.branches _ ws (by omega)]
    refine bind_rest_congr fun elseifs xs he => ?_
    have shorter := length_branches he
    dsimp only at shorter ⊢
    rw [k.otherwise _ xs (by omega)]
  -- the loops
  case h_2 hd =>
    have rest := Ahead.length_rest_lt hd
    rw [condition_steady (by omega)]
    refine bind_rest_congr fun c us hc => ?_
    have header := length_condition hc
    dsimp only at header ⊢
    rw [k.block _ _ us (by omega)]
  case h_3 hd =>
    have rest := Ahead.length_rest_lt hd
    refine bind_congr fun us ho => bind_rest_congr fun counter vs hn => bind_congr fun ws hk => ?_
    have opened := Ahead.length_expectSign ho
    have named := Ahead.length_expectName hn
    have parted := Ahead.length_expectSign hk
    dsimp only at named parted ⊢
    rw [(steadyExpr n).expr ws (by omega)]
    refine bind_rest_congr fun count xs hc => bind_congr fun ys hy => ?_
    have counted := length_expr hc
    have closed := Ahead.length_expectSign hy
    have header := ys.length_skipSemicolon_le
    dsimp only at counted closed ⊢
    rw [k.block _ _ _ (by omega)]
  -- a declaration
  case h_4 hd =>
    have rest := Ahead.length_rest_lt hd
    refine bind_rest_congr fun name us hn => bind_congr fun ws ho => bind_rest_congr fun ps xs hp =>
      bind_congr fun ys hy => ?_
    have named := Ahead.length_expectName hn
    have opened := Ahead.length_expectSign ho
    have listed := length_params hp
    have closed := Ahead.length_expectSign hy
    have header := ys.length_skipSemicolon_le
    dsimp only at named opened listed closed ⊢
    rw [k.block _ _ _ (by omega)]
  -- `return`, `break` and `continue`
  case h_5 hd =>
    have rest := Ahead.length_rest_lt hd
    rw [returned_steady (by omega)]
  case h_6 => rfl
  case h_7 => rfl
  case h_8 => rw [(steadyExpr n).expr ts (by omega)]

theorem block_succ (inLoop : Bool) (closing : List Keyword) (ts : Ahead)
    (h : 20 * ts.length + 18 ≤ n + 1) :
    Parse.block (n + 1 + 1) inLoop closing ts = Parse.block (n + 1) inLoop closing ts := by
  rw [Parse.block, Parse.block, k.stmt inLoop ts (by omega)]
  split
  · rfl
  · split
    · rfl
    · refine bind_rest_congr fun s us hs => ?_
      have shorter := length_stmt hs
      dsimp only at shorter ⊢
      rw [k.block inLoop closing us (by omega)]

theorem branches_succ (inLoop : Bool) (ts : Ahead) (h : 20 * ts.length + 18 ≤ n + 1) :
    Parse.branches (n + 1 + 1) inLoop ts = Parse.branches (n + 1) inLoop ts := by
  rw [Parse.branches, Parse.branches]
  split
  · rename_i hd
    have rest := Ahead.length_rest_lt_of_startsWith hd
    rw [condition_steady (by omega)]
    refine bind_rest_congr fun c us hc => ?_
    have header := length_condition hc
    dsimp only at header ⊢
    rw [k.block _ _ us (by omega)]
    refine bind_rest_congr fun body ws hb => ?_
    have shorter := length_block hb
    dsimp only at shorter ⊢
    rw [k.branches _ ws (by omega)]
  · rfl

theorem otherwise_succ (inLoop : Bool) (ts : Ahead) (h : 20 * ts.length + 18 ≤ n + 1) :
    Parse.otherwise (n + 1 + 1) inLoop ts = Parse.otherwise (n + 1) inLoop ts := by
  rw [Parse.otherwise, Parse.otherwise]
  split
  · rename_i hd
    have rest := Ahead.length_rest_lt_of_startsWith hd
    have header := ts.rest.length_skipSemicolon_le
    rw [k.block _ _ _ (by omega)]
  · rfl

end SteadyStmt

theorem steadyStmt (n : Nat) : SteadyStmt n := by
  induction n with
  | zero => constructor <;> intros <;> omega
  | succ n k => exact ⟨k.stmt_succ, k.block_succ, k.branches_succ, k.otherwise_succ⟩

theorem block_depth {n : Nat} {ts : Ahead} (h : depth ts ≤ n) (inLoop : Bool)
    (closing : List Keyword) :
    block n inLoop closing ts = block (depth ts) inLoop closing ts := by
  induction h with
  | refl => rfl
  | @step n h ih =>
    have enough : 20 * ts.length + 18 ≤ n := by
      have h : 20 * (ts.length + 1) ≤ n := h
      omega
    rw [(steadyStmt n).block inLoop closing ts enough, ih]

theorem expr_depth {n : Nat} {ts : Ahead} (h : depth ts ≤ n) :
    expr n ts = expr (depth ts) ts := by
  induction h with
  | refl => rfl
  | @step n h ih =>
    have enough : 20 * ts.length + 16 ≤ n := by
      have h : 20 * (ts.length + 1) ≤ n := h
      omega
    rw [(steadyExpr n).expr ts enough, ih]

end Parse

end CanvasScript
