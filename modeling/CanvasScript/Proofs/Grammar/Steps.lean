import CanvasScript.Proofs.Grammar

namespace CanvasScript.Parse

theorem ok_bind {ε α β : Type} (a : α) (f : α → Except ε β) : (Except.ok a >>= f) = f a := rfl

theorem head?_cons (t : Token) (ts : List Token) (finish : Position) :
    Ahead.head? ⟨t :: ts, finish⟩ = some t.lexeme := rfl

theorem rest_cons (t : Token) (ts : List Token) (finish : Position) :
    Ahead.rest ⟨t :: ts, finish⟩ = ⟨ts, finish⟩ := rfl

theorem startsWith_cons (t : Token) (ts : List Token) (finish : Position) (f : Lexeme → Bool) :
    Ahead.startsWith ⟨t :: ts, finish⟩ f = f t.lexeme := rfl

theorem startsWith_sign (s : Sign) (p : Position) (ts : List Token) (finish : Position) :
    Ahead.startsWith ⟨⟨.sign s, p⟩ :: ts, finish⟩ (Lexeme.isSign s) = true :=
  decide_eq_true rfl

theorem startsWith_keyword (k : Keyword) (p : Position) (ts : List Token) (finish : Position) :
    Ahead.startsWith ⟨⟨.keyword k, p⟩ :: ts, finish⟩ (Lexeme.isKeyword k) = true :=
  decide_eq_true rfl

theorem expectSign_cons (s : Sign) (p : Position) (ts : List Token) (finish : Position) :
    Ahead.expectSign ⟨⟨.sign s, p⟩ :: ts, finish⟩ s = .ok ⟨ts, finish⟩ := by
  rw [Ahead.expectSign, if_pos (startsWith_sign s p ts finish), rest_cons]

theorem expectKeyword_cons (k : Keyword) (p : Position) (ts : List Token) (finish : Position) :
    Ahead.expectKeyword ⟨⟨.keyword k, p⟩ :: ts, finish⟩ k = .ok ⟨ts, finish⟩ := by
  rw [Ahead.expectKeyword, if_pos (startsWith_keyword k p ts finish), rest_cons]

theorem expectName_cons (x : String) (p : Position) (ts : List Token) (finish : Position) :
    Ahead.expectName ⟨⟨.name x, p⟩ :: ts, finish⟩ = .ok (x, ⟨ts, finish⟩) := rfl

section Equations

-- The equations of the mutual descent are costly to derive, and every lemma below rewrites with
-- them: naming them here derives them once, before the lemmas are elaborated side by side.
attribute [local simp] expr chain chainRest operand unary postfixed accesses primary items
  itemsRest properties propertiesRest stmt block branches otherwise

end Equations

section Expressions

variable {n : Nat} {level : Level} {ts us ws : Ahead} {e l r v : Expr}

theorem expr_plain (h : chain n .or ts = .ok (e, us))
    (ha : us.head?.bind Lexeme.assignment? = none) : expr (n + 1) ts = .ok (e, us) := by
  rw [expr, h, ok_bind]
  simp only [ha]
  rfl

theorem expr_assign {t : Target} (h : chain n .or ts = .ok (l, us))
    (ha : us.head?.bind Lexeme.assignment? = some none) (hv : expr n us.rest = .ok (v, ws))
    (ht : l.target? = some t) : expr (n + 1) ts = .ok (.assign t v l.position, ws) := by
  rw [expr, h, ok_bind]
  simp only [ha, hv, ht, ok_bind]
  rfl

theorem expr_compound {t : Target} {op : ArithOp} (h : chain n .or ts = .ok (l, us))
    (ha : us.head?.bind Lexeme.assignment? = some (some op)) (hv : expr n us.rest = .ok (v, ws))
    (ht : l.target? = some t) : expr (n + 1) ts = .ok (.compound op t v l.position, ws) := by
  rw [expr, h, ok_bind]
  simp only [ha, hv, ht, ok_bind]
  rfl

theorem chain_operand (h : operand n level ts = .ok (e, us)) :
    chain (n + 1) level ts = chainRest n level e us := by
  rw [chain, h, ok_bind]

theorem chainRest_operator {op : BinaryOp} (ho : us.head?.bind level.operator? = some op)
    (hr : operand n level us.rest = .ok (r, ws)) :
    chainRest (n + 1) level l us = chainRest n level (.binary op l r l.position) ws := by
  rw [chainRest]
  simp only [ho, hr, ok_bind]

theorem operand_tighter {tighter : Level} (h : level.tighter? = some tighter) :
    operand (n + 1) level ts = chain n tighter ts := by
  rw [operand]
  simp only [h]

theorem operand_unary (h : level.tighter? = none) : operand (n + 1) level ts = unary n ts := by
  rw [operand]
  simp only [h]

theorem unary_plain (h : ts.head?.bind Lexeme.unaryOp? = none) :
    unary (n + 1) ts = postfixed n ts := by
  rw [unary]
  simp only [h]

theorem unary_operator {op : UnaryOp} (h : ts.head?.bind Lexeme.unaryOp? = some op)
    (he : unary n ts.rest = .ok (e, us)) :
    unary (n + 1) ts = .ok (.unary op e ts.position, us) := by
  rw [unary]
  simp only [h, he, ok_bind]
  rfl

def suffixed (n : Nat) (ts : Ahead) : Except Diagnostic (Expr × Ahead) := do
  let (first, ts) ← primary n ts
  accesses n first ts

theorem suffixed_primary (h : primary n ts = .ok (e, us)) : suffixed n ts = accesses n e us := by
  rw [suffixed, h, ok_bind]

theorem postfixed_plain (h : suffixed n ts = .ok (e, us))
    (hu : us.head?.bind Lexeme.updateOp? = none) : postfixed (n + 1) ts = .ok (e, us) := by
  rw [suffixed] at h
  rw [postfixed]
  cases hp : primary n ts with
  | error d =>
    rw [hp] at h
    cases h
  | ok first =>
    rw [hp, ok_bind] at h
    rw [ok_bind]
    simp only [h, ok_bind, hu]
    rfl

theorem postfixed_update {x : String} {p : Position} {op : UpdateOp} {sign : Sign}
    (h : suffixed n ts = .ok (.variable x p, us))
    (hu : us.head?.bind Lexeme.updateOp? = some (op, sign)) :
    postfixed (n + 1) ts = .ok (.update op x p, us.rest) := by
  rw [suffixed] at h
  rw [postfixed]
  cases hp : primary n ts with
  | error d =>
    rw [hp] at h
    cases h
  | ok first =>
    rw [hp, ok_bind] at h
    rw [ok_bind]
    simp only [h, ok_bind, hu]
    rfl

variable {f : Position} {p q : Position} {us : List Token}

theorem accesses_member (property : String) :
    accesses (n + 1) e ⟨⟨.sign .dot, p⟩ :: ⟨.name property, q⟩ :: us, f⟩ =
      accesses n (.member e property e.position) ⟨us, f⟩ := by
  rw [accesses]
  rfl

theorem accesses_index {i : Expr} {vs : List Token}
    (hi : expr n ⟨us, f⟩ = .ok (i, ⟨⟨.sign .rightBracket, q⟩ :: vs, f⟩)) :
    accesses (n + 1) e ⟨⟨.sign .leftBracket, p⟩ :: us, f⟩ =
      accesses n (.index e i e.position) ⟨vs, f⟩ := by
  rw [accesses]
  simp only [head?_cons, rest_cons, hi, ok_bind, expectSign_cons]

theorem accesses_call {args : List Expr} {vs : Ahead}
    (ha : items n .rightParen ⟨us, f⟩ = .ok (args, vs)) :
    accesses (n + 1) e ⟨⟨.sign .leftParen, p⟩ :: us, f⟩ =
      accesses n (.call e args e.position) vs := by
  rw [accesses]
  simp only [head?_cons, rest_cons, ha, ok_bind]

theorem primary_literal (l : Literal) :
    primary (n + 1) ⟨⟨l.lexeme, p⟩ :: us, f⟩ = .ok (.literal l p, ⟨us, f⟩) := by
  rw [primary]
  match l with
  | .number _ | .text _ | .bool true | .bool false | .null | .undefined => rfl

theorem primary_name (x : String) :
    primary (n + 1) ⟨⟨.name x, p⟩ :: us, f⟩ = .ok (.variable x p, ⟨us, f⟩) := by
  rw [primary]
  rfl

theorem primary_dollarName (x : String) :
    primary (n + 1) ⟨⟨.sign .dollar, p⟩ :: ⟨.name x, q⟩ :: us, f⟩ =
      .ok (.variable x p, ⟨us, f⟩) := by
  rw [primary]
  rfl

theorem primary_array {es : List Expr} {vs : Ahead}
    (h : items n .rightBracket ⟨us, f⟩ = .ok (es, vs)) :
    primary (n + 1) ⟨⟨.sign .leftBracket, p⟩ :: us, f⟩ = .ok (.array es p, vs) := by
  rw [primary]
  simp only [head?_cons, rest_cons, h, ok_bind]
  rfl

theorem primary_object {ps : List (String × Expr)} {vs : Ahead}
    (h : properties n ⟨us, f⟩ = .ok (ps, vs)) :
    primary (n + 1) ⟨⟨.sign .leftBrace, p⟩ :: us, f⟩ =
      .ok (.object (Fields.ofList ps).entries p, vs) := by
  rw [primary]
  simp only [head?_cons, rest_cons, h, ok_bind]
  rfl

theorem primary_paren {vs : List Token}
    (h : expr n ⟨us, f⟩ = .ok (e, ⟨⟨.sign .rightParen, q⟩ :: vs, f⟩)) :
    primary (n + 1) ⟨⟨.sign .leftParen, p⟩ :: us, f⟩ = .ok (e, ⟨vs, f⟩) := by
  rw [primary]
  simp only [head?_cons, rest_cons, h, ok_bind, expectSign_cons]
  rfl

theorem items_none {s : Sign} : items (n + 1) s ⟨⟨.sign s, p⟩ :: us, f⟩ = .ok ([], ⟨us, f⟩) := by
  rw [items, if_pos (startsWith_sign s p us f), rest_cons]

theorem items_some {s : Sign} {ts : Ahead} (h : ts.startsWith (Lexeme.isSign s) = false) :
    items (n + 1) s ts = itemsRest n s ts := by
  rw [items, if_neg (by simp [h])]

theorem itemsRest_last {s : Sign} {ts : Ahead} (hs : s ≠ .comma)
    (he : expr n ts = .ok (e, ⟨⟨.sign s, p⟩ :: us, f⟩)) :
    itemsRest (n + 1) s ts = .ok ([e], ⟨us, f⟩) := by
  have hc : Ahead.startsWith ⟨⟨.sign s, p⟩ :: us, f⟩ (Lexeme.isSign .comma) = false :=
    decide_eq_false hs.symm
  rw [itemsRest, he, ok_bind]
  simp only [hc, Bool.false_eq_true, if_false, expectSign_cons, ok_bind]
  rfl

theorem itemsRest_comma {s : Sign} {ts vs : Ahead} {es : List Expr}
    (he : expr n ts = .ok (e, ⟨⟨.sign .comma, p⟩ :: us, f⟩))
    (hr : itemsRest n s ⟨us, f⟩ = .ok (es, vs)) :
    itemsRest (n + 1) s ts = .ok (e :: es, vs) := by
  rw [itemsRest, he, ok_bind]
  simp only [startsWith_sign, if_true, rest_cons, hr, ok_bind]
  rfl

theorem properties_none :
    properties (n + 1) ⟨⟨.sign .rightBrace, p⟩ :: us, f⟩ = .ok ([], ⟨us, f⟩) := by
  rw [properties]
  rfl

theorem properties_some {ts : Ahead}
    (h : ts.startsWith (Lexeme.isSign .rightBrace) = false) :
    properties (n + 1) ts = propertiesRest n ts := by
  rw [properties, if_neg (by simp [h])]

variable {key : String} {t : Token}

theorem propertiesRest_last {vs : List Token} (ht : t.lexeme = .text key ∨ t.lexeme = .name key)
    (he : expr n ⟨us, f⟩ = .ok (e, ⟨⟨.sign .rightBrace, q⟩ :: vs, f⟩)) :
    propertiesRest (n + 1) ⟨t :: ⟨.sign .colon, p⟩ :: us, f⟩ = .ok ([(key, e)], ⟨vs, f⟩) := by
  have hc : Ahead.startsWith ⟨⟨.sign .rightBrace, q⟩ :: vs, f⟩ (Lexeme.isSign .comma) = false :=
    rfl
  rw [propertiesRest, head?_cons]
  rcases ht with ht | ht
  · simp only [ht, ok_bind, rest_cons, expectSign_cons, he, hc, Bool.false_eq_true, if_false]
    rfl
  · simp only [ht, ok_bind, rest_cons, expectSign_cons, he, hc, Bool.false_eq_true, if_false]
    rfl

theorem propertiesRest_comma {vs : List Token} {ps : List (String × Expr)} {ws : Ahead}
    (ht : t.lexeme = .text key ∨ t.lexeme = .name key)
    (he : expr n ⟨us, f⟩ = .ok (e, ⟨⟨.sign .comma, q⟩ :: vs, f⟩))
    (hr : propertiesRest n ⟨vs, f⟩ = .ok (ps, ws)) :
    propertiesRest (n + 1) ⟨t :: ⟨.sign .colon, p⟩ :: us, f⟩ = .ok ((key, e) :: ps, ws) := by
  rw [propertiesRest, head?_cons]
  rcases ht with ht | ht
  · simp only [ht, ok_bind, rest_cons, expectSign_cons, he, startsWith_sign, if_true, hr]
    rfl
  · simp only [ht, ok_bind, rest_cons, expectSign_cons, he, startsWith_sign, if_true, hr]
    rfl

end Expressions

section Statements

variable {n : Nat} {f : Position} {p q : Position} {us vs : List Token} {c : Expr}

theorem names_last {x : String} (h : Ahead.startsWith ⟨us, f⟩ (Lexeme.isSign .comma) = false) :
    names (n + 1) ⟨⟨.name x, p⟩ :: us, f⟩ = .ok ([x], ⟨us, f⟩) := by
  rw [names, expectName_cons, ok_bind]
  simp only [h, Bool.false_eq_true, if_false]
  rfl

theorem names_comma {x : String} {xs : List String} {ws : Ahead}
    (h : names n ⟨us, f⟩ = .ok (xs, ws)) :
    names (n + 1) ⟨⟨.name x, p⟩ :: ⟨.sign .comma, q⟩ :: us, f⟩ = .ok (x :: xs, ws) := by
  rw [names, expectName_cons, ok_bind]
  simp only [startsWith_sign, if_true, rest_cons, h, ok_bind]
  rfl

theorem condition_ok (h : expr n ⟨us, f⟩ = .ok (c, ⟨⟨.sign .rightParen, q⟩ :: vs, f⟩)) :
    condition n ⟨⟨.sign .leftParen, p⟩ :: us, f⟩ = .ok (c, Ahead.skipSemicolon ⟨vs, f⟩) := by
  rw [condition, expectSign_cons, ok_bind, h, ok_bind]
  simp only [expectSign_cons, ok_bind]
  rfl

theorem close_end : close ⟨⟨.keyword .end_, p⟩ :: us, f⟩ = .ok (Ahead.skipSemicolon ⟨us, f⟩) := by
  rw [close, expectKeyword_cons, ok_bind]
  rfl

theorem returned_none (h : (Ahead.head? ⟨us, f⟩).all Lexeme.endsReturn = true) :
    returned n ⟨us, f⟩ = .ok (none, ⟨us, f⟩) := by
  rw [returned, if_pos h]

theorem returned_some {ts ws : Ahead} (h : ts.head?.all Lexeme.endsReturn = false)
    (he : expr n ts = .ok (c, ws)) : returned n ts = .ok (some c, ws) := by
  rw [returned, if_neg (by simp [h]), he]
  rfl

variable {inLoop : Bool} {body : List Stmt} {ws xs ys zs : Ahead}

theorem stmt_branch {elseifs : List (Expr × List Stmt)} {other : Option (List Stmt)}
    (hc : condition n ⟨us, f⟩ = .ok (c, ws))
    (hb : block n inLoop [.elseif, .else_, .end_] ws = .ok (body, xs))
    (he : branches n inLoop xs = .ok (elseifs, ys))
    (ho : otherwise n inLoop ys = .ok (other, ⟨⟨.keyword .end_, q⟩ :: vs, f⟩)) :
    stmt (n + 1) inLoop ⟨⟨.keyword .if_, p⟩ :: us, f⟩ =
      .ok (.branch c body elseifs other p, Ahead.skipSemicolon ⟨vs, f⟩) := by
  rw [stmt]
  simp only [head?_cons, rest_cons, hc, ok_bind, hb, he, ho, close_end]
  rfl

theorem stmt_while (hc : condition n ⟨us, f⟩ = .ok (c, ws))
    (hb : block n true [.end_] ws = .ok (body, ⟨⟨.keyword .end_, q⟩ :: vs, f⟩)) :
    stmt (n + 1) inLoop ⟨⟨.keyword .while_, p⟩ :: us, f⟩ =
      .ok (.while_ c body p, Ahead.skipSemicolon ⟨vs, f⟩) := by
  rw [stmt]
  simp only [head?_cons, rest_cons, hc, ok_bind, hb, close_end]
  rfl

theorem stmt_for {counter : String} {p₁ p₂ p₃ p₄ p₅ : Position} {ts : List Token}
    (hc : expr n ⟨us, f⟩ = .ok (c, ⟨⟨.sign .rightParen, p₄⟩ :: ts, f⟩))
    (hb : block n true [.end_] (Ahead.skipSemicolon ⟨ts, f⟩) =
      .ok (body, ⟨⟨.keyword .end_, p₅⟩ :: vs, f⟩)) :
    stmt (n + 1) inLoop ⟨⟨.keyword .for_, p⟩ :: ⟨.sign .leftParen, p₁⟩ :: ⟨.name counter, p₂⟩ ::
        ⟨.sign .comma, p₃⟩ :: us, f⟩ =
      .ok (.for_ counter c body p, Ahead.skipSemicolon ⟨vs, f⟩) := by
  rw [stmt]
  simp only [head?_cons, rest_cons, expectSign_cons, expectName_cons, ok_bind, hc, hb, close_end]
  rfl

theorem stmt_function {name : String} {ps : List String} {p₁ p₂ p₃ p₄ : Position}
    {ts : List Token}
    (hp : params ⟨us, f⟩ = .ok (ps, ⟨⟨.sign .rightParen, p₃⟩ :: ts, f⟩))
    (hb : block n inLoop [.end_] (Ahead.skipSemicolon ⟨ts, f⟩) =
      .ok (body, ⟨⟨.keyword .end_, p₄⟩ :: vs, f⟩)) :
    stmt (n + 1) inLoop ⟨⟨.keyword .function, p⟩ :: ⟨.name name, p₁⟩ ::
        ⟨.sign .leftParen, p₂⟩ :: us, f⟩ =
      .ok (.function name ps body p, Ahead.skipSemicolon ⟨vs, f⟩) := by
  rw [stmt]
  simp only [head?_cons, rest_cons, expectSign_cons, expectName_cons, ok_bind, hp, hb, close_end]
  rfl

theorem stmt_return {value : Option Expr} (h : returned n ⟨us, f⟩ = .ok (value, ws)) :
    stmt (n + 1) inLoop ⟨⟨.keyword .return_, p⟩ :: us, f⟩ =
      .ok (.return_ value p, ws.skipSemicolon) := by
  rw [stmt]
  simp only [head?_cons, rest_cons, h, ok_bind]
  rfl

theorem stmt_break : stmt (n + 1) true ⟨⟨.keyword .break_, p⟩ :: us, f⟩ =
    .ok (.break_ p, Ahead.skipSemicolon ⟨us, f⟩) := by
  rw [stmt]
  rfl

theorem stmt_continue : stmt (n + 1) true ⟨⟨.keyword .continue_, p⟩ :: us, f⟩ =
    .ok (.continue_ p, Ahead.skipSemicolon ⟨us, f⟩) := by
  rw [stmt]
  rfl

theorem block_end {closing : List Keyword} {k : Keyword} (h : k ∈ closing) :
    block (n + 1) inLoop closing ⟨⟨.keyword k, p⟩ :: us, f⟩ =
      .ok ([], ⟨⟨.keyword k, p⟩ :: us, f⟩) := by
  have hc : closing.any (Lexeme.isKeyword · (.keyword k)) = true :=
    List.any_eq_true.2 ⟨k, h, by simp [Lexeme.isKeyword]⟩
  rw [block]
  simp only [head?_cons, hc, if_true]

theorem block_finish {closing : List Keyword} :
    block (n + 1) inLoop closing ⟨[], f⟩ = .ok ([], ⟨[], f⟩) := by
  rw [block]
  rfl

theorem block_stmt {closing : List Keyword} {t : Token} {s : Stmt} {ss : List Stmt}
    (hc : closing.any (Lexeme.isKeyword · t.lexeme) = false)
    (hs : stmt n inLoop ⟨t :: us, f⟩ = .ok (s, ws))
    (hr : block n inLoop closing ws = .ok (ss, xs)) :
    block (n + 1) inLoop closing ⟨t :: us, f⟩ = .ok (s :: ss, xs) := by
  rw [block]
  simp only [head?_cons, hc, Bool.false_eq_true, if_false, hs, ok_bind, hr]
  rfl

theorem branches_none {ts : Ahead} (h : ts.startsWith (Lexeme.isKeyword .elseif) = false) :
    branches (n + 1) inLoop ts = .ok ([], ts) := by
  rw [branches, if_neg (by simp [h])]

theorem branches_some {bs : List (Expr × List Stmt)} (hc : condition n ⟨us, f⟩ = .ok (c, ws))
    (hb : block n inLoop [.elseif, .else_, .end_] ws = .ok (body, xs))
    (hr : branches n inLoop xs = .ok (bs, ys)) :
    branches (n + 1) inLoop ⟨⟨.keyword .elseif, p⟩ :: us, f⟩ = .ok ((c, body) :: bs, ys) := by
  rw [branches, if_pos (startsWith_keyword .elseif p us f), rest_cons, hc, ok_bind]
  simp only [hb, ok_bind, hr]
  rfl

theorem otherwise_none {ts : Ahead} (h : ts.startsWith (Lexeme.isKeyword .else_) = false) :
    otherwise (n + 1) inLoop ts = .ok (none, ts) := by
  rw [otherwise, if_neg (by simp [h])]

theorem otherwise_some
    (hb : block n inLoop [.end_] (Ahead.skipSemicolon ⟨us, f⟩) = .ok (body, ws)) :
    otherwise (n + 1) inLoop ⟨⟨.keyword .else_, p⟩ :: us, f⟩ = .ok (some body, ws) := by
  rw [otherwise, if_pos (startsWith_keyword .else_ p us f), rest_cons, hb]
  rfl

end Statements

end CanvasScript.Parse
