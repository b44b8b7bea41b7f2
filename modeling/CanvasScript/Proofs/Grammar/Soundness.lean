import CanvasScript.Proofs.Grammar.Derivations
import CanvasScript.Proofs.Grammar.Inversion

namespace CanvasScript

theorem Written.loosen {e : Expr} {f g : Grade} {ts : List Token}
    (hw : Written true (.expr g e) ts) (hfg : f ≤ g) : Written true (.expr f e) ts := by
  cases hw with
  | literal l p q => exact .literal l p q
  | name x p q => exact .name x p q
  | dollarName x p q r => exact .dollarName x p q r
  | assign p q hg ht hl hv => exact .assign p q (Nat.le_trans hfg hg) ht hl hv
  | compound op p q hg ht hl hv => exact .compound op p q (Nat.le_trans hfg hg) ht hl hv
  | update op q r hg hx => exact .update op q r (Nat.le_trans hfg hg) hx
  | unary p q hg hs ho => exact .unary p q (Nat.le_trans hfg hg) hs ho
  | binary p q hg hs hl hr => exact .binary p q (Nat.le_trans hfg hg) hs hl hr
  | call p q r hc ha => exact .call p q r hc ha
  | member property p q r ho => exact .member property p q r ho
  | index p q r ho hi => exact .index p q r ho hi
  | array p q r hi => exact .array p q r hi
  | object p q r hp => exact .object p q r hp
  | paren q r _ he => exact .paren q r (.inl rfl) he

def Spans (phrase : Phrase) (ls ts us : List Token) : Prop :=
  ∃ cs, ts = cs ++ us ∧ Written true phrase (ls ++ cs)

theorem Spans.of_written {phrase : Phrase} {cs ts us : List Token} (h : ts = cs ++ us)
    (hw : Written true phrase cs) : Spans phrase [] ts us := ⟨cs, h, hw⟩

theorem Spans.loosen {e : Expr} {f g : Grade} {ts us : List Token}
    (h : Spans (.expr g e) [] ts us) (hfg : f ≤ g) : Spans (.expr f e) [] ts us := by
  obtain ⟨cs, hc, hw⟩ := h
  exact ⟨cs, hc, hw.loosen hfg⟩

namespace Parse

structure SoundExpr (n : Nat) : Prop where
  expr : ∀ {ts r}, expr n ts = .ok r → Spans (.expr .assignment r.1) [] ts.tokens r.2.tokens
  chain : ∀ {level ts r}, chain n level ts = .ok r →
    Spans (.expr (.binary level) r.1) [] ts.tokens r.2.tokens
  chainRest : ∀ {level left ls ts r}, Written true (.expr (.binary level) left) ls →
    chainRest n level left ts = .ok r →
    Spans (.expr (.binary level) r.1) ls ts.tokens r.2.tokens
  operand : ∀ {level ts r}, operand n level ts = .ok r →
    Spans (.expr level.operandGrade r.1) [] ts.tokens r.2.tokens
  unary : ∀ {ts r}, unary n ts = .ok r → Spans (.expr .unary r.1) [] ts.tokens r.2.tokens
  postfixed : ∀ {ts r}, postfixed n ts = .ok r →
    Spans (.expr .postfixed r.1) [] ts.tokens r.2.tokens
  accesses : ∀ {e ls ts r}, Written true (.expr .suffixed e) ls → accesses n e ts = .ok r →
    Spans (.expr .suffixed r.1) ls ts.tokens r.2.tokens
  primary : ∀ {ts r}, primary n ts = .ok r → Spans (.expr .suffixed r.1) [] ts.tokens r.2.tokens
  items : ∀ {closing ts r}, items n closing ts = .ok r →
    ∃ p, Spans (.items r.1) [] ts.tokens (closing.token p :: r.2.tokens)
  itemsRest : ∀ {closing ts r}, itemsRest n closing ts = .ok r →
    r.1 ≠ [] ∧ ∃ p, Spans (.items r.1) [] ts.tokens (closing.token p :: r.2.tokens)
  properties : ∀ {ts r}, properties n ts = .ok r →
    ∃ p, Spans (.properties r.1) [] ts.tokens (Sign.rightBrace.token p :: r.2.tokens)
  propertiesRest : ∀ {ts r}, propertiesRest n ts = .ok r →
    r.1 ≠ [] ∧ ∃ p, Spans (.properties r.1) [] ts.tokens (Sign.rightBrace.token p :: r.2.tokens)

def valued (n : Nat) (key : String) (ts : Ahead) :
    Except Diagnostic (List (String × Expr) × Ahead) := do
  let ts ← ts.expectSign .colon
  let (value, ts) ← expr n ts
  if ts.startsWith (Lexeme.isSign .comma) then
    let (ps, ts) ← propertiesRest n ts.rest
    return ((key, value) :: ps, ts)
  else
    let ts ← ts.expectSign .rightBrace
    return ([(key, value)], ts)

theorem soundExpr_zero : SoundExpr 0 where
  expr h := by cases h
  chain h := by cases h
  chainRest _ h := by cases h
  operand h := by cases h
  unary h := by cases h
  postfixed h := by cases h
  accesses _ h := by cases h
  primary h := by cases h
  items h := by cases h
  itemsRest h := by cases h
  properties h := by cases h
  propertiesRest h := by cases h

namespace SoundExpr

variable {n : Nat} {ts : Ahead} (k : SoundExpr n)
include k

theorem expr_succ {r : Expr × Ahead} (h : Parse.expr (n + 1) ts = .ok r) :
    Spans (.expr .assignment r.1) [] ts.tokens r.2.tokens := by
  rw [Parse.expr] at h
  obtain ⟨⟨left, us⟩, hl, h⟩ := ok_of_bind h
  obtain ⟨ls, hls, wl⟩ := k.chain hl
  dsimp only at h
  split at h
  · cases h
    exact ⟨ls, hls, wl.loosen (Nat.zero_le _)⟩
  · rename_i op ho
    obtain ⟨l, p, ha, hp⟩ := Ahead.tokens_of_head?_bind ho
    cases Lexeme.eq_sign_of_assignment? ha
    obtain ⟨⟨value, ws⟩, hv, h⟩ := ok_of_bind h
    obtain ⟨vs, hvs, wv⟩ := k.expr hv
    dsimp only at h
    split at h
    · cases h
    · rename_i target ht
      have tokens : ts.tokens =
          ls ++ ⟨.sign (op.elim .eq ArithOp.assignSign), p⟩ :: vs ++ ws.tokens := by
        rw [hls, hp, hvs]
        simp
      split at h
      · cases h
        exact ⟨_, tokens, .assign _ p (Nat.zero_le _) ht wl wv⟩
      · cases h
        exact ⟨_, tokens, .compound _ _ p (Nat.zero_le _) ht wl wv⟩

theorem chain_succ {level : Level} {r : Expr × Ahead}
    (h : Parse.chain (n + 1) level ts = .ok r) :
    Spans (.expr (.binary level) r.1) [] ts.tokens r.2.tokens := by
  rw [Parse.chain] at h
  obtain ⟨⟨left, us⟩, hl, h⟩ := ok_of_bind h
  obtain ⟨ls, hls, wl⟩ := k.operand hl
  obtain ⟨cs, hcs, wc⟩ := k.chainRest (wl.loosen (Nat.le_of_lt level.rank_lt_operandGrade)) h
  refine ⟨ls ++ cs, ?_, wc⟩
  rw [hls, hcs, List.append_assoc]

theorem chainRest_succ {level : Level} {left : Expr} {ls : List Token} {r : Expr × Ahead}
    (wl : Written true (.expr (.binary level) left) ls)
    (h : Parse.chainRest (n + 1) level left ts = .ok r) :
    Spans (.expr (.binary level) r.1) ls ts.tokens r.2.tokens := by
  rw [Parse.chainRest] at h
  split at h
  · cases h
    exact ⟨[], rfl, by rwa [List.append_nil]⟩
  · rename_i op ho
    obtain ⟨l, p, ha, hp⟩ := Ahead.tokens_of_head?_bind ho
    obtain ⟨rfl, hl⟩ := Lexeme.level_of_operator? ha
    obtain ⟨⟨right, us⟩, hr, h⟩ := ok_of_bind h
    obtain ⟨rs, hrs, wr⟩ := k.operand hr
    obtain ⟨cs, hcs, wc⟩ := k.chainRest (.binary left.position p (Nat.le_refl _) hl wl wr) h
    refine ⟨⟨l, p⟩ :: rs ++ cs, ?_, by simpa using wc⟩
    rw [hp, hrs, hcs]
    simp

theorem operand_succ {level : Level} {r : Expr × Ahead}
    (h : Parse.operand (n + 1) level ts = .ok r) :
    Spans (.expr level.operandGrade r.1) [] ts.tokens r.2.tokens := by
  rw [Parse.operand] at h
  split at h
  · rename_i tighter ht
    rw [Level.operandGrade, ht]
    exact k.chain h
  · rename_i ht
    rw [Level.operandGrade, ht]
    exact k.unary h

theorem unary_succ {r : Expr × Ahead} (h : Parse.unary (n + 1) ts = .ok r) :
    Spans (.expr .unary r.1) [] ts.tokens r.2.tokens := by
  rw [Parse.unary] at h
  split at h
  · exact (k.postfixed h).loosen (by decide)
  · rename_i op ho
    obtain ⟨l, p, ha, hp⟩ := Ahead.tokens_of_head?_bind ho
    obtain ⟨⟨inner, us⟩, hi, h⟩ := ok_of_bind h
    obtain ⟨cs, hcs, wi⟩ := k.unary hi
    cases h
    refine ⟨⟨l, p⟩ :: cs, ?_, .unary _ p (Nat.le_refl _) (Lexeme.mem_spellings_of_unaryOp? ha) wi⟩
    rw [hp, hcs]
    rfl

theorem postfixed_succ {r : Expr × Ahead} (h : Parse.postfixed (n + 1) ts = .ok r) :
    Spans (.expr .postfixed r.1) [] ts.tokens r.2.tokens := by
  rw [Parse.postfixed] at h
  obtain ⟨⟨first, us⟩, hf, h⟩ := ok_of_bind h
  obtain ⟨fs, hfs, wf⟩ := k.primary hf
  obtain ⟨⟨e, ws⟩, he, h⟩ := ok_of_bind h
  obtain ⟨cs, hcs, wc⟩ := k.accesses wf he
  have tokens : ts.tokens = fs ++ cs ++ ws.tokens := by
    rw [hfs, hcs, List.append_assoc]
  dsimp only at h
  split at h
  · cases h
    exact ⟨fs ++ cs, tokens, wc.loosen (by decide)⟩
  · rename_i op sign ho
    obtain ⟨l, p, ha, hp⟩ := Ahead.tokens_of_head?_bind ho
    cases Lexeme.eq_sign_of_updateOp? ha
    split at h
    · rename_i name q
      cases h
      refine ⟨fs ++ cs ++ [op.sign.token p], ?_, .update op q p (Nat.le_refl _) wc⟩
      rw [tokens, hp]
      simp [Sign.token]
    · cases h

theorem accesses_succ {e : Expr} {ls : List Token} {r : Expr × Ahead}
    (we : Written true (.expr .suffixed e) ls) (h : Parse.accesses (n + 1) e ts = .ok r) :
    Spans (.expr .suffixed r.1) ls ts.tokens r.2.tokens := by
  rw [Parse.accesses] at h
  split at h
  case h_1 hd =>
    obtain ⟨p, hp⟩ := Ahead.tokens_of_head?_sign hd
    obtain ⟨⟨property, us⟩, hn, h⟩ := ok_of_bind h
    obtain ⟨q, hq⟩ := Ahead.tokens_of_expectName hn
    obtain ⟨cs, hcs, wc⟩ := k.accesses (.member property e.position p q we) h
    refine ⟨Sign.dot.token p :: ⟨.name property, q⟩ :: cs, ?_, by simpa using wc⟩
    rw [hp, hq, hcs]
    rfl
  case h_2 hd =>
    obtain ⟨p, hp⟩ := Ahead.tokens_of_head?_sign hd
    obtain ⟨⟨i, us⟩, hi, h⟩ := ok_of_bind h
    obtain ⟨is, his, wi⟩ := k.expr hi
    obtain ⟨ws, hc, h⟩ := ok_of_bind h
    obtain ⟨q, hq⟩ := Ahead.tokens_of_expectSign hc
    obtain ⟨cs, hcs, wc⟩ := k.accesses (.index e.position p q we wi) h
    refine ⟨Sign.leftBracket.token p :: is ++ Sign.rightBracket.token q :: cs, ?_,
      by simpa using wc⟩
    rw [hp, his, hq, hcs]
    simp
  case h_3 hd =>
    obtain ⟨p, hp⟩ := Ahead.tokens_of_head?_sign hd
    obtain ⟨⟨args, us⟩, ha, h⟩ := ok_of_bind h
    obtain ⟨q, as, has, wa⟩ := k.items ha
    obtain ⟨cs, hcs, wc⟩ := k.accesses (.call e.position p q we wa) h
    refine ⟨Sign.leftParen.token p :: as ++ Sign.rightParen.token q :: cs, ?_, by simpa using wc⟩
    rw [hp, has, hcs]
    simp
  case h_4 =>
    cases h
    exact ⟨[], rfl, by rwa [List.append_nil]⟩

theorem primary_succ {r : Expr × Ahead} (h : Parse.primary (n + 1) ts = .ok r) :
    Spans (.expr .suffixed r.1) [] ts.tokens r.2.tokens := by
  rw [Parse.primary] at h
  split at h
  case h_1 x hd =>
    obtain ⟨p, hp⟩ := Ahead.tokens_of_head? hd
    cases h
    exact ⟨_, hp, .name x _ p⟩
  case h_2 hd =>
    obtain ⟨p, hp⟩ := Ahead.tokens_of_head?_sign hd
    obtain ⟨⟨x, us⟩, hn, h⟩ := ok_of_bind h
    obtain ⟨q, hq⟩ := Ahead.tokens_of_expectName hn
    cases h
    refine .of_written ?_ (.dollarName x _ p q)
    rw [hp, hq]
    rfl
  case h_3 hd =>
    obtain ⟨p, hp⟩ := Ahead.tokens_of_head?_sign hd
    obtain ⟨⟨es, us⟩, hi, h⟩ := ok_of_bind h
    obtain ⟨q, cs, hcs, wi⟩ := k.items hi
    cases h
    refine .of_written ?_ (.array _ p q wi)
    rw [hp, hcs]
    simp
  case h_4 hd =>
    obtain ⟨p, hp⟩ := Ahead.tokens_of_head?_sign hd
    obtain ⟨⟨ps, us⟩, hi, h⟩ := ok_of_bind h
    obtain ⟨q, cs, hcs, wi⟩ := k.properties hi
    cases h
    refine .of_written ?_ (.object _ p q wi)
    rw [hp, hcs]
    simp
  case h_5 hd =>
    obtain ⟨p, hp⟩ := Ahead.tokens_of_head?_sign hd
    obtain ⟨⟨e, us⟩, he, h⟩ := ok_of_bind h
    obtain ⟨cs, hcs, we⟩ := k.expr he
    obtain ⟨ws, hc, h⟩ := ok_of_bind h
    obtain ⟨q, hq⟩ := Ahead.tokens_of_expectSign hc
    cases h
    refine .of_written ?_ (.paren p q (.inl rfl) we)
    rw [hp, hcs, hq]
    simp
  case h_6 =>
    split at h
    · rename_i l hl
      obtain ⟨t, p, ha, hp⟩ := Ahead.tokens_of_head?_bind hl
      cases h
      cases Lexeme.eq_lexeme_of_literal? ha
      exact ⟨_, hp, .literal l _ p⟩
    · cases h

theorem items_succ {closing : Sign} {r : List Expr × Ahead}
    (h : Parse.items (n + 1) closing ts = .ok r) :
    ∃ p, Spans (.items r.1) [] ts.tokens (closing.token p :: r.2.tokens) := by
  rw [Parse.items] at h
  split at h
  · rename_i hc
    obtain ⟨p, hp⟩ := Ahead.tokens_of_startsWith_sign hc
    cases h
    exact ⟨p, [], hp, .noItems⟩
  · exact (k.itemsRest h).2

theorem itemsRest_succ {closing : Sign} {r : List Expr × Ahead}
    (h : Parse.itemsRest (n + 1) closing ts = .ok r) :
    r.1 ≠ [] ∧ ∃ p, Spans (.items r.1) [] ts.tokens (closing.token p :: r.2.tokens) := by
  rw [Parse.itemsRest] at h
  obtain ⟨⟨e, us⟩, he, h⟩ := ok_of_bind h
  obtain ⟨cs, hcs, we⟩ := k.expr he
  dsimp only at h
  split at h
  · rename_i hc
    obtain ⟨p, hp⟩ := Ahead.tokens_of_startsWith_sign hc
    obtain ⟨⟨es, ws⟩, hr, h⟩ := ok_of_bind h
    obtain ⟨hne, q, ds, hds, wr⟩ := k.itemsRest hr
    cases h
    refine ⟨List.cons_ne_nil _ _, q, cs ++ Sign.comma.token p :: ds, ?_, ?_⟩
    · rw [hcs, hp, hds]
      simp
    · obtain ⟨d, es, rfl⟩ := List.exists_cons_of_ne_nil hne
      exact .item p we wr
  · obtain ⟨ws, hc, h⟩ := ok_of_bind h
    obtain ⟨p, hp⟩ := Ahead.tokens_of_expectSign hc
    cases h
    refine ⟨List.cons_ne_nil _ _, p, cs, ?_, .lastItem we⟩
    rw [hcs, hp]

theorem properties_succ {r : List (String × Expr) × Ahead}
    (h : Parse.properties (n + 1) ts = .ok r) :
    ∃ p, Spans (.properties r.1) [] ts.tokens (Sign.rightBrace.token p :: r.2.tokens) := by
  rw [Parse.properties] at h
  split at h
  · rename_i hc
    obtain ⟨p, hp⟩ := Ahead.tokens_of_startsWith_sign hc
    cases h
    exact ⟨p, [], hp, .noProperties⟩
  · exact (k.propertiesRest h).2

theorem valued_ok {key : String} {l : Lexeme} {p : Position} {r : List (String × Expr) × Ahead}
    (hl : l = .text key ∨ l = .name key) (h : valued n key ts = .ok r) :
    r.1 ≠ [] ∧ ∃ q, Spans (.properties r.1) [] (⟨l, p⟩ :: ts.tokens)
      (Sign.rightBrace.token q :: r.2.tokens) := by
  rw [valued] at h
  obtain ⟨us, hc, h⟩ := ok_of_bind h
  obtain ⟨q, hq⟩ := Ahead.tokens_of_expectSign hc
  obtain ⟨⟨e, ws⟩, he, h⟩ := ok_of_bind h
  obtain ⟨cs, hcs, we⟩ := k.expr he
  dsimp only at h
  split at h
  · rename_i hc
    obtain ⟨c, hc⟩ := Ahead.tokens_of_startsWith_sign hc
    obtain ⟨⟨ps, xs⟩, hr, h⟩ := ok_of_bind h
    obtain ⟨hne, r, ds, hds, wr⟩ := k.propertiesRest hr
    cases h
    refine ⟨List.cons_ne_nil _ _, r, ⟨l, p⟩ :: Sign.colon.token q :: cs ++ Sign.comma.token c :: ds,
      ?_, ?_⟩
    · rw [hq, hcs, hc, hds]
      simp
    · obtain ⟨d, ps, rfl⟩ := List.exists_cons_of_ne_nil hne
      exact .property p q c hl we wr
  · obtain ⟨xs, hc, h⟩ := ok_of_bind h
    obtain ⟨c, hc⟩ := Ahead.tokens_of_expectSign hc
    cases h
    refine ⟨List.cons_ne_nil _ _, c, _, ?_, .lastProperty p q hl we⟩
    rw [hq, hcs, hc]
    rfl

theorem propertiesRest_succ {r : List (String × Expr) × Ahead}
    (h : Parse.propertiesRest (n + 1) ts = .ok r) :
    r.1 ≠ [] ∧
      ∃ p, Spans (.properties r.1) [] ts.tokens (Sign.rightBrace.token p :: r.2.tokens) := by
  rw [Parse.propertiesRest] at h
  split at h
  · rename_i key hd
    obtain ⟨p, hp⟩ := Ahead.tokens_of_head? hd
    rw [hp]
    exact k.valued_ok (.inl rfl) h
  · rename_i key hd
    obtain ⟨p, hp⟩ := Ahead.tokens_of_head? hd
    rw [hp]
    exact k.valued_ok (.inr rfl) h
  · cases h

end SoundExpr

theorem soundExpr (n : Nat) : SoundExpr n := by
  induction n with
  | zero => exact soundExpr_zero
  | succ n k =>
    exact ⟨k.expr_succ, k.chain_succ, k.chainRest_succ, k.operand_succ, k.unary_succ,
      k.postfixed_succ, k.accesses_succ, k.primary_succ, k.items_succ, k.itemsRest_succ,
      k.properties_succ, k.propertiesRest_succ⟩

section Headers

variable {n : Nat} {ts us : Ahead}

theorem names_spans {r : List String × Ahead} (h : names n ts = .ok r) :
    r.1 ≠ [] ∧ Spans (.names r.1) [] ts.tokens r.2.tokens := by
  induction n generalizing ts r with
  | zero => cases h
  | succ n ih =>
    rw [names] at h
    obtain ⟨⟨x, us⟩, hx, h⟩ := ok_of_bind h
    obtain ⟨p, hp⟩ := Ahead.tokens_of_expectName hx
    dsimp only at h
    split at h
    · rename_i hc
      obtain ⟨q, hq⟩ := Ahead.tokens_of_startsWith_sign hc
      obtain ⟨⟨xs, ws⟩, hr, h⟩ := ok_of_bind h
      obtain ⟨hne, cs, hcs, wx⟩ := ih hr
      cases h
      obtain ⟨y, xs, rfl⟩ := List.exists_cons_of_ne_nil hne
      refine ⟨List.cons_ne_nil _ _, _, ?_, .nameList p q wx⟩
      rw [hp, hq, hcs]
      rfl
    · cases h
      exact ⟨List.cons_ne_nil _ _, _, hp, .lastName x p⟩

theorem params_spans {r : List String × Ahead} (h : params ts = .ok r) :
    Spans (.names r.1) [] ts.tokens r.2.tokens := by
  unfold params at h
  split at h
  · cases h
    exact .of_written rfl .noNames
  · exact (names_spans h).2

theorem condition_spans {r : Expr × Ahead} (h : condition n ts = .ok r) :
    ∃ p cs q hs, ts.tokens = Sign.leftParen.token p :: cs ++ Sign.rightParen.token q :: hs ++
      r.2.tokens ∧ Written true (.expr .assignment r.1) cs ∧ Semicolon true hs := by
  obtain ⟨us, ho, h⟩ := ok_of_bind h
  obtain ⟨p, hp⟩ := Ahead.tokens_of_expectSign ho
  obtain ⟨⟨e, ws⟩, he, h⟩ := ok_of_bind h
  obtain ⟨cs, hcs, we⟩ := (soundExpr n).expr he
  obtain ⟨xs, hc, h⟩ := ok_of_bind h
  obtain ⟨q, hq⟩ := Ahead.tokens_of_expectSign hc
  obtain ⟨hs, hs', ht⟩ := Ahead.tokens_skipSemicolon xs
  cases h
  refine ⟨p, cs, q, hs, ?_, we, hs'⟩
  rw [hp, hcs, hq, ht]
  simp

theorem close_spans (h : close ts = .ok us) :
    ∃ p es, ts.tokens = Keyword.end_.token p :: es ++ us.tokens ∧ Semicolon true es := by
  obtain ⟨ws, hk, h⟩ := ok_of_bind h
  obtain ⟨p, hp⟩ := Ahead.tokens_of_expectKeyword hk
  obtain ⟨es, hs, ht⟩ := Ahead.tokens_skipSemicolon ws
  cases h
  refine ⟨p, es, ?_, hs⟩
  rw [hp, ht]
  rfl

end Headers

structure SoundStmt (n : Nat) : Prop where
  stmt : ∀ {inLoop ts r}, stmt n inLoop ts = .ok r →
    Spans (.stmt inLoop r.1) [] ts.tokens r.2.tokens
  block : ∀ {inLoop closing ts r}, block n inLoop closing ts = .ok r →
    Spans (.block inLoop r.1) [] ts.tokens r.2.tokens
  branches : ∀ {inLoop ts r}, branches n inLoop ts = .ok r →
    Spans (.branches inLoop r.1) [] ts.tokens r.2.tokens
  otherwise : ∀ {inLoop ts r}, otherwise n inLoop ts = .ok r →
    Spans (.otherwise inLoop r.1) [] ts.tokens r.2.tokens

theorem soundStmt_zero : SoundStmt 0 where
  stmt h := by cases h
  block h := by cases h
  branches h := by cases h
  otherwise h := by cases h

namespace SoundStmt

variable {n : Nat} {inLoop : Bool} {ts : Ahead} (k : SoundStmt n)
include k

theorem closed_spans {closing : List Keyword} {body : List Stmt} {us ws : Ahead}
    (hb : Parse.block n inLoop closing ts = .ok (body, us)) (hc : close us = .ok ws) :
    ∃ bs p es, ts.tokens = bs ++ Keyword.end_.token p :: es ++ ws.tokens ∧
      Written true (.block inLoop body) bs ∧ Semicolon true es := by
  obtain ⟨bs, hbs, wb⟩ := k.block hb
  obtain ⟨p, es, hes, semi⟩ := close_spans hc
  refine ⟨bs, p, es, ?_, wb, semi⟩
  rw [hbs, hes, List.append_assoc]

theorem stmt_succ {r : Stmt × Ahead} (h : Parse.stmt (n + 1) inLoop ts = .ok r) :
    Spans (.stmt inLoop r.1) [] ts.tokens r.2.tokens := by
  rw [Parse.stmt] at h
  split at h
  -- a branch
  case h_1 hd =>
    obtain ⟨p, hp⟩ := Ahead.tokens_of_head?_keyword hd
    obtain ⟨⟨c, us⟩, hc, h⟩ := ok_of_bind h
    obtain ⟨q₁, cs, q₂, hs, hcs, wc, header⟩ := condition_spans hc
    obtain ⟨⟨body, ws⟩, hb, h⟩ := ok_of_bind h
    obtain ⟨bs, hbs, wb⟩ := k.block hb
    obtain ⟨⟨elseifs, xs⟩, he, h⟩ := ok_of_bind h
    obtain ⟨ls, hls, wl⟩ := k.branches he
    obtain ⟨⟨other, ys⟩, ho, h⟩ := ok_of_bind h
    obtain ⟨os, hos, wo⟩ := k.otherwise ho
    obtain ⟨zs, hz, h⟩ := ok_of_bind h
    obtain ⟨q₃, es, hes, semi⟩ := close_spans hz
    cases h
    refine .of_written ?_ (.branch _ p q₁ q₂ q₃ wc header wb wl wo semi)
    rw [hp, hcs, hbs, hls, hos, hes]
    simp
  -- the loops
  case h_2 hd =>
    obtain ⟨p, hp⟩ := Ahead.tokens_of_head?_keyword hd
    obtain ⟨⟨c, us⟩, hc, h⟩ := ok_of_bind h
    obtain ⟨q₁, cs, q₂, hs, hcs, wc, header⟩ := condition_spans hc
    obtain ⟨⟨body, ws⟩, hb, h⟩ := ok_of_bind h
    obtain ⟨zs, hz, h⟩ := ok_of_bind h
    obtain ⟨bs, q₃, es, hbs, wb, semi⟩ := k.closed_spans hb hz
    cases h
    refine .of_written ?_ (.while_ _ p q₁ q₂ q₃ wc header wb semi)
    rw [hp, hcs, hbs]
    simp
  case h_3 hd =>
    obtain ⟨p, hp⟩ := Ahead.tokens_of_head?_keyword hd
    obtain ⟨us, ho, h⟩ := ok_of_bind h
    obtain ⟨q₁, hq₁⟩ := Ahead.tokens_of_expectSign ho
    obtain ⟨⟨counter, vs⟩, hn, h⟩ := ok_of_bind h
    obtain ⟨q₂, hq₂⟩ := Ahead.tokens_of_expectName hn
    obtain ⟨ws, hk, h⟩ := ok_of_bind h
    obtain ⟨q₃, hq₃⟩ := Ahead.tokens_of_expectSign hk
    obtain ⟨⟨count, xs⟩, hc, h⟩ := ok_of_bind h
    obtain ⟨cs, hcs, wc⟩ := (soundExpr n).expr hc
    obtain ⟨ys, hy, h⟩ := ok_of_bind h
    obtain ⟨q₄, hq₄⟩ := Ahead.tokens_of_expectSign hy
    obtain ⟨hs, header, hhs⟩ := Ahead.tokens_skipSemicolon ys
    obtain ⟨⟨body, zs⟩, hb, h⟩ := ok_of_bind h
    obtain ⟨rest, hz, h⟩ := ok_of_bind h
    obtain ⟨bs, q₅, es, hbs, wb, semi⟩ := k.closed_spans hb hz
    cases h
    refine .of_written ?_ (.for_ _ p q₁ q₂ q₃ q₄ q₅ wc header wb semi)
    rw [hp, hq₁, hq₂, hq₃, hcs, hq₄, hhs, hbs]
    simp
  -- a declaration
  case h_4 hd =>
    obtain ⟨p, hp⟩ := Ahead.tokens_of_head?_keyword hd
    obtain ⟨⟨name, us⟩, hn, h⟩ := ok_of_bind h
    obtain ⟨q₁, hq₁⟩ := Ahead.tokens_of_expectName hn
    obtain ⟨ws, ho, h⟩ := ok_of_bind h
    obtain ⟨q₂, hq₂⟩ := Ahead.tokens_of_expectSign ho
    obtain ⟨⟨params, xs⟩, hps, h⟩ := ok_of_bind h
    obtain ⟨ps, hpa, wp⟩ := params_spans hps
    obtain ⟨ys, hy, h⟩ := ok_of_bind h
    obtain ⟨q₃, hq₃⟩ := Ahead.tokens_of_expectSign hy
    obtain ⟨hs, header, hhs⟩ := Ahead.tokens_skipSemicolon ys
    obtain ⟨⟨body, zs⟩, hb, h⟩ := ok_of_bind h
    obtain ⟨rest, hz, h⟩ := ok_of_bind h
    obtain ⟨bs, q₄, es, hbs, wb, semi⟩ := k.closed_spans hb hz
    cases h
    refine .of_written ?_ (.function _ p q₁ q₂ q₃ q₄ wp header wb semi)
    rw [hp, hq₁, hq₂, hpa, hq₃, hhs, hbs]
    simp
  -- `return`, `break` and `continue`
  case h_5 hd =>
    obtain ⟨p, hp⟩ := Ahead.tokens_of_head?_keyword hd
    obtain ⟨⟨value, us⟩, hv, h⟩ := ok_of_bind h
    obtain ⟨es, semi, hes⟩ := Ahead.tokens_skipSemicolon us
    cases h
    unfold returned at hv
    split at hv
    · cases hv
      refine .of_written ?_ (.returnNothing _ p semi)
      rw [hp, hes]
      rfl
    · obtain ⟨⟨e, ws⟩, he, hv⟩ := ok_of_bind hv
      obtain ⟨cs, hcs, we⟩ := (soundExpr n).expr he
      cases hv
      refine .of_written ?_ (.return_ _ p we semi)
      rw [hp, hcs, hes]
      simp
  case h_6 hd =>
    obtain ⟨p, hp⟩ := Ahead.tokens_of_head?_keyword hd
    obtain ⟨es, semi, hes⟩ := Ahead.tokens_skipSemicolon ts.rest
    cases inLoop with
    | false => cases h
    | true =>
      cases h
      refine .of_written ?_ (.break_ _ p semi)
      rw [hp, hes]
      rfl
  case h_7 hd =>
    obtain ⟨p, hp⟩ := Ahead.tokens_of_head?_keyword hd
    obtain ⟨es, semi, hes⟩ := Ahead.tokens_skipSemicolon ts.rest
    cases inLoop with
    | false => cases h
    | true =>
      cases h
      refine .of_written ?_ (.continue_ _ p semi)
      rw [hp, hes]
      rfl
  case h_8 =>
    obtain ⟨⟨e, us⟩, he, h⟩ := ok_of_bind h
    obtain ⟨cs, hcs, we⟩ := (soundExpr n).expr he
    obtain ⟨es, semi, hes⟩ := Ahead.tokens_skipSemicolon us
    cases h
    refine .of_written ?_ (.expr we semi)
    rw [hcs, hes]
    simp

theorem block_succ {closing : List Keyword} {r : List Stmt × Ahead}
    (h : Parse.block (n + 1) inLoop closing ts = .ok r) :
    Spans (.block inLoop r.1) [] ts.tokens r.2.tokens := by
  rw [Parse.block] at h
  split at h
  · cases h
    exact .of_written rfl .noStmts
  · split at h
    · cases h
      exact .of_written rfl .noStmts
    · obtain ⟨⟨s, us⟩, hs, h⟩ := ok_of_bind h
      obtain ⟨cs, hcs, ws⟩ := k.stmt hs
      obtain ⟨⟨ss, xs⟩, hr, h⟩ := ok_of_bind h
      obtain ⟨ds, hds, wr⟩ := k.block hr
      cases h
      refine .of_written ?_ (.stmts ws wr)
      rw [hcs, hds]
      simp

theorem branches_succ {r : List (Expr × List Stmt) × Ahead}
    (h : Parse.branches (n + 1) inLoop ts = .ok r) :
    Spans (.branches inLoop r.1) [] ts.tokens r.2.tokens := by
  rw [Parse.branches] at h
  split at h
  · rename_i hd
    obtain ⟨p, hp⟩ := Ahead.tokens_of_startsWith_keyword hd
    obtain ⟨⟨c, us⟩, hc, h⟩ := ok_of_bind h
    obtain ⟨q₁, cs, q₂, hs, hcs, wc, header⟩ := condition_spans hc
    obtain ⟨⟨body, ws⟩, hb, h⟩ := ok_of_bind h
    obtain ⟨bs, hbs, wb⟩ := k.block hb
    obtain ⟨⟨rest, xs⟩, hr, h⟩ := ok_of_bind h
    obtain ⟨ds, hds, wr⟩ := k.branches hr
    cases h
    refine .of_written ?_ (.branches p q₁ q₂ wc header wb wr)
    rw [hp, hcs, hbs, hds]
    simp
  · cases h
    exact .of_written rfl .noBranches

theorem otherwise_succ {r : Option (List Stmt) × Ahead}
    (h : Parse.otherwise (n + 1) inLoop ts = .ok r) :
    Spans (.otherwise inLoop r.1) [] ts.tokens r.2.tokens := by
  rw [Parse.otherwise] at h
  split at h
  · rename_i hd
    obtain ⟨p, hp⟩ := Ahead.tokens_of_startsWith_keyword hd
    obtain ⟨hs, header, hhs⟩ := Ahead.tokens_skipSemicolon ts.rest
    obtain ⟨⟨body, ws⟩, hb, h⟩ := ok_of_bind h
    obtain ⟨bs, hbs, wb⟩ := k.block hb
    cases h
    refine .of_written ?_ (.otherwise p header wb)
    rw [hp, hhs, hbs]
    simp
  · cases h
    exact .of_written rfl .noOtherwise

end SoundStmt

theorem soundStmt (n : Nat) : SoundStmt n := by
  induction n with
  | zero => exact soundStmt_zero
  | succ n k => exact ⟨k.stmt_succ, k.block_succ, k.branches_succ, k.otherwise_succ⟩

theorem block_all {n : Nat} {inLoop : Bool} {ts : Ahead} {r : List Stmt × Ahead}
    (h : block n inLoop [] ts = .ok r) : r.2.tokens = [] := by
  induction n generalizing ts r with
  | zero => cases h
  | succ n ih =>
    rw [block] at h
    split at h
    · rename_i hd
      cases h
      exact List.head?_eq_none_iff.1 (Option.map_eq_none_iff.1 hd)
    · obtain ⟨⟨s, us⟩, -, h⟩ := ok_of_bind h
      obtain ⟨⟨ss, ws⟩, hr, h⟩ := ok_of_bind h
      cases h
      exact ih (r := (ss, ws)) hr

end Parse

theorem TokenStream.written_of_program {ts : TokenStream} {body : List Stmt}
    (h : ts.program = .ok body) : Written true (.block false body) ts.tokens := by
  obtain ⟨r, hb, rfl⟩ := Parse.ok_of_map h
  obtain ⟨cs, hcs, hw⟩ := (Parse.soundStmt _).block hb
  rw [Parse.block_all hb, List.append_nil] at hcs
  rw [hcs]
  exact hw

theorem parse_sound (ts : TokenStream) (body : List Stmt) (h : ts.program = .ok body) :
    Written true (.block false body) ts.tokens ∧ (∀ s ∈ body, s.WellFormed false) ∧
    ∀ written : List (String × Expr), Fields.Merges written (Fields.ofList written).entries :=
  have hw := TokenStream.written_of_program h
  ⟨hw, hw.wellFormed, Fields.ofList_merges⟩

def looseTokens : TokenStream :=
  let name (x : String) : Token := ⟨.name x, .start⟩
  let sign (s : Sign) : Token := s.token .start
  let keyword (k : Keyword) : Token := k.token .start
  ⟨[keyword .while_, sign .leftParen, name "a", keyword .or, sign .leftParen, sign .dollar,
      name "b", sign .rightParen, sign .rightParen, name "x", sign .eq, sign .leftBrace, name "k",
      sign .colon, name "a", sign .comma, name "k", sign .colon, name "b", sign .rightBrace,
      keyword .break_, keyword .end_], .start⟩

def looseTree : List Stmt :=
  let a : Expr := .variable "a" .start
  let b : Expr := .variable "b" .start
  [.while_ (.binary .or a b .start)
    [.expr (.assign (.variable "x") (.object [("k", b)] .start) .start), .break_ .start] .start]

theorem looseTokens_derivable :
    looseTokens.program = .ok looseTree ∧
    Written true (.block false looseTree) looseTokens.tokens ∧
    (∀ s ∈ looseTree, s.WellFormed false) ∧
    ∀ written : List (String × Expr), Fields.Merges written (Fields.ofList written).entries := by
  have h : looseTokens.program = .ok looseTree := by rfl
  exact ⟨h, parse_sound looseTokens looseTree h⟩

end CanvasScript
