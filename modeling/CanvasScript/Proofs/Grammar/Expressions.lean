import CanvasScript.Proofs.Grammar.Lookahead
import CanvasScript.Proofs.Grammar.Steps
import CanvasScript.Proofs.Unplaced

namespace CanvasScript

open Parse

def Grade.fuel : Grade → Nat
  | assignment => 16
  | binary level => 17 - 2 * level.rank
  | unary => 3
  | postfixed => 2
  | suffixed => 1

theorem Grade.fuel_le (g : Grade) : g.fuel ≤ 16 := by
  match g with
  | .binary level => cases level <;> decide
  | .assignment | .unary | .postfixed | .suffixed => decide

def Grade.Reads : Grade → Nat → Ahead → Expr → Ahead → Prop
  | assignment, n, ts, e, us => Parse.expr n ts = .ok (e, us)
  | binary level, n, ts, e, us => ∃ m, 20 * us.tokens.length + 1 ≤ m ∧
      Parse.chain n level ts = Parse.chainRest m level e us
  | unary, n, ts, e, us => Parse.unary n ts = .ok (e, us)
  | postfixed, n, ts, e, us => Parse.postfixed n ts = .ok (e, us)
  | suffixed, n, ts, e, us => ∃ m, 20 * us.tokens.length + 1 ≤ m ∧
      Parse.suffixed n ts = Parse.accesses m e us

def Opens (g : Grade) (ts : List Token) : Prop :=
  ∃ t us, ts = t :: us ∧ t.lexeme.startsExpr = true ∧
    (Grade.postfixed ≤ g → t.lexeme.unaryOp? = none)

structure Readable (g : Grade) (e : Expr) (ts : List Token) : Prop where
  opens : Opens g ts
  reads : ∀ (rest : List Token) (finish : Position) (n : Nat), Follows g rest →
    20 * (ts ++ rest).length + g.fuel ≤ n →
    ∃ d : Expr, d.unplaced = e.unplaced ∧ g.Reads n ⟨ts ++ rest, finish⟩ d ⟨rest, finish⟩

theorem Opens.append {g : Grade} {ts : List Token} (h : Opens g ts) (us : List Token) :
    Opens g (ts ++ us) := by
  obtain ⟨t, vs, rfl, hs⟩ := h
  exact ⟨t, vs ++ us, rfl, hs⟩

theorem Opens.loosen {g h : Grade} {ts : List Token} (hgh : g.rank ≤ h.rank) (ho : Opens h ts) :
    Opens g ts := by
  obtain ⟨t, vs, rfl, hs, hu⟩ := ho
  exact ⟨t, vs, rfl, hs, fun hg => hu (Nat.le_trans hg hgh)⟩

namespace Readable

variable {e : Expr} {ts : List Token}

theorem postfixed (h : Readable .suffixed e ts) : Readable .postfixed e ts := by
  refine ⟨h.opens.loosen (by decide), fun rest finish n hf hn => ?_⟩
  obtain ⟨n, rfl⟩ : ∃ k, n = k + 1 := ⟨n - 1, by simp only [Grade.fuel] at hn; omega⟩
  simp only [Grade.fuel] at hn
  obtain ⟨d, hd, m, hm, hs⟩ := h.reads rest finish n (hf.tighten (by decide))
    (by simp only [Grade.fuel]; omega)
  rw [(hf .suffixed (.inl (by decide))).accesses d (by omega)] at hs
  exact ⟨d, hd, postfixed_plain hs (hf .postfixed (.inr ⟨rfl, rfl⟩)).updateOp?⟩

theorem unary (h : Readable .postfixed e ts) : Readable .unary e ts := by
  refine ⟨h.opens.loosen (by decide), fun rest finish n hf hn => ?_⟩
  obtain ⟨n, rfl⟩ : ∃ k, n = k + 1 := ⟨n - 1, by simp only [Grade.fuel] at hn; omega⟩
  simp only [Grade.fuel] at hn
  obtain ⟨d, hd, hp⟩ := h.reads rest finish n (hf.tighten (by decide))
    (by simp only [Grade.fuel]; omega)
  obtain ⟨t, us, rfl, -, hu⟩ := h.opens
  have head : (Ahead.head? ⟨t :: us ++ rest, finish⟩).bind Lexeme.unaryOp? = none :=
    hu (Nat.le_refl _)
  exact ⟨d, hd, (unary_plain head).trans hp⟩

theorem operand {level : Level} (h : Readable level.operandGrade e ts) (rest : List Token)
    (finish : Position) (n : Nat) (hf : Follows (.binary level) rest)
    (hn : 20 * (ts ++ rest).length + level.operandGrade.fuel + 1 ≤ n) :
    ∃ d : Expr, d.unplaced = e.unplaced ∧
      Parse.operand n level ⟨ts ++ rest, finish⟩ = .ok (d, ⟨rest, finish⟩) := by
  obtain ⟨n, rfl⟩ : ∃ k, n = k + 1 := ⟨n - 1, by omega⟩
  have hr := level.rank_lt_operandGrade
  obtain ⟨d, hd, ho⟩ := h.reads rest finish n (hf.tighten hr) (by omega)
  refine ⟨d, hd, ?_⟩
  cases ht : level.tighter? with
  | none =>
    simp only [Level.operandGrade, ht] at ho
    rw [operand_unary ht]
    exact ho
  | some tighter =>
    simp only [Level.operandGrade, ht] at ho hr
    obtain ⟨m, hm, hc⟩ := ho
    rw [operand_tighter ht, hc]
    exact (hf (.binary tighter) (.inl hr)).chainRest d (by omega)

theorem binary {level : Level} (h : Readable level.operandGrade e ts) :
    Readable (.binary level) e ts := by
  refine ⟨h.opens.loosen (Nat.le_of_lt level.rank_lt_operandGrade), fun rest finish n hf hn => ?_⟩
  have hfuel : level.operandGrade.fuel + 2 ≤ (Grade.binary level).fuel := by
    cases level <;> decide
  obtain ⟨n, rfl⟩ : ∃ k, n = k + 2 := ⟨n - 2, by omega⟩
  obtain ⟨d, hd, operand⟩ := h.operand rest finish (n + 1) hf (by omega)
  refine ⟨d, hd, n + 1, ?_, chain_operand operand⟩
  simp only [List.length_append] at hn ⊢
  omega

theorem assignment (h : Readable (.binary .or) e ts) : Readable .assignment e ts := by
  refine ⟨h.opens.loosen (by decide), fun rest finish n hf hn => ?_⟩
  obtain ⟨n, rfl⟩ : ∃ k, n = k + 1 := ⟨n - 1, by simp only [Grade.fuel] at hn; omega⟩
  simp only [Grade.fuel] at hn
  obtain ⟨d, hd, m, hm, hc⟩ := h.reads rest finish n (hf.tighten (by decide))
    (by simp only [Grade.fuel, Level.rank]; omega)
  rw [(hf (.binary .or) (.inl (by decide))).chainRest d (by omega)] at hc
  exact ⟨d, hd, expr_plain hc (hf .assignment (.inr ⟨rfl, rfl⟩)).assignment?⟩

theorem loosen {g h : Grade} (hgh : g ≤ h) (hr : Readable h e ts) : Readable g e ts := by
  -- on the number of grades between the two positions; each is read by way of the next tighter one
  obtain ⟨k, hk⟩ := Nat.exists_eq_add_of_le (Grade.le_def.1 hgh)
  induction k generalizing h with
  | zero => exact Grade.rank_injective hk ▸ hr
  | succ k ih =>
    have step : ∃ h' : Grade, h'.rank + 1 = h.rank ∧ Readable h' e ts := by
      match h with
      | .assignment =>
        simp only [Grade.rank] at hk
        omega
      | .binary .or => exact ⟨.assignment, rfl, assignment hr⟩
      | .binary .and => exact ⟨.binary .or, rfl, binary hr⟩
      | .binary .equality => exact ⟨.binary .and, rfl, binary hr⟩
      | .binary .relational => exact ⟨.binary .equality, rfl, binary hr⟩
      | .binary .additive => exact ⟨.binary .relational, rfl, binary hr⟩
      | .binary .multiplicative => exact ⟨.binary .additive, rfl, binary hr⟩
      | .unary => exact ⟨.binary .multiplicative, rfl, binary hr⟩
      | .postfixed => exact ⟨.unary, rfl, unary hr⟩
      | .suffixed => exact ⟨.postfixed, rfl, postfixed hr⟩
    obtain ⟨h', hh, hr'⟩ := step
    exact ih (Grade.le_def.2 (by omega)) hr' (by omega)

theorem primary {t : Token} {us : List Token} (ht : t.lexeme.startsExpr = true)
    (hu : t.lexeme.unaryOp? = none)
    (h : ∀ (rest : List Token) (finish : Position) (n : Nat),
      20 * (us ++ rest).length + 20 ≤ n → ∃ d : Expr, d.unplaced = e.unplaced ∧
        Parse.primary (n + 1) ⟨t :: us ++ rest, finish⟩ = .ok (d, ⟨rest, finish⟩)) :
    Readable .suffixed e (t :: us) := by
  refine ⟨⟨t, us, rfl, ht, fun _ => hu⟩, fun rest finish n _ hn => ?_⟩
  obtain ⟨n, rfl⟩ : ∃ k, n = k + 1 := ⟨n - 1, by simp only [Grade.fuel] at hn; omega⟩
  simp only [Grade.fuel, List.cons_append, List.length_cons] at hn
  obtain ⟨d, hd, hp⟩ := h rest finish n (by omega)
  refine ⟨d, hd, n + 1, ?_, suffixed_primary hp⟩
  simp only [List.length_append] at hn ⊢
  omega

theorem literal (l : Literal) (p q : Position) :
    Readable .suffixed (.literal l p) [⟨l.lexeme, q⟩] := by
  have ht : l.lexeme.startsExpr = true ∧ l.lexeme.unaryOp? = none := by
    match l with
    | .number _ | .text _ | .bool true | .bool false | .null | .undefined => exact ⟨rfl, rfl⟩
  exact primary ht.1 ht.2 fun _ _ _ _ => ⟨.literal l q, rfl, primary_literal l⟩

theorem name (x : String) (p q : Position) :
    Readable .suffixed (.variable x p) [⟨.name x, q⟩] :=
  primary rfl rfl fun _ _ _ _ => ⟨.variable x q, rfl, primary_name x⟩

theorem dollarName (x : String) (p q r : Position) :
    Readable .suffixed (.variable x p) [Sign.dollar.token q, ⟨.name x, r⟩] :=
  primary rfl rfl fun _ _ _ _ => ⟨.variable x q, rfl, primary_dollarName x⟩

theorem paren (h : Readable .assignment e ts) (q r : Position) :
    Readable .suffixed e (Sign.leftParen.token q :: ts ++ [Sign.rightParen.token r]) := by
  rw [List.cons_append]
  refine primary rfl rfl fun rest finish n hn => ?_
  rw [List.append_assoc] at hn
  rw [List.cons_append, List.append_assoc]
  obtain ⟨d, hd, he⟩ := h.reads ([Sign.rightParen.token r] ++ rest) finish n (.sign rfl)
    (by simp only [Grade.fuel]; omega)
  exact ⟨d, hd, primary_paren he⟩

theorem suffix (h : Readable .suffixed e ts) {f : Expr} {us : List Token}
    (hs : ∀ (d : Expr) (rest : List Token) (finish : Position) (m : Nat),
      d.unplaced = e.unplaced → 20 * (us ++ rest).length + 1 ≤ m + 1 →
      ∃ d' : Expr, d'.unplaced = f.unplaced ∧
        Parse.accesses (m + 1) d ⟨us ++ rest, finish⟩ = Parse.accesses m d' ⟨rest, finish⟩)
    (hu : us ≠ []) : Readable .suffixed f (ts ++ us) := by
  refine ⟨h.opens.append us, fun rest finish n _ hn => ?_⟩
  rw [List.append_assoc] at hn ⊢
  obtain ⟨d, hd, m, hm, ha⟩ := h.reads (us ++ rest) finish n (.suffixed _) hn
  obtain ⟨m, rfl⟩ : ∃ k, m = k + 1 := ⟨m - 1, by omega⟩
  obtain ⟨d', hd', ha'⟩ := hs d rest finish m hd hm
  refine ⟨d', hd', m, ?_, ha.trans ha'⟩
  have := List.length_pos_iff.2 hu
  simp only [List.length_append] at hm ⊢
  omega

theorem member (h : Readable .suffixed e ts) (property : String) (p q r : Position) :
    Readable .suffixed (.member e property p)
      (ts ++ [Sign.dot.token q, ⟨.name property, r⟩]) :=
  h.suffix (fun d _ _ _ hd _ =>
    ⟨.member d property d.position, by rw [Expr.unplaced, Expr.unplaced, hd],
      accesses_member property⟩) (by simp)

theorem index (h : Readable .suffixed e ts) {i : Expr} {us : List Token}
    (hi : Readable .assignment i us) (p q r : Position) :
    Readable .suffixed (.index e i p)
      (ts ++ Sign.leftBracket.token q :: us ++ [Sign.rightBracket.token r]) := by
  rw [List.append_assoc]
  refine h.suffix (fun d rest finish m hd hm => ?_) (by simp)
  rw [List.cons_append, List.cons_append, List.append_assoc] at hm ⊢
  rw [List.length_cons] at hm
  obtain ⟨j, hj, he⟩ := hi.reads ([Sign.rightBracket.token r] ++ rest) finish m (.sign rfl)
    (by simp only [Grade.fuel]; omega)
  exact ⟨.index d j d.position, by rw [Expr.unplaced, Expr.unplaced, hd, hj], accesses_index he⟩

theorem update {x : String} {p : Position} (h : Readable .suffixed (.variable x p) ts)
    (op : UpdateOp) (q r : Position) :
    Readable .postfixed (.update op x q) (ts ++ [op.sign.token r]) := by
  refine ⟨(h.opens.append _).loosen (by decide), fun rest finish n hf hn => ?_⟩
  obtain ⟨n, rfl⟩ : ∃ k, n = k + 1 := ⟨n - 1, by simp only [Grade.fuel] at hn; omega⟩
  rw [List.append_assoc] at hn ⊢
  simp only [Grade.fuel] at hn
  obtain ⟨d, hd, m, hm, hs⟩ := h.reads ([op.sign.token r] ++ rest) finish n (.suffixed _)
    (by simp only [Grade.fuel]; omega)
  obtain ⟨p', rfl⟩ := Expr.eq_variable_of_unplaced_eq hd
  have stops : Stops .suffixed ([op.sign.token r] ++ rest) := by
    intro t ht
    cases ht
    cases op <;> simp [UpdateOp.sign, Sign.token, Lexeme.continues?]
  rw [stops.accesses _ (by omega)] at hs
  have hu : (Ahead.head? ⟨[op.sign.token r] ++ rest, finish⟩).bind Lexeme.updateOp? =
      some (op, op.sign) := by
    cases op <;> rfl
  exact ⟨.update op x p', rfl, postfixed_update hs hu⟩

theorem unaryOp (h : Readable .unary e ts) {op : UnaryOp} {l : Lexeme} (hl : l ∈ op.spellings)
    (p q : Position) : Readable .unary (.unary op e p) (⟨l, q⟩ :: ts) := by
  have starts : l.startsExpr = true := by
    cases op with
    | neg =>
      rw [List.mem_singleton.1 hl]
      rfl
    | not =>
      simp only [UnaryOp.spellings, List.mem_cons, List.not_mem_nil, or_false] at hl
      rcases hl with rfl | rfl <;> rfl
  refine ⟨⟨⟨l, q⟩, ts, rfl, starts, fun hp => ?_⟩, fun rest finish n hf hn => ?_⟩
  · exact absurd hp (by decide)
  · obtain ⟨n, rfl⟩ : ∃ k, n = k + 1 := ⟨n - 1, by simp only [Grade.fuel] at hn; omega⟩
    simp only [Grade.fuel, List.cons_append, List.length_cons] at hn
    obtain ⟨d, hd, he⟩ := h.reads rest finish n hf (by simp only [Grade.fuel]; omega)
    have ho : (Ahead.head? ⟨⟨l, q⟩ :: (ts ++ rest), finish⟩).bind Lexeme.unaryOp? = some op :=
      UnaryOp.unaryOp?_of_mem_spellings hl
    exact ⟨.unary op d q, by rw [Expr.unplaced, Expr.unplaced, hd], unary_operator ho he⟩

theorem binaryOp {op : BinaryOp} (h : Readable (.binary op.level) e ts) {d : Expr}
    {us : List Token} (hd : Readable op.level.operandGrade d us) {l : Lexeme}
    (hl : l ∈ op.spellings) (p q : Position) :
    Readable (.binary op.level) (.binary op e d p) (ts ++ ⟨l, q⟩ :: us) := by
  have ho : op.level.operator? l = some op := BinaryOp.operator?_of_mem_spellings hl
  refine ⟨h.opens.append _, fun rest finish n hf hn => ?_⟩
  rw [List.append_assoc, List.cons_append] at hn ⊢
  have hl : Follows (.binary op.level) (⟨l, q⟩ :: (us ++ rest)) := by
    refine .cons fun k hk => .inr ⟨?_, rfl⟩
    rw [Lexeme.continues?_of_operator? ho] at hk
    exact (Option.some.inj hk).symm
  obtain ⟨e', he, m, hm, hc⟩ := h.reads (⟨l, q⟩ :: (us ++ rest)) finish n hl hn
  obtain ⟨m, rfl⟩ : ∃ k, m = k + 2 := ⟨m - 2, by
    simp only [List.length_cons] at hm
    omega⟩
  simp only [List.length_cons] at hm
  have hfuel := op.level.operandGrade.fuel_le
  obtain ⟨d', hd', operand⟩ := hd.operand rest finish (m + 1) hf (by omega)
  refine ⟨.binary op e' d' e'.position, by rw [Expr.unplaced, Expr.unplaced, he, hd'], m + 1, ?_,
    hc.trans (chainRest_operator ho operand)⟩
  simp only [List.length_append] at hm ⊢
  omega

theorem sides (h : Readable (.binary .or) e ts) {target : Target} (ht : e.target? = some target)
    {v : Expr} {us : List Token} (hv : Readable .assignment v us) {s : Sign}
    (hs : (Lexeme.sign s).continues? = some .assignment) (q : Position) (rest : List Token)
    (finish : Position) (n : Nat) (hf : Follows .assignment rest)
    (hn : 20 * (ts ++ s.token q :: (us ++ rest)).length + 15 ≤ n) :
    ∃ left target' v', left.target? = some target' ∧ target'.unplaced = target.unplaced ∧
      v'.unplaced = v.unplaced ∧
      Parse.chain n .or ⟨ts ++ s.token q :: (us ++ rest), finish⟩ =
        .ok (left, ⟨s.token q :: (us ++ rest), finish⟩) ∧
      Parse.expr n ⟨us ++ rest, finish⟩ = .ok (v', ⟨rest, finish⟩) := by
  have follows : Follows (.binary .or) (s.token q :: (us ++ rest)) := by
    refine .cons fun k hk => .inl ?_
    rw [Sign.token, hs] at hk
    cases hk
    decide
  have stops : Stops (.binary .or) (s.token q :: (us ++ rest)) := by
    intro t ht hc
    cases ht
    rw [Sign.token, hs] at hc
    cases hc
  obtain ⟨left, hl, m, hm, hc⟩ := h.reads _ finish n follows hn
  rw [stops.chainRest left (by omega)] at hc
  obtain ⟨target', ht', htarget⟩ := Expr.target?_of_unplaced_eq hl ht
  simp only [List.length_append, List.length_cons] at hn
  obtain ⟨v', hv', hr⟩ := hv.reads rest finish n hf
    (by simp only [Grade.fuel, List.length_append]; omega)
  exact ⟨left, target', v', ht', htarget, hv', hc, hr⟩

theorem assign (h : Readable (.binary .or) e ts) {target : Target} (ht : e.target? = some target)
    {v : Expr} {us : List Token} (hv : Readable .assignment v us) (p q : Position) :
    Readable .assignment (.assign target v p) (ts ++ Sign.eq.token q :: us) := by
  refine ⟨(h.opens.append _).loosen (by decide), fun rest finish n hf hn => ?_⟩
  obtain ⟨n, rfl⟩ : ∃ k, n = k + 1 := ⟨n - 1, by simp only [Grade.fuel] at hn; omega⟩
  rw [List.append_assoc, List.cons_append] at hn ⊢
  simp only [Grade.fuel] at hn
  obtain ⟨left, target', v', ht', htarget, hv', hc, hr⟩ :=
    h.sides (s := .eq) ht hv rfl q rest finish n hf (by omega)
  exact ⟨.assign target' v' left.position, by rw [Expr.unplaced, Expr.unplaced, htarget, hv'],
    expr_assign hc rfl hr ht'⟩

theorem compound (h : Readable (.binary .or) e ts) {target : Target}
    (ht : e.target? = some target) {v : Expr} {us : List Token} (hv : Readable .assignment v us)
    (op : ArithOp) (p q : Position) :
    Readable .assignment (.compound op target v p) (ts ++ op.assignSign.token q :: us) := by
  refine ⟨(h.opens.append _).loosen (by decide), fun rest finish n hf hn => ?_⟩
  obtain ⟨n, rfl⟩ : ∃ k, n = k + 1 := ⟨n - 1, by simp only [Grade.fuel] at hn; omega⟩
  rw [List.append_assoc, List.cons_append] at hn ⊢
  simp only [Grade.fuel] at hn
  have hs : (Lexeme.sign op.assignSign).continues? = some .assignment ∧
      (Lexeme.sign op.assignSign).assignment? = some (some op) := by
    cases op <;> exact ⟨rfl, rfl⟩
  obtain ⟨left, target', v', ht', htarget, hv', hc, hr⟩ :=
    h.sides ht hv hs.1 q rest finish n hf (by omega)
  exact ⟨.compound op target' v' left.position, by rw [Expr.unplaced, Expr.unplaced, htarget, hv'],
    expr_compound hc hs.2 hr ht'⟩

end Readable

theorem Opens.startsWith {g : Grade} {ts : List Token} (h : Opens g ts) {s : Sign}
    (hs : (Lexeme.sign s).startsExpr = false) (finish : Position) :
    Ahead.startsWith ⟨ts, finish⟩ (Lexeme.isSign s) = false := by
  obtain ⟨t, us, rfl, ht, -⟩ := h
  exact Lexeme.startsExpr_ne_sign ht hs

structure ReadableItems (es : List Expr) (ts : List Token) : Prop where
  empty : es = [] → ts = []
  opens : es ≠ [] → Opens .assignment ts
  reads : es ≠ [] → ∀ (s : Sign) (rest : List Token) (finish p : Position) (n : Nat),
    s = .rightParen ∨ s = .rightBracket → 20 * (ts ++ s.token p :: rest).length + 17 ≤ n →
    ∃ ds : List Expr, Expr.unplacedList ds = Expr.unplacedList es ∧
      Parse.itemsRest n s ⟨ts ++ s.token p :: rest, finish⟩ = .ok (ds, ⟨rest, finish⟩)

namespace ReadableItems

variable {e : Expr} {es : List Expr} {ts us : List Token}

theorem none : ReadableItems [] [] :=
  ⟨fun _ => rfl, fun h => absurd rfl h, fun h => absurd rfl h⟩

theorem last (h : Readable .assignment e ts) : ReadableItems [e] ts := by
  refine ⟨nofun, fun _ => h.opens, fun _ s rest finish p n hs hn => ?_⟩
  obtain ⟨n, rfl⟩ : ∃ k, n = k + 1 := ⟨n - 1, by omega⟩
  have hc : (Lexeme.sign s).continues? = Option.none ∧ s ≠ .comma := by
    rcases hs with rfl | rfl <;> exact ⟨rfl, by decide⟩
  obtain ⟨d, hd, he⟩ := h.reads (s.token p :: rest) finish n (.sign hc.1)
    (by simp only [Grade.fuel]; omega)
  exact ⟨[d], by simp only [Expr.unplacedList, hd], itemsRest_last hc.2 he⟩

theorem cons (h : Readable .assignment e ts) (hs : ReadableItems es us) (hne : es ≠ [])
    (q : Position) : ReadableItems (e :: es) (ts ++ Sign.comma.token q :: us) := by
  refine ⟨nofun, fun _ => h.opens.append _, fun _ s rest finish p n hc hn => ?_⟩
  obtain ⟨n, rfl⟩ : ∃ k, n = k + 1 := ⟨n - 1, by omega⟩
  rw [List.append_assoc, List.cons_append] at hn ⊢
  obtain ⟨d, hd, he⟩ := h.reads (Sign.comma.token q :: (us ++ s.token p :: rest)) finish n
    (.sign rfl) (by simp only [Grade.fuel]; omega)
  rw [List.length_append, List.length_cons] at hn
  obtain ⟨ds, hds, hr⟩ := hs.reads hne s rest finish p n hc (by omega)
  exact ⟨d :: ds, by simp only [Expr.unplacedList, hd, hds], itemsRest_comma he hr⟩

theorem items (h : ReadableItems es ts) (s : Sign) (rest : List Token) (finish p : Position)
    (n : Nat) (hs : s = .rightParen ∨ s = .rightBracket)
    (hn : 20 * (ts ++ s.token p :: rest).length + 18 ≤ n) :
    ∃ ds : List Expr, Expr.unplacedList ds = Expr.unplacedList es ∧
      Parse.items n s ⟨ts ++ s.token p :: rest, finish⟩ = .ok (ds, ⟨rest, finish⟩) := by
  obtain ⟨n, rfl⟩ : ∃ k, n = k + 1 := ⟨n - 1, by omega⟩
  cases es with
  | nil =>
    rw [h.empty rfl]
    exact ⟨[], rfl, items_none⟩
  | cons e es =>
    have hne : e :: es ≠ [] := nofun
    obtain ⟨ds, hds, hr⟩ := h.reads hne s rest finish p n hs (by omega)
    have hstart : (Lexeme.sign s).startsExpr = false := by
      rcases hs with rfl | rfl <;> rfl
    exact ⟨ds, hds, (items_some (((h.opens hne).append _).startsWith hstart finish)).trans hr⟩

end ReadableItems

structure ReadableProperties (ps : List (String × Expr)) (ts : List Token) : Prop where
  empty : ps = [] → ts = []
  opens : ps ≠ [] → ∀ finish : Position,
    Ahead.startsWith ⟨ts, finish⟩ (Lexeme.isSign .rightBrace) = false ∧ ts ≠ []
  reads : ps ≠ [] → ∀ (rest : List Token) (finish p : Position) (n : Nat),
    20 * (ts ++ Sign.rightBrace.token p :: rest).length + 17 ≤ n →
    ∃ ds : List (String × Expr), Expr.unplacedProperties ds = Expr.unplacedProperties ps ∧
      Parse.propertiesRest n ⟨ts ++ Sign.rightBrace.token p :: rest, finish⟩ =
        .ok (ds, ⟨rest, finish⟩)

namespace ReadableProperties

variable {key : String} {l : Lexeme} {e : Expr} {ps : List (String × Expr)} {ts us : List Token}

theorem none : ReadableProperties [] [] :=
  ⟨fun _ => rfl, fun h => absurd rfl h, fun h => absurd rfl h⟩

theorem key_startsWith (hl : l = .text key ∨ l = .name key) (q finish : Position) :
    Ahead.startsWith ⟨⟨l, q⟩ :: ts, finish⟩ (Lexeme.isSign .rightBrace) = false := by
  rcases hl with rfl | rfl <;> rfl

theorem last (hl : l = .text key ∨ l = .name key) (h : Readable .assignment e ts)
    (q r : Position) :
    ReadableProperties [(key, e)] (⟨l, q⟩ :: Sign.colon.token r :: ts) := by
  refine ⟨nofun, fun _ finish => ⟨key_startsWith hl q finish, nofun⟩,
    fun _ rest finish p n hn => ?_⟩
  obtain ⟨n, rfl⟩ : ∃ k, n = k + 1 := ⟨n - 1, by omega⟩
  rw [List.cons_append, List.cons_append] at hn ⊢
  rw [List.length_cons, List.length_cons] at hn
  obtain ⟨d, hd, he⟩ := h.reads (Sign.rightBrace.token p :: rest) finish n (.sign rfl)
    (by simp only [Grade.fuel]; omega)
  exact ⟨[(key, d)], by simp only [Expr.unplacedProperties, hd], propertiesRest_last hl he⟩

theorem cons (hl : l = .text key ∨ l = .name key) (h : Readable .assignment e ts)
    (hs : ReadableProperties ps us) (hne : ps ≠ []) (q r c : Position) :
    ReadableProperties ((key, e) :: ps)
      (⟨l, q⟩ :: Sign.colon.token r :: ts ++ Sign.comma.token c :: us) := by
  refine ⟨nofun, fun _ finish => ⟨key_startsWith hl q finish, nofun⟩,
    fun _ rest finish p n hn => ?_⟩
  obtain ⟨n, rfl⟩ : ∃ k, n = k + 1 := ⟨n - 1, by omega⟩
  rw [List.append_assoc, List.cons_append, List.cons_append, List.cons_append] at hn ⊢
  rw [List.length_cons, List.length_cons] at hn
  obtain ⟨d, hd, he⟩ := h.reads (Sign.comma.token c :: (us ++ Sign.rightBrace.token p :: rest))
    finish n (.sign rfl) (by simp only [Grade.fuel]; omega)
  rw [List.length_append, List.length_cons] at hn
  obtain ⟨ds, hds, hr⟩ := hs.reads hne rest finish p n (by omega)
  exact ⟨(key, d) :: ds, by simp only [Expr.unplacedProperties, hd, hds],
    propertiesRest_comma hl he hr⟩

theorem properties (h : ReadableProperties ps ts) (rest : List Token) (finish p : Position)
    (n : Nat) (hn : 20 * (ts ++ Sign.rightBrace.token p :: rest).length + 18 ≤ n) :
    ∃ ds : List (String × Expr), Expr.unplacedProperties ds = Expr.unplacedProperties ps ∧
      Parse.properties n ⟨ts ++ Sign.rightBrace.token p :: rest, finish⟩ =
        .ok (ds, ⟨rest, finish⟩) := by
  obtain ⟨n, rfl⟩ : ∃ k, n = k + 1 := ⟨n - 1, by omega⟩
  cases ps with
  | nil =>
    rw [h.empty rfl]
    exact ⟨[], rfl, properties_none⟩
  | cons q ps =>
    have hne : q :: ps ≠ [] := nofun
    obtain ⟨ds, hds, hr⟩ := h.reads hne rest finish p n (by omega)
    obtain ⟨hstart, hts⟩ := h.opens hne finish
    obtain ⟨t, us, rfl⟩ := List.exists_cons_of_ne_nil hts
    have head : Ahead.startsWith ⟨t :: us ++ Sign.rightBrace.token p :: rest, finish⟩
        (Lexeme.isSign .rightBrace) = false := hstart
    exact ⟨ds, hds, (properties_some head).trans hr⟩

end ReadableProperties

namespace Readable

variable {e : Expr} {ts us : List Token}

theorem array {es : List Expr} (h : ReadableItems es us) (p q r : Position) :
    Readable .suffixed (.array es p)
      (Sign.leftBracket.token q :: us ++ [Sign.rightBracket.token r]) := by
  rw [List.cons_append]
  refine primary rfl rfl fun rest finish n hn => ?_
  rw [List.append_assoc] at hn
  rw [List.cons_append, List.append_assoc]
  obtain ⟨ds, hds, he⟩ := h.items .rightBracket rest finish r n (.inr rfl)
    (Nat.le_trans (by exact Nat.add_le_add_left (by decide) _) hn)
  exact ⟨.array ds q, by rw [Expr.unplaced, Expr.unplaced, hds], primary_array he⟩

theorem object {ps : List (String × Expr)} (h : ReadableProperties ps us) (p q r : Position) :
    Readable .suffixed (.object (Fields.ofList ps).entries p)
      (Sign.leftBrace.token q :: us ++ [Sign.rightBrace.token r]) := by
  rw [List.cons_append]
  refine primary rfl rfl fun rest finish n hn => ?_
  rw [List.append_assoc] at hn
  rw [List.cons_append, List.append_assoc]
  obtain ⟨ds, hds, he⟩ := h.properties rest finish r n
    (Nat.le_trans (by exact Nat.add_le_add_left (by decide) _) hn)
  refine ⟨.object (Fields.ofList ds).entries q, ?_, primary_object he⟩
  rw [Expr.unplaced, Expr.unplaced, ← Fields.ofList_unplacedProperties, hds,
    Fields.ofList_unplacedProperties]

theorem call {args : List Expr} (h : Readable .suffixed e ts) (ha : ReadableItems args us)
    (p q r : Position) :
    Readable .suffixed (.call e args p)
      (ts ++ Sign.leftParen.token q :: us ++ [Sign.rightParen.token r]) := by
  rw [List.append_assoc]
  refine h.suffix (fun d rest finish m hd hm => ?_) (by simp)
  rw [List.cons_append, List.cons_append, List.append_assoc] at hm ⊢
  rw [List.length_cons] at hm
  obtain ⟨ds, hds, he⟩ := ha.items .rightParen rest finish r m (.inl rfl)
    (by rw [← List.singleton_append]; omega)
  exact ⟨.call d ds d.position, by rw [Expr.unplaced, Expr.unplaced, hd, hds], accesses_call he⟩

end Readable

end CanvasScript
