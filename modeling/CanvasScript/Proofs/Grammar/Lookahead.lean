import CanvasScript.Proofs.Grammar

namespace CanvasScript

namespace Lexeme

def startsExpr : Lexeme → Bool
  | number _ => true
  | text _ => true
  | name _ => true
  | keyword k => [Keyword.null, .undefined, .true_, .false_, .not].contains k
  | sign s => [Sign.minus, .bang, .dollar, .leftBracket, .leftBrace, .leftParen].contains s

def continues? : Lexeme → Option Grade
  | sign .eq => some .assignment
  | sign .plusEq => some .assignment
  | sign .minusEq => some .assignment
  | sign .starEq => some .assignment
  | sign .slashEq => some .assignment
  | sign .pipePipe => some (.binary .or)
  | keyword .or => some (.binary .or)
  | sign .ampAmp => some (.binary .and)
  | keyword .and => some (.binary .and)
  | sign .eqEq => some (.binary .equality)
  | sign .bangEq => some (.binary .equality)
  | sign .lt => some (.binary .relational)
  | sign .ltEq => some (.binary .relational)
  | sign .gt => some (.binary .relational)
  | sign .gtEq => some (.binary .relational)
  | sign .plus => some (.binary .additive)
  | sign .minus => some (.binary .additive)
  | sign .star => some (.binary .multiplicative)
  | sign .slash => some (.binary .multiplicative)
  | sign .plusPlus => some .postfixed
  | sign .minusMinus => some .postfixed
  | sign .dot => some .suffixed
  | sign .leftBracket => some .suffixed
  | sign .leftParen => some .suffixed
  | _ => none

theorem continues?_of_operator? {l : Lexeme} {level : Level} {op : BinaryOp}
    (h : level.operator? l = some op) : l.continues? = some (.binary level) := by
  unfold Level.operator? at h
  split at h <;> first | rfl | cases h

theorem continues?_of_assignment? {l : Lexeme} {op : Option ArithOp}
    (h : l.assignment? = some op) : l.continues? = some .assignment := by
  unfold assignment? at h
  split at h <;> first | rfl | cases h

theorem continues?_of_updateOp? {l : Lexeme} {u : UpdateOp × Sign} (h : l.updateOp? = some u) :
    l.continues? = some .postfixed := by
  unfold updateOp? at h
  split at h <;> first | rfl | cases h

theorem startsExpr_ne_sign {l : Lexeme} (h : l.startsExpr = true) {s : Sign}
    (hs : (sign s).startsExpr = false) : l.isSign s = false := by
  cases l with
  | sign s' =>
    simp only [isSign, decide_eq_false_iff_not]
    rintro rfl
    simp [h] at hs
  | _ => rfl

end Lexeme

theorem BinaryOp.operator?_of_mem_spellings {op : BinaryOp} {l : Lexeme} (h : l ∈ op.spellings) :
    op.level.operator? l = some op := by
  cases op with
  | arith op => cases op <;> simp_all [spellings, level, Level.operator?]
  | and =>
    simp only [spellings, List.mem_cons, List.not_mem_nil, or_false] at h
    rcases h with rfl | rfl <;> rfl
  | or =>
    simp only [spellings, List.mem_cons, List.not_mem_nil, or_false] at h
    rcases h with rfl | rfl <;> rfl
  | _ => simp_all [spellings, level, Level.operator?]

theorem UnaryOp.unaryOp?_of_mem_spellings {op : UnaryOp} {l : Lexeme} (h : l ∈ op.spellings) :
    l.unaryOp? = some op := by
  cases op with
  | neg => rw [List.mem_singleton.1 h]; rfl
  | not =>
    simp only [spellings, List.mem_cons, List.not_mem_nil, or_false] at h
    rcases h with rfl | rfl <;> rfl

def Grade.gathers : Grade → Bool
  | binary _ => true
  | suffixed => true
  | _ => false

def Stops (k : Grade) (rest : List Token) : Prop :=
  ∀ t ∈ rest.head?, t.lexeme.continues? ≠ some k

def Follows (g : Grade) (rest : List Token) : Prop :=
  ∀ k, g.rank < k.rank ∨ k = g ∧ g.gathers = false → Stops k rest

theorem Follows.tighten {g h : Grade} {rest : List Token} (hf : Follows g rest)
    (hgh : g.rank < h.rank) : Follows h rest := by
  rintro k (hk | ⟨rfl, -⟩)
  · exact hf k (.inl (Nat.lt_trans hgh hk))
  · exact hf k (.inl hgh)

theorem Follows.cons {g : Grade} {t : Token} {rest : List Token}
    (h : ∀ k, t.lexeme.continues? = some k → k.rank < g.rank ∨ k = g ∧ g.gathers = true) :
    Follows g (t :: rest) := by
  intro k hk u hu hc
  cases hu
  rcases h k hc with hr | ⟨rfl, hg⟩
  · rcases hk with hk | ⟨rfl, -⟩ <;> omega
  · rcases hk with hk | ⟨-, hk⟩
    · omega
    · simp [hg] at hk

theorem Follows.suffixed (rest : List Token) : Follows .suffixed rest := by
  rintro k (hk | ⟨-, hk⟩)
  · exact absurd hk (Nat.not_lt.2 k.le_suffixed)
  · cases hk

theorem Follows.sign {g : Grade} {s : Sign} {p : Position} {rest : List Token}
    (h : (Lexeme.sign s).continues? = none) : Follows g (s.token p :: rest) :=
  .cons fun k hk => by simp [Sign.token, h] at hk

namespace Stops

variable {rest : List Token} {finish : Position}

theorem head?_bind {α : Type} {k : Grade} {f : Lexeme → Option α} (h : Stops k rest)
    (hf : ∀ {l a}, f l = some a → l.continues? = some k) :
    (Ahead.head? ⟨rest, finish⟩).bind f = none := by
  cases rest with
  | nil => rfl
  | cons t rest =>
    simp only [Ahead.head?, List.head?_cons, Option.map_some, Option.bind_some]
    cases ha : f t.lexeme with
    | none => rfl
    | some a => exact absurd (hf ha) (h t rfl)

theorem operator? {level : Level} (h : Stops (.binary level) rest) :
    (Ahead.head? ⟨rest, finish⟩).bind level.operator? = none :=
  h.head?_bind Lexeme.continues?_of_operator?

theorem assignment? (h : Stops .assignment rest) :
    (Ahead.head? ⟨rest, finish⟩).bind Lexeme.assignment? = none :=
  h.head?_bind Lexeme.continues?_of_assignment?

theorem updateOp? (h : Stops .postfixed rest) :
    (Ahead.head? ⟨rest, finish⟩).bind Lexeme.updateOp? = none :=
  h.head?_bind Lexeme.continues?_of_updateOp?

theorem chainRest {level : Level} (h : Stops (.binary level) rest) (e : Expr) {m : Nat}
    (hm : 0 < m) : Parse.chainRest m level e ⟨rest, finish⟩ = .ok (e, ⟨rest, finish⟩) := by
  cases m with
  | zero => omega
  | succ m =>
    rw [Parse.chainRest, h.operator?]

theorem accesses (h : Stops .suffixed rest) (e : Expr) {m : Nat} (hm : 0 < m) :
    Parse.accesses m e ⟨rest, finish⟩ = .ok (e, ⟨rest, finish⟩) := by
  cases m with
  | zero => omega
  | succ m =>
    rw [Parse.accesses]
    cases rest with
    | nil => rfl
    | cons t rest =>
      simp only [Ahead.head?, List.head?_cons, Option.map_some]
      split
      · rename_i ht
        exact absurd (congrArg Lexeme.continues? (Option.some.inj ht)) (h t rfl)
      · rename_i ht
        exact absurd (congrArg Lexeme.continues? (Option.some.inj ht)) (h t rfl)
      · rename_i ht
        exact absurd (congrArg Lexeme.continues? (Option.some.inj ht)) (h t rfl)
      · rfl

end Stops

end CanvasScript
