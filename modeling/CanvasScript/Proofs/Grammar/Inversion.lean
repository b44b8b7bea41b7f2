import CanvasScript.Proofs.Grammar

namespace CanvasScript

theorem Parse.ok_of_bind {ε α β : Type} {x : Except ε α} {f : α → Except ε β} {b : β}
    (h : x >>= f = .ok b) : ∃ a, x = .ok a ∧ f a = .ok b := by
  cases x with
  | ok a => exact ⟨a, rfl, h⟩
  | error e => cases h

theorem Parse.ok_of_map {ε α β : Type} {x : Except ε α} {f : α → β} {b : β}
    (h : x.map f = .ok b) : ∃ a, x = .ok a ∧ f a = b := by
  cases x with
  | ok a => exact ⟨a, rfl, Except.ok.inj h⟩
  | error e => cases h

theorem Parse.ok_of_mapError {ε δ α : Type} {x : Except ε α} {f : ε → δ} {a : α}
    (h : x.mapError f = .ok a) : x = .ok a := by
  cases x with
  | ok b => exact congrArg Except.ok (Except.ok.inj h)
  | error e => cases h

namespace Lexeme

variable {l : Lexeme}

theorem eq_sign_of_isSign {s : Sign} (h : l.isSign s = true) : l = .sign s := by
  cases l with
  | sign s' => rw [of_decide_eq_true h]
  | _ => cases h

theorem eq_keyword_of_isKeyword {k : Keyword} (h : l.isKeyword k = true) : l = .keyword k := by
  cases l with
  | keyword k' => rw [of_decide_eq_true h]
  | _ => cases h

theorem level_of_operator? {level : Level} {op : BinaryOp} (h : level.operator? l = some op) :
    op.level = level ∧ l ∈ op.spellings := by
  unfold Level.operator? at h
  split at h <;> cases h <;> simp [BinaryOp.level, BinaryOp.spellings]

theorem eq_sign_of_assignment? {op : Option ArithOp} (h : l.assignment? = some op) :
    l = .sign (op.elim .eq ArithOp.assignSign) := by
  unfold assignment? at h
  split at h <;> cases h <;> rfl

theorem mem_spellings_of_unaryOp? {op : UnaryOp} (h : l.unaryOp? = some op) :
    l ∈ op.spellings := by
  unfold unaryOp? at h
  split at h <;> cases h <;> simp [UnaryOp.spellings]

theorem eq_sign_of_updateOp? {op : UpdateOp} {s : Sign} (h : l.updateOp? = some (op, s)) :
    l = .sign op.sign := by
  unfold updateOp? at h
  split at h <;> cases h <;> rfl

theorem eq_lexeme_of_literal? {v : Literal} (h : l.literal? = some v) : l = v.lexeme := by
  unfold literal? at h
  split at h <;> cases h <;> rfl

end Lexeme

namespace Ahead

variable {ts us : Ahead}

theorem tokens_of_head? {l : Lexeme} (h : ts.head? = some l) :
    ∃ p, ts.tokens = ⟨l, p⟩ :: ts.rest.tokens := by
  obtain ⟨tokens, finish⟩ := ts
  cases tokens with
  | nil => cases h
  | cons t tokens =>
    cases h
    exact ⟨t.position, rfl⟩

theorem tokens_of_head?_sign {s : Sign} (h : ts.head? = some (.sign s)) :
    ∃ p, ts.tokens = s.token p :: ts.rest.tokens := tokens_of_head? h

theorem tokens_of_head?_keyword {k : Keyword} (h : ts.head? = some (.keyword k)) :
    ∃ p, ts.tokens = k.token p :: ts.rest.tokens := tokens_of_head? h

theorem tokens_of_head?_bind {α : Type} {f : Lexeme → Option α} {a : α}
    (h : ts.head?.bind f = some a) :
    ∃ l p, f l = some a ∧ ts.tokens = ⟨l, p⟩ :: ts.rest.tokens := by
  obtain ⟨l, hl, ha⟩ := Option.bind_eq_some_iff.1 h
  obtain ⟨p, hp⟩ := tokens_of_head? hl
  exact ⟨l, p, ha, hp⟩

theorem tokens_of_startsWith {f : Lexeme → Bool} (h : ts.startsWith f = true) :
    ∃ l p, f l = true ∧ ts.tokens = ⟨l, p⟩ :: ts.rest.tokens := by
  rw [startsWith, Option.any_eq_true] at h
  obtain ⟨l, hl, hf⟩ := h
  obtain ⟨p, hp⟩ := tokens_of_head? hl
  exact ⟨l, p, hf, hp⟩

theorem tokens_of_startsWith_sign {s : Sign} (h : ts.startsWith (Lexeme.isSign s) = true) :
    ∃ p, ts.tokens = s.token p :: ts.rest.tokens := by
  obtain ⟨l, p, hl, hp⟩ := tokens_of_startsWith h
  cases Lexeme.eq_sign_of_isSign hl
  exact ⟨p, hp⟩

theorem tokens_of_startsWith_keyword {k : Keyword}
    (h : ts.startsWith (Lexeme.isKeyword k) = true) :
    ∃ p, ts.tokens = k.token p :: ts.rest.tokens := by
  obtain ⟨l, p, hl, hp⟩ := tokens_of_startsWith h
  cases Lexeme.eq_keyword_of_isKeyword hl
  exact ⟨p, hp⟩

theorem tokens_of_expectSign {s : Sign} (h : ts.expectSign s = .ok us) :
    ∃ p, ts.tokens = s.token p :: us.tokens := by
  unfold expectSign at h
  split at h
  · rename_i hs
    cases h
    exact tokens_of_startsWith_sign hs
  · cases h

theorem tokens_of_expectKeyword {k : Keyword} (h : ts.expectKeyword k = .ok us) :
    ∃ p, ts.tokens = k.token p :: us.tokens := by
  unfold expectKeyword at h
  split at h
  · rename_i hk
    cases h
    exact tokens_of_startsWith_keyword hk
  · cases h

theorem tokens_of_expectName {r : String × Ahead} (h : ts.expectName = .ok r) :
    ∃ p, ts.tokens = ⟨.name r.1, p⟩ :: r.2.tokens := by
  unfold expectName at h
  split at h
  · rename_i hn
    cases h
    exact tokens_of_head? hn
  · cases h

theorem tokens_skipSemicolon (ts : Ahead) :
    ∃ es, Semicolon true es ∧ ts.tokens = es ++ ts.skipSemicolon.tokens := by
  unfold skipSemicolon
  split
  · rename_i hs
    obtain ⟨p, hp⟩ := tokens_of_startsWith_sign hs
    exact ⟨_, .written p, hp⟩
  · exact ⟨[], .omitted rfl, rfl⟩

end Ahead

end CanvasScript
