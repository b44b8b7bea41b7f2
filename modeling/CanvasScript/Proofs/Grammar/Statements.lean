import CanvasScript.Proofs.Grammar.Expressions

namespace CanvasScript

open Parse

def Lexeme.startsStmt : Lexeme → Bool
  | keyword k => (keyword k).startsExpr ||
      [Keyword.if_, .while_, .for_, .function, .return_, .break_, .continue_].contains k
  | l => l.startsExpr

theorem Lexeme.startsStmt_of_startsExpr {l : Lexeme} (h : l.startsExpr = true) :
    l.startsStmt = true := by
  cases l with
  | keyword k => simp [startsStmt, h]
  | _ => exact h

theorem Lexeme.isKeyword_of_startsStmt {l : Lexeme} (h : l.startsStmt = true) {k : Keyword}
    (hk : k ∈ [Keyword.elseif, .else_, .end_]) : l.isKeyword k = false := by
  cases l with
  | keyword l =>
    simp only [isKeyword, decide_eq_false_iff_not]
    rintro rfl
    simp only [List.mem_cons, List.not_mem_nil, or_false] at hk
    rcases hk with rfl | rfl | rfl <;> cases h
  | _ => rfl

def Closed (closing : List Keyword) (rest : List Token) : Prop :=
  rest = [] ∨ ∃ k p us, rest = Keyword.token k p :: us ∧ k ∈ closing

theorem Closed.mono {ks ls : List Keyword} {rest : List Token} (h : Closed ks rest)
    (hk : ∀ k ∈ ks, k ∈ ls) : Closed ls rest :=
  h.imp_right fun ⟨k, p, us, he, hm⟩ => ⟨k, p, us, he, hk k hm⟩

theorem Closed.end_ (p : Position) (us : List Token) :
    Closed [.end_] (Keyword.end_.token p :: us) :=
  .inr ⟨.end_, p, us, rfl, List.mem_singleton_self _⟩

theorem Closed.startsWith_sign {closing : List Keyword} {rest : List Token}
    (h : Closed closing rest) (s : Sign) (finish : Position) :
    Ahead.startsWith ⟨rest, finish⟩ (Lexeme.isSign s) = false := by
  rcases h with rfl | ⟨k, p, us, rfl, -⟩ <;> rfl

theorem Closed.startsWith_keyword {closing : List Keyword} {rest : List Token}
    (h : Closed closing rest) {k : Keyword} (hk : k ∉ closing) (finish : Position) :
    Ahead.startsWith ⟨rest, finish⟩ (Lexeme.isKeyword k) = false := by
  rcases h with rfl | ⟨l, p, us, rfl, hl⟩
  · rfl
  · have hne : k ≠ l := by
      rintro rfl
      exact hk hl
    simp [startsWith_cons, Keyword.token, Lexeme.isKeyword, hne]

theorem Semicolon.skip {lax : Bool} {hs : List Token} (h : Semicolon lax hs) (us : List Token)
    (finish : Position)
    (hus : lax = true → Ahead.startsWith ⟨us, finish⟩ (Lexeme.isSign .semicolon) = false) :
    Ahead.skipSemicolon ⟨hs ++ us, finish⟩ = ⟨us, finish⟩ := by
  cases h with
  | written p => rfl
  | omitted hl => simp [Ahead.skipSemicolon, hus hl]

theorem Semicolon.skip_written {hs : List Token} (h : Semicolon false hs) (us : List Token)
    (finish : Position) : Ahead.skipSemicolon ⟨hs ++ us, finish⟩ = ⟨us, finish⟩ :=
  h.skip us finish nofun

structure ReadableStmt (inLoop : Bool) (s : Stmt) (ts : List Token) : Prop where
  starts : ∃ t us, ts = t :: us ∧ t.lexeme.startsStmt = true
  reads : ∀ (rest : List Token) (finish : Position) (n : Nat),
    20 * (ts ++ rest).length + 17 ≤ n → ∃ d : Stmt, d.unplaced = s.unplaced ∧
      Parse.stmt n inLoop ⟨ts ++ rest, finish⟩ = .ok (d, ⟨rest, finish⟩)

structure ReadableBlock (inLoop : Bool) (ss : List Stmt) (ts : List Token) : Prop where
  starts : ts = [] ∨ ∃ t us, ts = t :: us ∧ t.lexeme.startsStmt = true
  reads : ∀ (closing : List Keyword) (rest : List Token) (finish : Position) (n : Nat),
    (∀ k ∈ closing, k ∈ [Keyword.elseif, .else_, .end_]) → Closed closing rest →
    20 * (ts ++ rest).length + 18 ≤ n →
    ∃ ds : List Stmt, Stmt.unplacedList ds = Stmt.unplacedList ss ∧
      Parse.block n inLoop closing ⟨ts ++ rest, finish⟩ = .ok (ds, ⟨rest, finish⟩)

structure ReadableBranches (inLoop : Bool) (bs : List (Expr × List Stmt)) (ts : List Token) :
    Prop where
  starts : ts = [] ∨ ∃ p us, ts = Keyword.elseif.token p :: us
  reads : ∀ (rest : List Token) (finish : Position) (n : Nat), Closed [.else_, .end_] rest →
    20 * (ts ++ rest).length + 18 ≤ n →
    ∃ ds : List (Expr × List Stmt), Stmt.unplacedBranches ds = Stmt.unplacedBranches bs ∧
      Parse.branches n inLoop ⟨ts ++ rest, finish⟩ = .ok (ds, ⟨rest, finish⟩)

structure ReadableOtherwise (inLoop : Bool) (o : Option (List Stmt)) (ts : List Token) : Prop where
  starts : ts = [] ∨ ∃ p us, ts = Keyword.else_.token p :: us
  reads : ∀ (rest : List Token) (finish : Position) (n : Nat), Closed [.end_] rest →
    20 * (ts ++ rest).length + 18 ≤ n →
    ∃ d : Option (List Stmt), Stmt.unplacedOtherwise d = Stmt.unplacedOtherwise o ∧
      Parse.otherwise n inLoop ⟨ts ++ rest, finish⟩ = .ok (d, ⟨rest, finish⟩)

theorem ReadableBlock.startsWith {inLoop : Bool} {ss : List Stmt} {ts : List Token}
    (h : ReadableBlock inLoop ss ts) {closing : List Keyword} {rest : List Token}
    (hr : Closed closing rest) (finish : Position) :
    Ahead.startsWith ⟨ts ++ rest, finish⟩ (Lexeme.isSign .semicolon) = false := by
  rcases h.starts with rfl | ⟨t, us, rfl, ht⟩
  · exact hr.startsWith_sign .semicolon finish
  · rw [List.cons_append, startsWith_cons]
    match hl : t.lexeme with
    | .sign s =>
      have hs : (Lexeme.sign s).startsExpr = true := by
        rw [hl] at ht
        exact ht
      exact Lexeme.startsExpr_ne_sign hs rfl
    | .keyword _ | .number _ | .text _ | .name _ => rfl

theorem ReadableBranches.closed {inLoop : Bool} {bs : List (Expr × List Stmt)}
    {ts rest : List Token} (h : ReadableBranches inLoop bs ts) (hr : Closed [.else_, .end_] rest) :
    Closed [.elseif, .else_, .end_] (ts ++ rest) := by
  rcases h.starts with rfl | ⟨p, us, rfl⟩
  · exact hr.mono fun k hk => List.mem_cons_of_mem _ hk
  · exact .inr ⟨.elseif, p, us ++ rest, rfl, List.mem_cons_self⟩

theorem ReadableOtherwise.closed {inLoop : Bool} {o : Option (List Stmt)} {ts rest : List Token}
    (h : ReadableOtherwise inLoop o ts) (hr : Closed [.end_] rest) :
    Closed [.else_, .end_] (ts ++ rest) := by
  rcases h.starts with rfl | ⟨p, us, rfl⟩
  · exact hr.mono fun k hk => List.mem_cons_of_mem _ hk
  · exact .inr ⟨.else_, p, us ++ rest, rfl, List.mem_cons_self⟩

theorem Lexeme.endsReturn_of_startsExpr {l : Lexeme} (h : l.startsExpr = true) :
    l.endsReturn = false := by
  unfold endsReturn
  split <;> first | rfl | cases h

theorem Semicolon.follows {es rest : List Token} (h : Semicolon false es) {g : Grade} :
    Follows g (es ++ rest) := by
  cases h with
  | written p => exact .sign rfl
  | omitted h => cases h

theorem Parse.stmt_expr {n : Nat} {inLoop : Bool} {t : Token} {us : List Token} {finish : Position}
    {e : Expr} {ws : Ahead} (ht : t.lexeme.startsExpr = true)
    (he : Parse.expr n ⟨t :: us, finish⟩ = .ok (e, ws)) :
    Parse.stmt (n + 1) inLoop ⟨t :: us, finish⟩ = .ok (.expr e, ws.skipSemicolon) := by
  have keyword {k : Keyword} (h : Ahead.head? ⟨t :: us, finish⟩ = some (.keyword k)) :
      (Lexeme.keyword k).startsExpr = true := Option.some.inj h ▸ ht
  rw [Parse.stmt]
  -- the keywords that statements begin with begin no expression
  split
  · rename_i h; cases keyword h
  · rename_i h; cases keyword h
  · rename_i h; cases keyword h
  · rename_i h; cases keyword h
  · rename_i h; cases keyword h
  · rename_i h; cases keyword h
  · rename_i h; cases keyword h
  · rw [he]
    rfl

theorem Readable.condition {c : Expr} {cs hs us : List Token} (h : Readable .assignment c cs)
    (hh : Semicolon true hs) (q r : Position) {finish : Position}
    (hus : Ahead.startsWith ⟨us, finish⟩ (Lexeme.isSign .semicolon) = false) (n : Nat)
    (hn : 20 * (cs ++ Sign.rightParen.token r :: (hs ++ us)).length + 16 ≤ n) :
    ∃ d : Expr, d.unplaced = c.unplaced ∧
      Parse.condition n
        ⟨Sign.leftParen.token q :: (cs ++ Sign.rightParen.token r :: (hs ++ us)), finish⟩ =
      .ok (d, ⟨us, finish⟩) := by
  obtain ⟨d, hd, he⟩ := h.reads _ finish n (.sign rfl) hn
  have hc := condition_ok (p := q) he
  rw [hh.skip us finish fun _ => hus] at hc
  exact ⟨d, hd, hc⟩

structure ReadableNames (xs : List String) (ts : List Token) : Prop where
  empty : xs = [] → ts = []
  starts : xs ≠ [] → ∃ x p us, ts = ⟨.name x, p⟩ :: us
  reads : xs ≠ [] → ∀ (rest : List Token) (finish p : Position) (n : Nat), ts.length < n →
    Parse.names n ⟨ts ++ Sign.rightParen.token p :: rest, finish⟩ =
      .ok (xs, ⟨Sign.rightParen.token p :: rest, finish⟩)

namespace ReadableNames

theorem last (x : String) (p : Position) : ReadableNames [x] [⟨.name x, p⟩] := by
  refine ⟨nofun, fun _ => ⟨x, p, [], rfl⟩, fun _ rest finish q n hn => ?_⟩
  obtain ⟨n, rfl⟩ : ∃ k, n = k + 1 := ⟨n - 1, by omega⟩
  exact names_last rfl

theorem cons {xs : List String} {ts : List Token} (h : ReadableNames xs ts) (hne : xs ≠ [])
    (x : String) (p q : Position) :
    ReadableNames (x :: xs) (⟨.name x, p⟩ :: Sign.comma.token q :: ts) := by
  refine ⟨nofun, fun _ => ⟨x, p, _, rfl⟩, fun _ rest finish r n hn => ?_⟩
  obtain ⟨n, rfl⟩ : ∃ k, n = k + 1 := ⟨n - 1, by omega⟩
  simp only [List.length_cons] at hn
  exact names_comma (h.reads hne rest finish r n (by omega))

theorem params {xs : List String} {ts : List Token} (h : ReadableNames xs ts)
    (rest : List Token) (finish p : Position) :
    Parse.params ⟨ts ++ Sign.rightParen.token p :: rest, finish⟩ =
      .ok (xs, ⟨Sign.rightParen.token p :: rest, finish⟩) := by
  unfold Parse.params
  cases xs with
  | nil =>
    rw [h.empty rfl]
    rfl
  | cons x xs =>
    have hne : x :: xs ≠ [] := nofun
    obtain ⟨y, q, us, hs⟩ := h.starts hne
    have head : Ahead.startsWith ⟨ts ++ Sign.rightParen.token p :: rest, finish⟩
        (Lexeme.isSign .rightParen) = false := by
      rw [hs]
      rfl
    rw [head, if_neg (by simp)]
    exact h.reads hne rest finish p _ (by simp only [List.length_append]; omega)

end ReadableNames

namespace ReadableStmt

variable {inLoop : Bool} {c : Expr} {body : List Stmt} {cs hs bs es : List Token}

theorem while_ (hc : Readable .assignment c cs) (hh : Semicolon true hs)
    (hb : ReadableBlock true body bs) (he : Semicolon false es) (p q₁ q₂ q₃ q₄ : Position) :
    ReadableStmt inLoop (.while_ c body p)
      (Keyword.while_.token q₁ :: Sign.leftParen.token q₂ :: cs ++ Sign.rightParen.token q₃ :: hs ++
        bs ++ Keyword.end_.token q₄ :: es) := by
  refine ⟨⟨_, _, rfl, rfl⟩, fun rest finish n hn => ?_⟩
  simp only [List.append_assoc, List.cons_append] at hn ⊢
  obtain ⟨n, rfl⟩ : ∃ k, n = k + 1 := ⟨n - 1, by omega⟩
  simp only [List.length_append, List.length_cons] at hn
  have closed := Closed.end_ q₄ (es ++ rest)
  obtain ⟨c', hc', condition⟩ := hc.condition hh q₂ q₃ (hb.startsWith closed finish) n
    (by simp only [List.length_append, List.length_cons]; omega)
  obtain ⟨body', hb', block⟩ := hb.reads [.end_] _ finish n (by simp) closed
    (by simp only [List.length_append, List.length_cons]; omega)
  refine ⟨.while_ c' body' q₁, by rw [Stmt.unplaced, Stmt.unplaced, hc', hb'], ?_⟩
  rw [← he.skip_written rest finish]
  exact stmt_while condition block

theorem for_ (counter : String) (hc : Readable .assignment c cs) (hh : Semicolon true hs)
    (hb : ReadableBlock true body bs) (he : Semicolon false es)
    (p q₁ q₂ q₃ q₄ q₅ q₆ : Position) :
    ReadableStmt inLoop (.for_ counter c body p)
      (Keyword.for_.token q₁ :: Sign.leftParen.token q₂ :: ⟨.name counter, q₃⟩ ::
        Sign.comma.token q₄ :: cs ++ Sign.rightParen.token q₅ :: hs ++ bs ++
        Keyword.end_.token q₆ :: es) := by
  refine ⟨⟨_, _, rfl, rfl⟩, fun rest finish n hn => ?_⟩
  simp only [List.append_assoc, List.cons_append] at hn ⊢
  obtain ⟨n, rfl⟩ : ∃ k, n = k + 1 := ⟨n - 1, by omega⟩
  simp only [List.length_append, List.length_cons] at hn
  have closed := Closed.end_ q₆ (es ++ rest)
  obtain ⟨c', hc', count⟩ := hc.reads
    (Sign.rightParen.token q₅ :: (hs ++ (bs ++ Keyword.end_.token q₆ :: (es ++ rest)))) finish n
    (.sign rfl) (by simp only [List.length_append, List.length_cons, Grade.fuel]; omega)
  obtain ⟨body', hb', block⟩ := hb.reads [.end_] _ finish n (by simp) closed
    (by simp only [List.length_append, List.length_cons]; omega)
  refine ⟨.for_ counter c' body' q₁, by rw [Stmt.unplaced, Stmt.unplaced, hc', hb'], ?_⟩
  rw [← hh.skip _ finish fun _ => hb.startsWith closed finish] at block
  rw [← he.skip_written rest finish]
  exact stmt_for count block

theorem function {name : String} {params : List String} {ps : List Token}
    (hp : ReadableNames params ps) (hh : Semicolon true hs) (hb : ReadableBlock inLoop body bs)
    (he : Semicolon false es) (p q₁ q₂ q₃ q₄ q₅ : Position) :
    ReadableStmt inLoop (.function name params body p)
      (Keyword.function.token q₁ :: ⟨.name name, q₂⟩ :: Sign.leftParen.token q₃ :: ps ++
        Sign.rightParen.token q₄ :: hs ++ bs ++ Keyword.end_.token q₅ :: es) := by
  refine ⟨⟨_, _, rfl, rfl⟩, fun rest finish n hn => ?_⟩
  simp only [List.append_assoc, List.cons_append] at hn ⊢
  obtain ⟨n, rfl⟩ : ∃ k, n = k + 1 := ⟨n - 1, by omega⟩
  simp only [List.length_append, List.length_cons] at hn
  have closed := Closed.end_ q₅ (es ++ rest)
  have names := hp.params (hs ++ (bs ++ Keyword.end_.token q₅ :: (es ++ rest))) finish q₄
  obtain ⟨body', hb', block⟩ := hb.reads [.end_] _ finish n (by simp) closed
    (by simp only [List.length_append, List.length_cons]; omega)
  refine ⟨.function name params body' q₁, by rw [Stmt.unplaced, Stmt.unplaced, hb'], ?_⟩
  rw [← hh.skip _ finish fun _ => hb.startsWith closed finish] at block
  rw [← he.skip_written rest finish]
  exact stmt_function names block

theorem branch {elseifs : List (Expr × List Stmt)} {other : Option (List Stmt)}
    {ls os : List Token} (hc : Readable .assignment c cs) (hh : Semicolon true hs)
    (hb : ReadableBlock inLoop body bs) (hl : ReadableBranches inLoop elseifs ls)
    (ho : ReadableOtherwise inLoop other os) (he : Semicolon false es)
    (p q₁ q₂ q₃ q₄ : Position) :
    ReadableStmt inLoop (.branch c body elseifs other p)
      (Keyword.if_.token q₁ :: Sign.leftParen.token q₂ :: cs ++ Sign.rightParen.token q₃ :: hs ++
        bs ++ ls ++ os ++ Keyword.end_.token q₄ :: es) := by
  refine ⟨⟨_, _, rfl, rfl⟩, fun rest finish n hn => ?_⟩
  simp only [List.append_assoc, List.cons_append] at hn ⊢
  obtain ⟨n, rfl⟩ : ∃ k, n = k + 1 := ⟨n - 1, by omega⟩
  simp only [List.length_append, List.length_cons] at hn
  have at_end := Closed.end_ q₄ (es ++ rest)
  have at_else := ho.closed at_end
  have at_elseif := hl.closed at_else
  obtain ⟨c', hc', condition⟩ := hc.condition hh q₂ q₃ (hb.startsWith at_elseif finish) n
    (by simp only [List.length_append, List.length_cons]; omega)
  obtain ⟨body', hb', block⟩ := hb.reads [.elseif, .else_, .end_] _ finish n (by simp) at_elseif
    (by simp only [List.length_append, List.length_cons]; omega)
  obtain ⟨elseifs', hl', branches⟩ := hl.reads _ finish n at_else
    (by simp only [List.length_append, List.length_cons]; omega)
  obtain ⟨other', ho', otherwise⟩ := ho.reads _ finish n at_end
    (by simp only [List.length_append, List.length_cons]; omega)
  refine ⟨.branch c' body' elseifs' other' q₁, ?_, ?_⟩
  · rw [Stmt.unplaced, Stmt.unplaced, hc', hb', hl', ho']
  · rw [← he.skip_written rest finish]
    exact stmt_branch condition block branches otherwise

theorem return_ (h : Readable .assignment c cs) (he : Semicolon false es) (p q : Position) :
    ReadableStmt inLoop (.return_ (some c) p) (Keyword.return_.token q :: cs ++ es) := by
  refine ⟨⟨_, _, rfl, rfl⟩, fun rest finish n hn => ?_⟩
  simp only [List.append_assoc, List.cons_append] at hn ⊢
  obtain ⟨n, rfl⟩ : ∃ k, n = k + 1 := ⟨n - 1, by omega⟩
  simp only [List.length_cons] at hn
  obtain ⟨c', hc', expr⟩ := h.reads (es ++ rest) finish n he.follows
    (by simp only [Grade.fuel]; omega)
  have head : (Ahead.head? ⟨cs ++ (es ++ rest), finish⟩).all Lexeme.endsReturn = false := by
    obtain ⟨t, us, rfl, ht, -⟩ := h.opens
    exact Lexeme.endsReturn_of_startsExpr ht
  refine ⟨.return_ (some c') q, by rw [Stmt.unplaced, Stmt.unplaced, hc'], ?_⟩
  rw [← he.skip_written rest finish]
  exact stmt_return (returned_some head expr)

theorem returnNothing (he : Semicolon false es) (p q : Position) :
    ReadableStmt inLoop (.return_ none p) (Keyword.return_.token q :: es) := by
  refine ⟨⟨_, _, rfl, rfl⟩, fun rest finish n hn => ?_⟩
  obtain ⟨n, rfl⟩ : ∃ k, n = k + 1 := ⟨n - 1, by omega⟩
  refine ⟨.return_ none q, rfl, ?_⟩
  cases he with
  | written r => exact stmt_return (returned_none rfl)
  | omitted h => cases h

theorem break_ (he : Semicolon false es) (p q : Position) :
    ReadableStmt true (.break_ p) (Keyword.break_.token q :: es) := by
  refine ⟨⟨_, _, rfl, rfl⟩, fun rest finish n hn => ?_⟩
  obtain ⟨n, rfl⟩ : ∃ k, n = k + 1 := ⟨n - 1, by omega⟩
  refine ⟨.break_ q, rfl, ?_⟩
  rw [← he.skip_written rest finish]
  exact stmt_break

theorem continue_ (he : Semicolon false es) (p q : Position) :
    ReadableStmt true (.continue_ p) (Keyword.continue_.token q :: es) := by
  refine ⟨⟨_, _, rfl, rfl⟩, fun rest finish n hn => ?_⟩
  obtain ⟨n, rfl⟩ : ∃ k, n = k + 1 := ⟨n - 1, by omega⟩
  refine ⟨.continue_ q, rfl, ?_⟩
  rw [← he.skip_written rest finish]
  exact stmt_continue

theorem expr (h : Readable .assignment c cs) (he : Semicolon false es) :
    ReadableStmt inLoop (.expr c) (cs ++ es) := by
  obtain ⟨t, us, rfl, ht, hu⟩ := h.opens
  refine ⟨⟨t, us ++ es, rfl, Lexeme.startsStmt_of_startsExpr ht⟩, fun rest finish n hn => ?_⟩
  rw [List.append_assoc] at hn ⊢
  obtain ⟨n, rfl⟩ : ∃ k, n = k + 1 := ⟨n - 1, by omega⟩
  obtain ⟨c', hc', expr⟩ := h.reads (es ++ rest) finish n he.follows
    (by simp only [Grade.fuel]; omega)
  refine ⟨.expr c', by rw [Stmt.unplaced, Stmt.unplaced, hc'], ?_⟩
  rw [← he.skip_written rest finish]
  exact stmt_expr ht expr

end ReadableStmt

section Lists

variable {inLoop : Bool} {s : Stmt} {ss : List Stmt} {ts us : List Token}

theorem ReadableBlock.nil : ReadableBlock inLoop [] [] := by
  refine ⟨.inl rfl, fun closing rest finish n _ hr hn => ⟨[], rfl, ?_⟩⟩
  obtain ⟨n, rfl⟩ : ∃ k, n = k + 1 := ⟨n - 1, by omega⟩
  rcases hr with rfl | ⟨k, p, us, rfl, hk⟩
  · exact block_finish
  · exact block_end hk

theorem ReadableBlock.cons (hs : ReadableStmt inLoop s ts) (hb : ReadableBlock inLoop ss us) :
    ReadableBlock inLoop (s :: ss) (ts ++ us) := by
  obtain ⟨t, vs, rfl, ht⟩ := hs.starts
  refine ⟨.inr ⟨t, vs ++ us, rfl, ht⟩, fun closing rest finish n hc hr hn => ?_⟩
  rw [List.append_assoc] at hn ⊢
  obtain ⟨n, rfl⟩ : ∃ k, n = k + 1 := ⟨n - 1, by omega⟩
  obtain ⟨d, hd, stmt⟩ := hs.reads (us ++ rest) finish n (by omega)
  rw [List.length_append] at hn
  obtain ⟨ds, hds, block⟩ := hb.reads closing rest finish n hc hr
    (by simp only [List.length_cons] at hn; omega)
  have none_closes : closing.any (Lexeme.isKeyword · t.lexeme) = false := by
    refine List.any_eq_false.2 fun k hk => ?_
    have hne := Lexeme.isKeyword_of_startsStmt ht (hc k hk)
    simp [hne]
  exact ⟨d :: ds, by rw [Stmt.unplacedList, Stmt.unplacedList, hd, hds],
    block_stmt none_closes stmt block⟩

theorem ReadableBranches.nil : ReadableBranches inLoop [] [] := by
  refine ⟨.inl rfl, fun rest finish n hr hn => ⟨[], rfl, ?_⟩⟩
  obtain ⟨n, rfl⟩ : ∃ k, n = k + 1 := ⟨n - 1, by omega⟩
  exact branches_none (hr.startsWith_keyword (by decide) finish)

theorem ReadableBranches.cons {c : Expr} {bs : List (Expr × List Stmt)} {cs hs vs : List Token}
    (hc : Readable .assignment c cs) (hh : Semicolon true hs) (hb : ReadableBlock inLoop ss ts)
    (hr : ReadableBranches inLoop bs vs) (q₁ q₂ q₃ : Position) :
    ReadableBranches inLoop ((c, ss) :: bs)
      (Keyword.elseif.token q₁ :: Sign.leftParen.token q₂ :: cs ++ Sign.rightParen.token q₃ ::
        hs ++ ts ++ vs) := by
  refine ⟨.inr ⟨q₁, _, rfl⟩, fun rest finish n at_else hn => ?_⟩
  simp only [List.append_assoc, List.cons_append] at hn ⊢
  obtain ⟨n, rfl⟩ : ∃ k, n = k + 1 := ⟨n - 1, by omega⟩
  simp only [List.length_append, List.length_cons] at hn
  have at_elseif := hr.closed at_else
  obtain ⟨c', hc', condition⟩ := hc.condition hh q₂ q₃ (hb.startsWith at_elseif finish) n
    (by simp only [List.length_append, List.length_cons]; omega)
  obtain ⟨ss', hss', block⟩ := hb.reads [.elseif, .else_, .end_] _ finish n (by simp) at_elseif
    (by simp only [List.length_append]; omega)
  obtain ⟨bs', hbs', branches⟩ := hr.reads rest finish n at_else
    (by simp only [List.length_append]; omega)
  exact ⟨(c', ss') :: bs', by rw [Stmt.unplacedBranches, Stmt.unplacedBranches, hc', hss', hbs'],
    branches_some condition block branches⟩

theorem ReadableOtherwise.none : ReadableOtherwise inLoop none [] := by
  refine ⟨.inl rfl, fun rest finish n hr hn => ⟨.none, rfl, ?_⟩⟩
  obtain ⟨n, rfl⟩ : ∃ k, n = k + 1 := ⟨n - 1, by omega⟩
  exact otherwise_none (hr.startsWith_keyword (by decide) finish)

theorem ReadableOtherwise.some {hs : List Token} (hh : Semicolon true hs)
    (hb : ReadableBlock inLoop ss ts) (q : Position) :
    ReadableOtherwise inLoop (some ss) (Keyword.else_.token q :: hs ++ ts) := by
  refine ⟨.inr ⟨q, _, rfl⟩, fun rest finish n at_end hn => ?_⟩
  simp only [List.append_assoc, List.cons_append] at hn ⊢
  obtain ⟨n, rfl⟩ : ∃ k, n = k + 1 := ⟨n - 1, by omega⟩
  simp only [List.length_append, List.length_cons] at hn
  obtain ⟨ss', hss', block⟩ := hb.reads [.end_] rest finish n (by simp) at_end
    (by simp only [List.length_append]; omega)
  rw [← hh.skip _ finish fun _ => hb.startsWith at_end finish] at block
  exact ⟨.some ss', by rw [Stmt.unplacedOtherwise, Stmt.unplacedOtherwise, hss'],
    otherwise_some block⟩

end Lists

def Phrase.Readable : Phrase → List Token → Prop
  | expr g e, ts => CanvasScript.Readable g e ts
  | items es, ts => ReadableItems es ts
  | properties ps, ts => ReadableProperties ps ts
  | names xs, ts => ReadableNames xs ts
  | stmt inLoop s, ts => ReadableStmt inLoop s ts
  | block inLoop ss, ts => ReadableBlock inLoop ss ts
  | branches inLoop bs, ts => ReadableBranches inLoop bs ts
  | otherwise inLoop o, ts => ReadableOtherwise inLoop o ts

theorem Written.readable {phrase : Phrase} {ts : List Token} (h : Written false phrase ts) :
    phrase.Readable ts := by
  induction h with
  | literal l p q => exact .loosen (Grade.le_suffixed _) (.literal l p q)
  | name x p q => exact .loosen (Grade.le_suffixed _) (.name x p q)
  | dollarName x p q r => exact .loosen (Grade.le_suffixed _) (.dollarName x p q r)
  | assign p q hg ht _ _ ihl ihv => exact .loosen hg (.assign ihl ht ihv p q)
  | compound op p q hg ht _ _ ihl ihv => exact .loosen hg (.compound ihl ht ihv op p q)
  | update op q r hg _ ih => exact .loosen hg (.update ih op q r)
  | unary p q hg hl _ ih => exact .loosen hg (.unaryOp ih hl p q)
  | binary p q hg hl _ _ ihl ihr => exact .loosen hg (.binaryOp ihl ihr hl p q)
  | call p q r _ _ ihc iha => exact .loosen (Grade.le_suffixed _) (.call ihc iha p q r)
  | member property p q r _ ih =>
    exact .loosen (Grade.le_suffixed _) (.member ih property p q r)
  | index p q r _ _ iho ihi => exact .loosen (Grade.le_suffixed _) (.index iho ihi p q r)
  | array p q r _ ih => exact .loosen (Grade.le_suffixed _) (.array ih p q r)
  | object p q r _ ih => exact .loosen (Grade.le_suffixed _) (.object ih p q r)
  | paren q r _ _ ih => exact .loosen (Grade.le_suffixed _) (.paren ih q r)
  | noItems => exact .none
  | lastItem _ ih => exact .last ih
  | item q _ _ ihe ihs => exact .cons ihe ihs nofun q
  | noProperties => exact .none
  | lastProperty q r hl _ ih => exact .last hl ih q r
  | property q r c hl _ _ ihe ihs => exact .cons hl ihe ihs nofun q r c
  | noNames => exact ⟨fun _ => rfl, fun h => absurd rfl h, fun h => absurd rfl h⟩
  | lastName x p => exact .last x p
  | nameList p q _ ih => exact .cons ih nofun _ p q
  | function p q₁ q₂ q₃ q₄ q₅ _ hh _ he ihp ihb =>
    exact .function ihp hh ihb he p q₁ q₂ q₃ q₄ q₅
  | returnNothing p q he => exact .returnNothing he p q
  | return_ p q _ he ih => exact .return_ ih he p q
  | branch p q₁ q₂ q₃ q₄ _ hh _ _ _ he ihc ihb ihl iho =>
    exact .branch ihc hh ihb ihl iho he p q₁ q₂ q₃ q₄
  | while_ p q₁ q₂ q₃ q₄ _ hh _ he ihc ihb => exact .while_ ihc hh ihb he p q₁ q₂ q₃ q₄
  | for_ p q₁ q₂ q₃ q₄ q₅ q₆ _ hh _ he ihc ihb =>
    exact .for_ _ ihc hh ihb he p q₁ q₂ q₃ q₄ q₅ q₆
  | break_ p q he => exact .break_ he p q
  | continue_ p q he => exact .continue_ he p q
  | expr _ he ih => exact .expr ih he
  | noStmts => exact .nil
  | stmts _ _ ihs ihb => exact .cons ihs ihb
  | noBranches => exact .nil
  | branches q₁ q₂ q₃ _ hh _ _ ihc ihb ihr => exact .cons ihc hh ihb ihr q₁ q₂ q₃
  | noOtherwise => exact .none
  | otherwise q hh _ ih => exact .some hh ih q

theorem Written.program {body : List Stmt} {ts : List Token}
    (h : Written false (.block false body) ts) (finish : Position) :
    ∃ ds : List Stmt, TokenStream.program ⟨ts, finish⟩ = .ok ds ∧
      Stmt.unplacedList ds = Stmt.unplacedList body := by
  have hb : ReadableBlock false body ts := h.readable
  obtain ⟨ds, hds, block⟩ := hb.reads [] [] finish (Parse.depth ⟨ts, finish⟩) (by simp) (.inl rfl)
    (by simp only [Parse.depth, List.append_nil]; omega)
  rw [List.append_nil] at block
  refine ⟨ds, ?_, hds⟩
  rw [TokenStream.program, block]
  rfl

end CanvasScript
