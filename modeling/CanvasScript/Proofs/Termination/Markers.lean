import CanvasScript.Marker
import CanvasScript.Proofs.Grammar.Soundness

namespace CanvasScript

inductive Expr.Quiet : Expr → Prop
  | intro {e : Expr} : (∀ d ∈ e.parts, Quiet d) →
      (∀ s p, e = .literal (.text s) p → '}' ∉ s.toList) → Quiet e

def Lexeme.Quiet : Lexeme → Prop
  | text s => '}' ∉ s.toList
  | _ => True

namespace ScanItem

def Quiet : ScanItem → Prop
  | lexeme l => l.Quiet
  | _ => True

theorem eq_of_unescape_eq {c : Char} (h : unescape c = '}') : c = '}' := by
  unfold unescape at h
  split at h
  · cases h
  · cases h
  · cases h
  · exact h

theorem readText_quiet {quote : Char} {cs : List Char} (h : '}' ∉ cs) :
    '}' ∉ (readText quote cs).1 := by
  fun_induction readText quote cs with
  | case1 | case2 | case3 => exact List.not_mem_nil
  | case4 e rest text n hr hq ih =>
    simp only [List.mem_cons, not_or, hr] at h ih ⊢
    exact ⟨fun he => h.2.1 (eq_of_unescape_eq he.symm).symm, ih h.2.2⟩
  | case5 c rest hq hb text n hr ih =>
    simp only [List.mem_cons, not_or, hr] at h ih ⊢
    exact ⟨h.1, ih h.2⟩

theorem pair_quiet {alone : ScanItem × Nat} (h : alone.1.Quiet) (rest : List Char) (second : Char)
    (both : Sign) : (pair rest second both alone).1.Quiet := by
  unfold pair
  split
  · trivial
  · exact h

theorem ofWord_quiet (s : String) : (Lexeme.ofWord s).Quiet := by
  unfold Lexeme.ofWord
  split <;> trivial

theorem ofChars_quiet {c : Char} {rest : List Char} (h : '}' ∉ rest) :
    (ofChars c rest).1.Quiet := by
  unfold ofChars
  split
  case h_23 =>
    split
    · have text : '}' ∉ (readText c rest).1 := readText_quiet h
      simpa [Quiet, Lexeme.Quiet] using text
    · split
      · trivial
      · split
        · exact ofWord_quiet _
        · trivial
  -- the signs: one that stands alone, or one of two or three that begin alike
  all_goals first
    | trivial
    | exact pair_quiet (by trivial) ..
    | exact pair_quiet (pair_quiet (by trivial) ..) ..

end ScanItem

theorem scanFrom_quiet {cs : List Char} (h : '}' ∉ cs) (skip : Nat) (p : Position) :
    ∀ t ∈ (scanFrom skip p cs).tokens, t.lexeme.Quiet := by
  induction cs generalizing skip p with
  | nil => exact List.forall_mem_nil _
  | cons c rest ih =>
    rw [List.mem_cons, not_or] at h
    cases skip with
    | succ skip => exact ih h.2 skip _
    | zero =>
      simp only [scanFrom]
      split
      · exact ih h.2 _ _
      · have item := ScanItem.ofChars_quiet (c := c) h.2
        split <;> rename_i hi <;> rw [hi] at item
        · exact ih h.2 _ _
        · exact List.forall_mem_cons.2 ⟨item, ih h.2 _ _⟩
        · exact ih h.2 _ _

def Phrase.Quiet : Phrase → Prop
  | .expr _ e => e.Quiet
  | .items es => ∀ e ∈ es, e.Quiet
  | .properties ps => ∀ p ∈ ps, p.2.Quiet
  | _ => True

theorem Expr.Quiet.parts {e : Expr} (h : e.Quiet) : ∀ d ∈ e.parts, d.Quiet := by
  cases h with
  | intro h _ => exact h

theorem Written.quiet {lax : Bool} {phrase : Phrase} {ts : List Token} (h : Written lax phrase ts)
    (hq : ∀ t ∈ ts, t.lexeme.Quiet) : phrase.Quiet := by
  induction h with
  | literal l p q =>
    refine .intro (by simp [Expr.parts]) fun s _ he => ?_
    cases he
    exact hq _ List.mem_cons_self
  | name | dollarName | update => exact .intro (by simp [Expr.parts]) (by simp)
  | assign _ _ _ ht _ _ ihl ihv | compound _ _ _ _ ht _ _ ihl ihv =>
    rw [List.forall_mem_append, List.forall_mem_cons] at hq
    refine .intro (fun d hd => ?_) (by simp)
    rcases List.mem_append.1 hd with hd | hd
    · exact (ihl hq.1).parts d (Expr.parts_of_target? ht ▸ hd)
    · exact List.mem_singleton.1 hd ▸ ihv hq.2.2
  | unary _ _ _ _ _ ih =>
    exact .intro (List.forall_mem_singleton.2 (ih (List.forall_mem_cons.1 hq).2)) (by simp)
  | binary _ _ _ _ _ _ ihl ihr =>
    rw [List.forall_mem_append, List.forall_mem_cons] at hq
    exact .intro (List.forall_mem_cons.2 ⟨ihl hq.1, List.forall_mem_singleton.2 (ihr hq.2.2)⟩)
      (by simp)
  | call _ _ _ _ _ ihc iha =>
    rw [List.forall_mem_append, List.forall_mem_append, List.forall_mem_cons] at hq
    exact .intro (List.forall_mem_cons.2 ⟨ihc hq.1.1, iha hq.1.2.2⟩) (by simp)
  | member _ _ _ _ _ ih =>
    exact .intro (List.forall_mem_singleton.2 (ih (List.forall_mem_append.1 hq).1)) (by simp)
  | index _ _ _ _ _ iho ihi =>
    rw [List.forall_mem_append, List.forall_mem_append, List.forall_mem_cons] at hq
    exact .intro (List.forall_mem_cons.2 ⟨iho hq.1.1, List.forall_mem_singleton.2 (ihi hq.1.2.2)⟩)
      (by simp)
  | array _ _ _ _ ih =>
    rw [List.forall_mem_append, List.forall_mem_cons] at hq
    exact .intro (ih hq.1.2) (by simp)
  | object _ _ _ _ ih =>
    rw [List.forall_mem_append, List.forall_mem_cons] at hq
    refine .intro (fun d hd => ?_) (by simp)
    obtain ⟨p, hp, rfl⟩ := List.mem_map.1 hd
    exact ih hq.1.2 p (Fields.mem_of_mem_ofList hp)
  | paren _ _ _ _ ih =>
    rw [List.forall_mem_append, List.forall_mem_cons] at hq
    exact ih hq.1.2
  | noItems | noProperties => exact List.forall_mem_nil _
  | lastItem _ ih => exact List.forall_mem_singleton.2 (ih hq)
  | item _ _ _ ih ihs =>
    rw [List.forall_mem_append, List.forall_mem_cons] at hq
    exact List.forall_mem_cons.2 ⟨ih hq.1, ihs hq.2.2⟩
  | lastProperty _ _ _ _ ih =>
    rw [List.forall_mem_cons, List.forall_mem_cons] at hq
    exact List.forall_mem_singleton.2 (ih hq.2.2)
  | property _ _ _ _ _ _ ih ihs =>
    rw [List.forall_mem_append, List.forall_mem_cons, List.forall_mem_cons,
      List.forall_mem_cons] at hq
    exact List.forall_mem_cons.2 ⟨ih hq.1.2.2, ihs hq.2.2⟩
  | _ => trivial

theorem TokenStream.expression_quiet {ts : TokenStream} {e : Expr} (h : ts.expression = .ok e)
    (hq : ∀ t ∈ ts.tokens, t.lexeme.Quiet) : e.Quiet := by
  obtain ⟨r, he, rfl⟩ := Parse.ok_of_map h
  obtain ⟨cs, hcs, hw⟩ := (Parse.soundExpr _).expr he
  exact hw.quiet fun t ht => hq t (hcs ▸ List.mem_append_left _ ht)

namespace Marker

theorem parse_quiet {source : String} {p : Position} {e : Expr} (h : parse source p = .ok e)
    (hq : '}' ∉ source.toList) : e.Quiet := by
  obtain ⟨ts, ht, h⟩ := Parse.ok_of_bind h
  have tokens : ∀ t ∈ ts.tokens, t.lexeme.Quiet := by
    unfold TokenStream.ofSource at ht
    dsimp only at ht
    split at ht <;> cases ht
    exact scanFrom_quiet hq 0 p
  exact TokenStream.expression_quiet (Parse.ok_of_mapError h) tokens

theorem plain_of_body? {rest inner : List Char} (h : body? rest = some inner) :
    ∀ c ∈ inner, c ≠ '}' ∧ c ≠ '\n' := by
  unfold body? at h
  split at h
  · dsimp only at h
    split at h <;> cases h
    intro c hm
    simpa using List.all_eq_true.1 List.all_takeWhile c hm
  · cases h

theorem body?_eq_none {rest : List Char} (h : '}' ∉ rest) : body? rest = none := by
  unfold body?
  split
  · rename_i rest
    refine if_neg fun hd => h (List.mem_cons_of_mem _ ?_)
    exact List.mem_of_mem_drop (List.mem_of_mem_head? hd)
  · rfl

theorem not_mem_flush (source : String) (gathered : List Char) :
    .expr source ∉ flush gathered := by
  unfold flush
  split <;> simp

theorem plain_of_expr_mem {source : String} {skip : Nat} {gathered cs : List Char}
    (h : .expr source ∈ segmentsFrom skip gathered cs) :
    ∀ c ∈ source.toList, c ≠ '}' ∧ c ≠ '\n' := by
  induction cs generalizing skip gathered with
  | nil => exact absurd h (not_mem_flush source gathered)
  | cons c rest ih =>
    cases skip with
    | succ skip => exact ih h
    | zero =>
      simp only [segmentsFrom] at h
      split at h
      · rename_i inner hb
        rcases List.mem_append.1 h with h | h
        · exact absurd h (not_mem_flush source gathered)
        · rcases List.mem_cons.1 h with he | h
          · cases he
            split at hb
            · rw [String.toList_ofList]
              exact plain_of_body? hb
            · cases hb
          · exact ih h
      · exact ih h

theorem not_mem_of_expr_mem {source : String} {skip : Nat} {gathered cs : List Char}
    (h : .expr source ∈ segmentsFrom skip gathered cs) : '}' ∉ source.toList :=
  fun hm => (plain_of_expr_mem h _ hm).1 rfl

theorem segmentsFrom_quiet {gathered cs : List Char} (h : '}' ∉ cs) :
    segmentsFrom 0 gathered cs = flush (cs.reverse ++ gathered) := by
  induction cs generalizing gathered with
  | nil => rfl
  | cons c rest ih =>
    rw [List.mem_cons, not_or] at h
    rw [segmentsFrom, body?_eq_none h.2, ite_self]
    simp [ih h.2]

end Marker

end CanvasScript
