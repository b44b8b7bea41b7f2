import CanvasScript.Proofs.Pieces

namespace CanvasScript

namespace Position

def counted (p : Position) (text : List Char) : Position where
  line := p.line + text.count '\n'
  column :=
    if '\n' ∈ text then 1 + (text.reverse.takeWhile (· ≠ '\n')).length
    else p.column + text.length

theorem after_eq_counted (p : Position) (text : List Char) : p.after text = p.counted text := by
  induction text using List.reverseRecOn with
  | nil => simp [after, counted]
  | append_singleton text c ih =>
    rw [after_append, ih]
    by_cases hc : c = '\n'
    · subst hc
      simp [after, next, counted, Nat.add_assoc]
    · by_cases hn : '\n' ∈ text
      · simp [after, next, counted, hc, hn, Nat.add_assoc]
      · simp [after, next, counted, hc, hn, Ne.symm hc, Nat.add_assoc]

example : counted ⟨4, 10⟩ "'a\n  b' ".toList = ⟨5, 6⟩ := by decide

theorem before_after (p : Position) {text : List Char} (h : text ≠ []) :
    p.Before (p.after text) := by
  cases text with
  | nil => exact absurd rfl h
  | cons c text =>
    rw [after_cons]
    clear h
    induction text generalizing p c with
    | nil => exact p.before_next c
    | cons d text ih => exact (p.before_next c).trans (ih (p.next c) d)

end Position

theorem map_filterMap_sublist {α β γ : Type} {f : α → Option β} {g : β → γ} {place : α → γ}
    (h : ∀ a b, f a = some b → g b = place a) (as : List α) :
    ((as.filterMap f).map g).Sublist (as.map place) := by
  induction as with
  | nil => exact .slnil
  | cons a as ih =>
    rw [List.filterMap_cons, List.map_cons]
    cases hf : f a with
    | none => exact ih.cons _
    | some b =>
      rw [List.map_cons, h a b hf]
      exact ih.cons_cons _

namespace Piece

variable {place : Position} {q : Piece}

theorem position_token {t : Token} (h : q.token? place = some t) : t.position = place := by
  unfold token? at h
  split at h <;> cases h
  rfl

theorem position_diagnostic {d : Diagnostic} (h : q.diagnostic? place = some d) :
    d.position = place := by
  unfold diagnostic? at h
  split at h <;> cases h
  rfl

end Piece

namespace Divided

variable {before cs : List Char} {pieces : List Piece}

theorem places_ordered (h : Divided before cs pieces) (p : Position) :
    (pieces.map (fun q => p.after q.before) ++ [p.after (before ++ cs)]).Pairwise
      Position.Before := by
  refine List.pairwise_append.2 ⟨?_, List.pairwise_singleton _ _, ?_⟩
  · refine List.pairwise_map.2 (h.inOrder.imp fun {q r} later => ?_)
    obtain ⟨passed, some, same⟩ := later
    rw [same, Position.after_append]
    exact (p.after q.before).before_after some
  · intro x hx y hy
    obtain ⟨q, hq, rfl⟩ := List.mem_map.1 hx
    obtain rfl := List.mem_singleton.1 hy
    obtain ⟨passed, more, -, text⟩ := h.stands q hq
    rw [text, Position.after_append]
    exact (p.after q.before).before_after (List.cons_ne_nil _ _)

end Divided

theorem places_counted (source : String) :
    ∃ pieces, Divided [] source.toList pieces ∧ ∀ p : Position,
      (∀ ts, TokenStream.ofSource source p = .ok ts →
        ts.tokens = (pieces.filterMap fun q => q.token? (p.counted q.before)) ∧
        ts.finish = p.counted source.toList ∧ ts.places.Pairwise Position.Before ∧
        ∃ us, TokenStream.ofSource source .start = .ok us ∧
          ts.tokens.map Token.lexeme = us.tokens.map Token.lexeme) ∧
      ∀ ds, TokenStream.ofSource source p = .error ds →
        ds = (pieces.filterMap fun q => q.diagnostic? (p.counted q.before)) ∧
        (ds.map Diagnostic.position ++ [p.counted source.toList]).Pairwise Position.Before ∧
        ∃ es, TokenStream.ofSource source .start = .error es ∧
          ds.map Diagnostic.problem = es.map Diagnostic.problem := by
  obtain ⟨pieces, divided⟩ := Divided.exists_pieces [] source.toList
  refine ⟨pieces, divided, fun p => ?_⟩
  have scanned := TokenStream.ofSource_divided divided p
  have ordered := divided.places_ordered p
  simp only [Position.after_eq_counted, List.nil_append] at scanned ordered
  constructor
  · intro ts h
    rcases TokenStream.ofSource_same source p .start with ⟨us, τ, atP, start⟩ | ⟨ds, es, atP, -, -⟩
    · have same : ts = us := Except.ok.inj (h.symm.trans atP)
      subst same
      rw [scanned] at h
      split at h
      · cases h
        refine ⟨rfl, rfl, ordered.sublist ?_, _, start, ?_⟩
        · exact (map_filterMap_sublist (fun _ _ => Piece.position_token) pieces).append_right _
        · simp [TokenStream.moved, Token.moved]
      · cases h
    · cases h.symm.trans atP
  · intro ds h
    rcases TokenStream.ofSource_same source p .start with
      ⟨us, τ, atP, -⟩ | ⟨ds', es, atP, start, same⟩
    · cases h.symm.trans atP
    · cases h.symm.trans atP
      rw [scanned] at h
      split at h
      · cases h
      · cases h
        refine ⟨rfl, ordered.sublist ?_, es, start, same⟩
        exact (map_filterMap_sublist (fun _ _ => Piece.position_diagnostic) pieces).append_right _

end CanvasScript
