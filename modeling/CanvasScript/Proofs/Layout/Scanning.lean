import CanvasScript.Marker
import CanvasScript.Proofs.Layout.Parsing
import Mathlib.Algebra.Order.BigOperators.Group.List
import Mathlib.Algebra.Order.Ring.Nat
import Mathlib.Data.List.Nodup

namespace CanvasScript

namespace Position

def Before (p q : Position) : Prop := p.line < q.line ∨ p.line = q.line ∧ p.column < q.column

theorem Before.trans {p q r : Position} (h : p.Before q) (h' : q.Before r) : p.Before r := by
  unfold Before at *
  omega

theorem Before.ne {p q : Position} (h : p.Before q) : p ≠ q := by
  rintro rfl
  unfold Before at h
  omega

theorem before_next (p : Position) (c : Char) : p.Before (p.next c) := by
  unfold Before next
  split <;> simp

end Position

def TokenStream.places (ts : TokenStream) : List Position :=
  ts.tokens.map Token.position ++ [ts.finish]

section Order

structure Scan.From (p : Position) (s : Scan) : Prop where
  ordered : (TokenStream.mk s.tokens s.finish).places.Pairwise Position.Before
  first : ∀ q ∈ (TokenStream.mk s.tokens s.finish).places, q = p ∨ p.Before q

namespace Scan.From

variable {p q : Position} {s : Scan}

theorem earlier (h : s.From q) (hp : p.Before q) :
    ∀ r ∈ (TokenStream.mk s.tokens s.finish).places, p.Before r := by
  intro r hr
  rcases h.first r hr with rfl | hq
  · exact hp
  · exact hp.trans hq

theorem skip (h : s.From q) (hp : p.Before q) : s.From p :=
  ⟨h.ordered, fun r hr => .inr (h.earlier hp r hr)⟩

theorem token (h : s.From q) (hp : p.Before q) (l : Lexeme) :
    Scan.From p { s with tokens := ⟨l, p⟩ :: s.tokens } := by
  refine ⟨List.pairwise_cons.2 ⟨h.earlier hp, h.ordered⟩, fun r hr => ?_⟩
  rcases List.mem_cons.1 hr with rfl | hr
  · exact .inl rfl
  · exact .inr (h.earlier hp r hr)

end Scan.From

theorem scanFrom_from (skip : Nat) (p : Position) (cs : List Char) :
    (scanFrom skip p cs).From p := by
  induction cs generalizing skip p with
  | nil => exact ⟨List.pairwise_singleton _ _, fun q hq => .inl (List.mem_singleton.1 hq)⟩
  | cons c cs ih =>
    have later (n : Nat) := ih n (p.next c)
    have next := p.before_next c
    cases skip with
    | succ skip => exact (later skip).skip next
    | zero =>
      rw [scanFrom]
      split
      · exact (later 0).skip next
      · split
        · exact (later _).skip next
        · exact (later _).token next _
        · exact ⟨((later _).skip next).ordered, ((later _).skip next).first⟩

theorem TokenStream.ofSource_nodup {source : String} {p : Position} {ts : TokenStream}
    (h : ofSource source p = .ok ts) : ts.places.Nodup := by
  have ordered := (scanFrom_from 0 p source.toList).ordered
  rw [ofSource] at h
  split at h
  · cases h
    exact ordered.imp Position.Before.ne
  · cases h

end Order

section Relocation

structure Scan.Same (s t : Scan) : Prop where
  lexemes : s.tokens.map Token.lexeme = t.tokens.map Token.lexeme
  problems : s.diagnostics.map Diagnostic.problem = t.diagnostics.map Diagnostic.problem

theorem scanFrom_same (skip : Nat) (p q : Position) (cs : List Char) :
    (scanFrom skip p cs).Same (scanFrom skip q cs) := by
  induction cs generalizing skip p q with
  | nil => exact ⟨rfl, rfl⟩
  | cons c cs ih =>
    have later (n : Nat) := ih n (p.next c) (q.next c)
    cases skip with
    | succ skip => exact later skip
    | zero =>
      rw [scanFrom, scanFrom]
      split
      · exact later 0
      · split
        · exact later _
        · exact ⟨congrArg (_ :: ·) (later _).lexemes, (later _).problems⟩
        · exact ⟨(later _).lexemes, congrArg (_ :: ·) (later _).problems⟩

end Relocation

section Renaming

def Position.onto (ps qs : List Position) (p : Position) : Position :=
  match qs[ps.idxOf p]? with
  | some q => q
  | none => ⟨p.line + (qs.map Position.line).sum + 1, p.column⟩

variable {ps qs : List Position}

theorem Position.onto_injective (hl : ps.length = qs.length) (hq : qs.Nodup) :
    Function.Injective (Position.onto ps qs) := by
  -- a place that is none of `ps` goes to a line below those of `qs`
  have below (p q : Position) (h : q ∈ qs) :
      (⟨p.line + (qs.map Position.line).sum + 1, p.column⟩ : Position) ≠ q := by
    have bound := List.le_sum_of_mem (List.mem_map_of_mem (f := Position.line) h)
    rintro rfl
    simp only at bound
    omega
  intro p q h
  unfold onto at h
  cases hp' : qs[ps.idxOf p]? with
  | some a =>
    cases hq' : qs[ps.idxOf q]? with
    | some b =>
      simp only [hp', hq'] at h
      subst h
      obtain ⟨i, hi⟩ := List.getElem?_eq_some_iff.1 hp'
      obtain ⟨j, hj⟩ := List.getElem?_eq_some_iff.1 hq'
      have same := (hq.getElem_inj_iff).1 (hi.trans hj.symm)
      exact (List.idxOf_inj (List.idxOf_lt_length_iff.1 (hl ▸ i))).1 same
    | none =>
      simp only [hp', hq'] at h
      exact absurd h.symm (below q a (List.mem_of_getElem? hp'))
  | none =>
    cases hq' : qs[ps.idxOf q]? with
    | some b =>
      simp only [hp', hq'] at h
      exact absurd h (below p b (List.mem_of_getElem? hq'))
    | none =>
      simp only [hp', hq', Position.mk.injEq] at h
      obtain ⟨line, column⟩ := p
      obtain ⟨line', column'⟩ := q
      simp only [Position.mk.injEq] at *
      omega

theorem Position.map_onto (hl : ps.length = qs.length) (hp : ps.Nodup) :
    ps.map (Position.onto ps qs) = qs := by
  refine List.ext_getElem (by simpa using hl) fun i hi hi' => ?_
  rw [List.length_map] at hi
  rw [List.getElem_map, onto, hp.idxOf_getElem i hi, List.getElem?_eq_getElem hi']

theorem Token.list_ext {ts us : List Token} (hl : ts.map Token.lexeme = us.map Token.lexeme)
    (hp : ts.map Token.position = us.map Token.position) : ts = us := by
  induction ts generalizing us with
  | nil =>
    cases us with
    | nil => rfl
    | cons u us => cases hl
  | cons t ts ih =>
    cases us with
    | nil => cases hl
    | cons u us =>
      simp only [List.map_cons, List.cons.injEq] at hl hp
      obtain ⟨lexeme, position⟩ := t
      obtain ⟨rfl, hl⟩ := hl
      obtain ⟨rfl, hp⟩ := hp
      rw [ih hl hp]

theorem TokenStream.eq_moved {ts us : TokenStream} {τ : Position → Position}
    (hl : ts.tokens.map Token.lexeme = us.tokens.map Token.lexeme)
    (hp : ts.places.map τ = us.places) : us = ts.moved τ := by
  obtain ⟨tokens, finish⟩ := ts
  obtain ⟨tokens', finish'⟩ := us
  simp only [places, List.map_append, List.map_map] at hl hp
  obtain ⟨positions, last⟩ := List.append_inj' hp rfl
  have same : tokens' = tokens.map (Token.moved τ) := by
    apply Token.list_ext
    · rw [List.map_map, ← hl]
      rfl
    · rw [List.map_map, ← positions]
      rfl
  rw [same, ← List.singleton_inj.1 last]
  rfl

theorem TokenStream.exists_moved {ts us : TokenStream} (ht : ts.places.Nodup)
    (hu : us.places.Nodup) (h : ts.tokens.map Token.lexeme = us.tokens.map Token.lexeme) :
    ∃ τ : Position → Position, Function.Injective τ ∧ us = ts.moved τ := by
  have length : ts.tokens.length = us.tokens.length := by simpa using congrArg List.length h
  have hl : ts.places.length = us.places.length := by simpa [places] using length
  exact ⟨.onto ts.places us.places, Position.onto_injective hl hu,
    eq_moved h (Position.map_onto hl ht)⟩

end Renaming

section Markers

theorem TokenStream.ofSource_same (source : String) (p q : Position) :
    (∃ (ts : TokenStream) (τ : Position → Position),
      ofSource source p = .ok ts ∧ ofSource source q = .ok (ts.moved τ)) ∨
    ∃ ds es, ofSource source p = .error ds ∧ ofSource source q = .error es ∧
      ds.map Diagnostic.problem = es.map Diagnostic.problem := by
  have same := scanFrom_same 0 p q source.toList
  have empty : (scanFrom 0 p source.toList).diagnostics.isEmpty =
      (scanFrom 0 q source.toList).diagnostics.isEmpty := by
    rw [← List.isEmpty_map (f := Diagnostic.problem), same.problems, List.isEmpty_map]
  by_cases h : (scanFrom 0 q source.toList).diagnostics.isEmpty
  · have accepted (r : Position) (hr : (scanFrom 0 r source.toList).diagnostics.isEmpty) :
        ofSource source r =
          .ok ⟨(scanFrom 0 r source.toList).tokens, (scanFrom 0 r source.toList).finish⟩ := by
      rw [ofSource, if_pos hr]
    have atP := accepted p (empty.trans h)
    have atQ := accepted q h
    obtain ⟨τ, -, hτ⟩ := exists_moved (ofSource_nodup atP) (ofSource_nodup atQ) same.lexemes
    exact .inl ⟨_, τ, atP, hτ ▸ atQ⟩
  · refine .inr ⟨_, _, ?_, ?_, same.problems⟩
    · rw [ofSource, if_neg (empty ▸ h)]
    · rw [ofSource, if_neg h]

theorem Marker.parse_same (source : String) (p q : Position) :
    (∃ (e : Expr) (τ : Position → Position),
      parse source p = .ok e ∧ parse source q = .ok (e.moved τ)) ∨
    ∃ ds es, parse source p = .error ds ∧ parse source q = .error es ∧
      ds.map Diagnostic.unplaced = es.map Diagnostic.unplaced := by
  rw [parse, parse]
  rcases TokenStream.ofSource_same source p q with ⟨ts, τ, atP, atQ⟩ | ⟨ds, es, atP, atQ, same⟩
  · rw [atP, atQ, Parse.ok_bind, Parse.ok_bind, TokenStream.expression_moved]
    cases ts.expression with
    | ok e => exact .inl ⟨e, τ, rfl, rfl⟩
    | error d =>
      exact .inr ⟨[d], [d.moved τ], rfl, rfl, congrArg ([·]) (Diagnostic.unplaced_moved τ d).symm⟩
  · refine .inr ⟨ds, es, by rw [atP]; rfl, by rw [atQ]; rfl, ?_⟩
    have unplaced := congrArg (List.map fun problem => Diagnostic.mk problem.unplaced .start) same
    rw [List.map_map, List.map_map] at unplaced
    exact unplaced

end Markers

end CanvasScript
