import CanvasScript.Proofs.Segments
import Mathlib.Data.String.Basic

namespace CanvasScript.Marker

open String (utf8Len utf8Len_append utf8Len_cons utf8Len_eq_zero)

def sliceFrom? : List Char → Nat → Option (List Char)
  | cs, 0 => some cs
  | [], _ + 1 => none
  | c :: cs, n + 1 => if c.utf8Size ≤ n + 1 then sliceFrom? cs (n + 1 - c.utf8Size) else none

def slice? (cs : List Char) (start stop : Nat) : Option (List Char) := do
  let rest ← sliceFrom? cs start
  let after ← sliceFrom? cs stop
  if start ≤ stop then some (rest.take (rest.length - after.length)) else none

def plainBetween? (cs : List Char) (start stop : Nat) : Option (List Segment) :=
  if start < stop then (slice? cs start stop).map fun t => [.text (String.ofList t)] else some []

def locate? (p : List Char → Bool) : List Char → Option Nat
  | [] => none
  | c :: cs => if p (c :: cs) then some 0 else (locate? p cs).map (· + c.utf8Size)

structure Cursors where
  plain : Nat
  search : Nat
  done : List Segment

def stopsMarker (cs : List Char) : Bool := cs.head? = some '}' || cs.head? = some '\n'

def Cursors.round? (cs : List Char) (c : Cursors) : Option (Cursors ⊕ List Segment) := do
  let ahead ← sliceFrom? cs c.search
  match locate? (['$', '{'].isPrefixOf ·) ahead with
  | none =>
    let last ← plainBetween? cs c.plain (utf8Len cs)
    return .inr (c.done ++ last)
  | some found =>
    let opening := c.search + found
    let inner := opening + 2
    let ahead ← sliceFrom? cs inner
    match locate? stopsMarker ahead with
    | none => return .inl { c with search := opening + 1 }
    | some found =>
      let closing := inner + found
      let ahead ← sliceFrom? cs closing
      let last ← ahead.head?
      if last = '}' then
        let before ← plainBetween? cs c.plain opening
        let source ← slice? cs inner closing
        return .inl ⟨closing + 1, closing + 1, c.done ++ before ++ [.expr (String.ofList source)]⟩
      else return .inl { c with search := opening + 1 }

def Cursors.scan? (cs : List Char) : Nat → Cursors → Option (List Segment)
  | 0, _ => none
  | n + 1, c =>
    match c.round? cs with
    | some (.inl c) => scan? cs n c
    | some (.inr segments) => some segments
    | none => none

section Slices

theorem sliceFrom?_append (cs ds : List Char) :
    sliceFrom? (cs ++ ds) (utf8Len cs) = some ds := by
  induction cs with
  | nil => cases ds <;> rfl
  | cons c rest ih =>
    obtain ⟨n, hn⟩ : ∃ n, utf8Len (c :: rest) = n + 1 :=
      Nat.exists_eq_add_one.2 (Nat.add_pos_right _ c.utf8Size_pos)
    have left : n + 1 - c.utf8Size = utf8Len rest := by
      rw [← hn, utf8Len_cons, Nat.add_sub_cancel]
    have fits : c.utf8Size ≤ n + 1 := by
      rw [← hn, utf8Len_cons]
      exact Nat.le_add_left _ _
    rw [List.cons_append, hn, sliceFrom?, if_pos fits, left, ih]

theorem slice?_append (cs ds es : List Char) :
    slice? (cs ++ (ds ++ es)) (utf8Len cs) (utf8Len cs + utf8Len ds) = some ds := by
  have stop : sliceFrom? (cs ++ (ds ++ es)) (utf8Len cs + utf8Len ds) = some es := by
    rw [← utf8Len_append, ← List.append_assoc, sliceFrom?_append]
  simp [slice?, sliceFrom?_append, stop]

theorem plainBetween?_append (cs ds es : List Char) :
    plainBetween? (cs ++ (ds ++ es)) (utf8Len cs) (utf8Len cs + utf8Len ds) =
      some (flush ds.reverse) := by
  rw [plainBetween?, slice?_append]
  cases ds with
  | nil => simp [flush]
  | cons d rest =>
    have more : utf8Len cs < utf8Len cs + utf8Len (d :: rest) :=
      Nat.lt_add_of_pos_right (Nat.add_pos_right _ d.utf8Size_pos)
    rw [if_pos more]
    simp [flush]

theorem locate?_eq_none {p : List Char → Bool} {cs : List Char} (h : locate? p cs = none) :
    ∀ j < cs.length, p (cs.drop j) = false := by
  induction cs with
  | nil => exact fun _ hj => nomatch hj
  | cons c rest ih =>
    rw [locate?] at h
    split at h
    · cases h
    · rename_i fails
      intro j hj
      cases j with
      | zero => exact Bool.eq_false_iff.2 fails
      | succ j => exact ih (Option.map_eq_none_iff.1 h) j (Nat.lt_of_succ_lt_succ hj)

theorem locate?_eq_some {p : List Char → Bool} {cs : List Char} {n : Nat}
    (h : locate? p cs = some n) : ∃ before after, cs = before ++ after ∧ n = utf8Len before ∧
      p after = true ∧ ∀ j < before.length, p (cs.drop j) = false := by
  induction cs generalizing n with
  | nil => cases h
  | cons c rest ih =>
    rw [locate?] at h
    split at h
    · rename_i passes
      cases h
      exact ⟨[], c :: rest, rfl, rfl, passes, fun _ hj => nomatch hj⟩
    · rename_i fails
      obtain ⟨m, hm, rfl⟩ := Option.map_eq_some_iff.1 h
      obtain ⟨before, after, rfl, rfl, passes, first⟩ := ih hm
      refine ⟨c :: before, after, rfl, ?_, passes, fun j hj => ?_⟩
      · rw [utf8Len_cons]
      · cases j with
        | zero => exact Bool.eq_false_iff.2 fails
        | succ j => exact first j (Nat.lt_of_succ_lt_succ hj)

theorem not_opens_of_isPrefixOf {cs : List Char} (h : ['$', '{'].isPrefixOf cs = false) :
    ¬ Opens cs := by
  rintro ⟨rest, rfl, -⟩
  simp at h

theorem plain_of_locate? {cs : List Char} {n : Nat} (h : locate? stopsMarker cs = some n) :
    ∃ inner last after, cs = inner ++ last :: after ∧ n = utf8Len inner ∧ Plain inner ∧
      (last = '}' ∨ last = '\n') := by
  obtain ⟨inner, after, rfl, rfl, stops, first⟩ := locate?_eq_some h
  cases after with
  | nil => simp [stopsMarker] at stops
  | cons last after =>
    refine ⟨inner, last, after, rfl, rfl, fun c hc => ?_, by simpa [stopsMarker] using stops⟩
    obtain ⟨j, hj, rfl⟩ := List.mem_iff_getElem.1 hc
    have next := first j hj
    rw [stopsMarker, List.head?_drop, List.getElem?_append_left hj] at next
    simpa [List.getElem?_eq_getElem hj] using next

theorem not_opens_of_newline {inner : List Char} (h : Plain inner) (after : List Char) :
    ¬ Opens ('$' :: '{' :: (inner ++ '\n' :: after)) := by
  rintro ⟨rest, he, brace⟩
  cases he
  rw [List.takeWhile_append_of_pos fun c hc => by simp [(h c hc).2]] at brace
  exact (h _ (by simpa using brace)).1 rfl

theorem not_opens_of_locate? {cs : List Char} (h : locate? stopsMarker cs = none) :
    ¬ Opens ('$' :: '{' :: cs) := by
  intro opens
  obtain ⟨inner, after, -, he⟩ := opens_iff.1 opens
  cases he
  have next := locate?_eq_none h inner.length (by simp)
  simp [stopsMarker] at next

end Slices

namespace Cursors

variable {cs : List Char} {segments : List Segment} {c : Cursors}
  {before gathered ahead : List Char}

structure Stands (cs : List Char) (segments : List Segment) (c : Cursors)
    (before gathered ahead : List Char) : Prop where
  text : cs = before ++ (gathered ++ ahead)
  plain : c.plain = utf8Len before
  search : c.search = utf8Len before + utf8Len gathered
  segments : segments = c.done ++ segmentsFrom 0 gathered.reverse ahead

theorem Stands.sliceFrom? (skipped rest : List Char)
    (h : Stands cs segments c before gathered (skipped ++ rest)) :
    Marker.sliceFrom? cs (c.search + utf8Len skipped) = some rest := by
  have text : cs = before ++ gathered ++ skipped ++ rest := by simp [h.text]
  rw [h.search, ← utf8Len_append, ← utf8Len_append, text, sliceFrom?_append]

theorem Stands.ends (h : Stands cs segments c before gathered ahead)
    (none : locate? (['$', '{'].isPrefixOf ·) ahead = none) :
    c.round? cs = some (.inr segments) := by
  have closed (j : Nat) : ¬ Opens (ahead.drop j) := by
    by_cases hj : j < ahead.length
    · exact not_opens_of_isPrefixOf (locate?_eq_none none j hj)
    · rw [List.drop_eq_nil_of_le (Nat.not_lt.1 hj)]
      exact not_opens_nil
  have start : Marker.sliceFrom? cs c.search = some ahead := h.sliceFrom? [] ahead
  have rest : plainBetween? cs c.plain (utf8Len cs) = some (flush (gathered ++ ahead).reverse) := by
    have part := plainBetween?_append before (gathered ++ ahead) []
    rwa [← utf8Len_append, List.append_nil, ← h.text, ← h.plain] at part
  rw [h.segments, segmentsFrom_of_not_opens closed, ← List.reverse_append, round?, start,
    Option.bind_eq_bind, Option.bind_some, none]
  dsimp only
  rw [rest]
  rfl

theorem Stands.passes {between rest : List Char}
    (h : Stands cs segments c before gathered (between ++ '$' :: '{' :: rest))
    (first : ∀ j < between.length, ¬ Opens ((between ++ '$' :: '{' :: rest).drop j))
    (closed : ¬ Opens ('$' :: '{' :: rest)) :
    Stands cs segments { c with search := c.search + utf8Len between + 1 } before
      (gathered ++ between ++ ['$']) ('{' :: rest) where
  text := by simp [h.text]
  plain := h.plain
  search := by simp [h.search, Nat.add_assoc]; rfl
  segments := by
    rw [h.segments, segmentsFrom_append first, segmentsFrom_cons closed]
    simp

theorem Stands.takes {between inner after : List Char}
    (h : Stands cs segments c before gathered (between ++ '$' :: '{' :: (inner ++ '}' :: after)))
    (first : ∀ j < between.length,
      ¬ Opens ((between ++ '$' :: '{' :: (inner ++ '}' :: after)).drop j))
    (plain : Plain inner) :
    let stop := c.search + utf8Len between + 2 + utf8Len inner + 1
    Stands cs segments
      ⟨stop, stop, c.done ++ flush (gathered ++ between).reverse ++ [.expr (String.ofList inner)]⟩
      (before ++ gathered ++ between ++ '$' :: '{' :: (inner ++ ['}'])) [] after := by
  intro stop
  have reached :
      stop = utf8Len (before ++ gathered ++ between ++ '$' :: '{' :: (inner ++ ['}'])) := by
    have sizes : '$'.utf8Size = 1 ∧ '{'.utf8Size = 1 ∧ '}'.utf8Size = 1 := by decide
    simp only [stop, h.search, utf8Len_append, utf8Len_cons, String.utf8Len_nil, sizes]
    omega
  exact {
    text := by simp [h.text]
    plain := reached
    search := reached
    segments := by
      rw [h.segments, segmentsFrom_append first, segmentsFrom_marker plain]
      simp }

theorem Stands.round? (h : Stands cs segments c before gathered ahead) :
    c.round? cs = some (.inr segments) ∨
      ∃ c' before' gathered' ahead', c.round? cs = some (.inl c') ∧
        Stands cs segments c' before' gathered' ahead' ∧ ahead'.length < ahead.length := by
  cases found : locate? (['$', '{'].isPrefixOf ·) ahead with
  | none => exact .inl (h.ends found)
  | some n =>
    right
    obtain ⟨between, rest, rfl, rfl, opens, first⟩ := locate?_eq_some found
    obtain ⟨rest, rfl⟩ : ∃ t, '$' :: '{' :: t = rest := List.isPrefixOf_iff_prefix.1 opens
    have first (j : Nat) (hj : j < between.length) :
        ¬ Opens ((between ++ '$' :: '{' :: rest).drop j) := not_opens_of_isPrefixOf (first j hj)
    have start : Marker.sliceFrom? cs c.search = some (between ++ '$' :: '{' :: rest) :=
      h.sliceFrom? [] _
    have inside : Marker.sliceFrom? cs (c.search + utf8Len between + 2) = some rest := by
      have slice := Stands.sliceFrom? (between ++ ['$', '{']) rest (by simpa)
      rwa [utf8Len_append, ← Nat.add_assoc] at slice
    rw [Cursors.round?, start, Option.bind_eq_bind, Option.bind_some, found]
    dsimp only
    rw [inside, Option.bind_some]
    cases stop : locate? stopsMarker rest with
    | none =>
      refine ⟨_, _, _, _, rfl, h.passes first (not_opens_of_locate? stop), ?_⟩
      simp only [List.length_append, List.length_cons]
      omega
    | some n =>
      obtain ⟨inner, last, after, rfl, rfl, plain, stops⟩ := plain_of_locate? stop
      have closing : Marker.sliceFrom? cs (c.search + utf8Len between + 2 + utf8Len inner) =
          some (last :: after) := by
        have slice := Stands.sliceFrom? (between ++ ['$', '{'] ++ inner) (last :: after) (by simpa)
        rwa [utf8Len_append, utf8Len_append, ← Nat.add_assoc, ← Nat.add_assoc] at slice
      simp only [closing, Option.bind_eq_bind, Option.bind_some, List.head?_cons]
      rcases stops with rfl | rfl
      · have gathering : plainBetween? cs c.plain (c.search + utf8Len between) =
            some (flush (gathered ++ between).reverse) := by
          have part := plainBetween?_append before (gathered ++ between)
            ('$' :: '{' :: (inner ++ '}' :: after))
          rwa [List.append_assoc, ← h.text, ← h.plain, utf8Len_append, h.plain, ← Nat.add_assoc,
            ← h.search, ← h.plain] at part
        have source : slice? cs (c.search + utf8Len between + 2)
            (c.search + utf8Len between + 2 + utf8Len inner) = some inner := by
          have opened : c.search + utf8Len between + 2 =
              utf8Len (before ++ gathered ++ between ++ ['$', '{']) := by
            simp only [utf8Len_append, ← h.search]
            rfl
          have text :
              cs = before ++ gathered ++ between ++ ['$', '{'] ++ (inner ++ '}' :: after) := by
            simp [h.text]
          rw [opened, text, slice?_append]
        rw [if_pos rfl, gathering, Option.bind_some, source, Option.bind_some]
        refine ⟨_, _, _, _, rfl, h.takes first plain, ?_⟩
        simp only [List.length_append, List.length_cons]
        omega
      · refine ⟨_, _, _, _, rfl, h.passes first (not_opens_of_newline plain after), ?_⟩
        simp only [List.length_append, List.length_cons]
        omega

theorem Stands.scan? {n : Nat} (h : Stands cs segments c before gathered ahead)
    (hn : ahead.length < n) : Cursors.scan? cs n c = some segments := by
  induction n generalizing c before gathered ahead with
  | zero => exact absurd hn (Nat.not_lt_zero _)
  | succ n ih =>
    rw [Cursors.scan?]
    rcases h.round? with last | ⟨c', _, _, _, next, stands, less⟩
    · rw [last]
    · rw [next]
      exact ih stands (Nat.lt_of_lt_of_le less (Nat.le_of_lt_succ hn))

end Cursors

theorem segments_exact (s : String) :
    (segments s).flatMap Segment.written = s.toList ∧
    (∀ t, .text t ∈ segments s → t ≠ "") ∧
    (segments s).IsChain (fun a b => ¬ (a.IsText ∧ b.IsText)) ∧
    (∀ source, .expr source ∈ segments s → ∀ c ∈ source.toList, c ≠ '}' ∧ c ≠ '\n') ∧
    Leftmost s.toList 0 0 (segments s) ∧
    ∀ n, s.length < n → Cursors.scan? s.toList n ⟨0, 0, []⟩ = some (segments s) := by
  have parted := segments_parted s
  refine ⟨parted.written, fun t ht => (parted.text_closed ht).1, parted.apart,
    fun source => plain_of_expr_mem, parted.leftmost [], fun n hn => ?_⟩
  have start : Cursors.Stands s.toList (segments s) ⟨0, 0, []⟩ [] [] s.toList :=
    ⟨rfl, rfl, rfl, rfl⟩
  exact start.scan? (String.length_toList ▸ hn)

end CanvasScript.Marker
