import CanvasScript.Proofs.Pieces.Places

namespace CanvasScript

def blanked (places : List Position) (p : Position) : List Char → List Char
  | [] => []
  | c :: cs => (if p ∈ places then ' ' else c) :: blanked places (p.next c) cs

example : blanked [⟨1, 2⟩, ⟨2, 1⟩] .start "a%\n!b".toList = "a \n b".toList := by decide

section Blanked

variable {places : List Position} {p : Position}

theorem blanked_append (s t : List Char) :
    blanked places p (s ++ t) = blanked places p s ++ blanked places (p.after s) t := by
  induction s generalizing p with
  | nil => rfl
  | cons c s ih =>
    rw [List.cons_append, blanked, blanked, ih, Position.after_cons, List.cons_append]

theorem blanked_apart {text : List Char}
    (h : ∀ q ∈ places, q.Before p ∨ ¬q.Before (p.after text)) : blanked places p text = text := by
  induction text generalizing p with
  | nil => rfl
  | cons c text ih =>
    have kept : p ∉ places := by
      intro hp
      rcases h p hp with before | inside
      · exact before.ne rfl
      · exact inside (p.before_after (List.cons_ne_nil c text))
    rw [blanked, if_neg kept]
    refine congrArg (c :: ·) (ih fun q hq => ?_)
    exact (h q hq).imp_left fun before => before.trans (p.before_next c)

end Blanked

def StartsLike (rest rest' : List Char) : Prop :=
  rest'.head? = rest.head? ∨ rest'.head? = some ' ' ∧ ∃ c, rest.head? = some c ∧ c ≠ '\n'

namespace StartsLike

variable {rest rest' word : List Char}

theorem head?_ne {second : Char} (h : StartsLike rest rest') (hs : second ≠ ' ')
    (hr : rest.head? ≠ some second) : rest'.head? ≠ some second := by
  rcases h with same | ⟨space, -⟩
  · rwa [same]
  · rw [space]
    intro he
    exact hs (Option.some.inj he).symm

theorem eq_nil (h : StartsLike [] rest') : rest' = [] := by
  rcases h with same | ⟨-, c, none, -⟩
  · exact List.head?_eq_none_iff.1 same
  · cases none

variable {f : Char → Bool}

theorem takeWhile_nil (h : StartsLike rest rest') (hf : f ' ' = true → ∀ c ≠ '\n', f c = true)
    (stops : rest.takeWhile f = []) : rest'.takeWhile f = [] := by
  have first (c : Char) (head : rest.head? = some c) : ¬f c = true := by
    intro hc
    obtain ⟨rest, rfl⟩ := List.head?_eq_some_iff.1 head
    rw [List.takeWhile_cons_of_pos hc] at stops
    cases stops
  cases rest' with
  | nil => rfl
  | cons d rest' =>
    refine List.takeWhile_cons_of_neg ?_
    rcases h with same | ⟨space, c, head, hc⟩
    · exact first d same.symm
    · cases space
      exact fun hd => first c head (hf hd c hc)

theorem takeWhile_append (h : StartsLike rest rest')
    (hf : f ' ' = true → ∀ c ≠ '\n', f c = true)
    (run : ((word ++ rest).takeWhile f).length = word.length) :
    (word ++ rest).takeWhile f = word ∧ (word ++ rest').takeWhile f = word := by
  induction word with
  | nil =>
    have stops := List.length_eq_zero_iff.1 run
    exact ⟨stops, h.takeWhile_nil hf stops⟩
  | cons c word ih =>
    by_cases hc : f c = true
    · rw [List.cons_append, List.takeWhile_cons_of_pos hc] at run
      rw [List.cons_append, List.takeWhile_cons_of_pos hc, List.cons_append,
        List.takeWhile_cons_of_pos hc]
      exact (ih (Nat.succ.inj run)).imp (congrArg (c :: ·)) (congrArg (c :: ·))
    · rw [List.cons_append, List.takeWhile_cons_of_neg hc] at run
      cases run

end StartsLike

namespace ScanItem

variable {c : Char} {rest rest' word : List Char} {item : ScanItem}

theorem pair_like {second : Char} {both : Sign} {alone alone' : ScanItem × Nat}
    (like : StartsLike rest rest') (hs : second ≠ ' ')
    (h : pair (word ++ rest) second both alone = (item, word.length))
    (ha : alone = (item, word.length) → alone' = (item, word.length)) :
    pair (word ++ rest') second both alone' = (item, word.length) := by
  unfold pair at h ⊢
  split at h
  · rename_i head
    obtain ⟨rfl, length⟩ := Prod.mk.inj h
    cases word with
    | nil => cases length
    | cons d word =>
      rw [List.cons_append, List.head?_cons] at head ⊢
      rw [if_pos head, ← length]
  · rename_i head
    have ne : (word ++ rest').head? ≠ some second := by
      cases word with
      | nil => exact like.head?_ne hs head
      | cons d word => exact head
    rw [if_neg ne]
    exact ha h

theorem run_like {f : Char → Bool} {make : List Char → Lexeme} (like : StartsLike rest rest')
    (hf : f ' ' = false) (h : run c (word ++ rest) f make = (item, word.length)) :
    run c (word ++ rest') f make = (item, word.length) := by
  obtain ⟨rfl, length⟩ := Prod.mk.inj h
  have noSpace : f ' ' = true → ∀ c ≠ '\n', f c = true := by
    intro space
    cases hf.symm.trans space
  obtain ⟨left, right⟩ := like.takeWhile_append noSpace length
  simp only [run, left, right]

theorem readText_closed {quote : Char} {text : List Char}
    (h : readText quote (word ++ rest) = (text, word.length)) (rest' : List Char) :
    rest = [] ∨ readText quote (word ++ rest') = (text, word.length) := by
  induction hn : word.length using Nat.strong_induction_on generalizing word text with
  | _ n ih =>
    subst hn
    cases word with
    | nil =>
      cases rest with
      | nil => exact .inl rfl
      | cons c rest =>
        rw [List.nil_append, readText.eq_def] at h
        dsimp only at h
        split at h
        · cases h
        · split at h
          · split at h <;> cases h
          · cases h
    | cons c word =>
      by_cases hq : c = quote
      · subst hq
        rw [List.cons_append, readText_quote] at h
        obtain ⟨rfl, length⟩ := Prod.mk.inj h
        rw [List.cons_append, readText_quote, ← length]
        exact .inr rfl
      · by_cases hb : c = '\\'
        · subst hb
          cases word with
          | nil =>
            cases rest with
            | nil => exact .inl rfl
            | cons e rest =>
              rw [List.cons_append, List.nil_append, readText_backslash hq] at h
              cases (Prod.mk.inj h).2
          | cons e word =>
            rw [List.cons_append, List.cons_append, readText_backslash hq] at h
            obtain ⟨rfl, length⟩ := Prod.mk.inj h
            have shorter : word.length < ('\\' :: e :: word).length :=
              Nat.lt_succ_of_lt (Nat.lt_succ_self _)
            refine (ih _ shorter (Prod.ext rfl (Nat.add_right_cancel length)) rfl).imp_right ?_
            intro same
            rw [List.cons_append, List.cons_append, readText_backslash hq, same]
            rfl
        · rw [List.cons_append, readText_plain hq hb] at h
          obtain ⟨rfl, length⟩ := Prod.mk.inj h
          refine (ih _ (Nat.lt_succ_self _) (Prod.ext rfl (Nat.succ.inj length)) rfl).imp_right ?_
          intro same
          rw [List.cons_append, readText_plain hq hb, same]
          rfl

theorem ofChars_like (like : StartsLike rest rest')
    (h : ofChars c (word ++ rest) = (item, word.length)) :
    ofChars c (word ++ rest') = (item, word.length) := by
  unfold ofChars at h ⊢
  split at h
  case h_1 =>
    obtain ⟨rfl, length⟩ := Prod.mk.inj h
    obtain ⟨-, right⟩ := like.takeWhile_append (by simp) length
    simp only [right]
  case h_2 | h_3 => exact pair_like like (by decide) h fun h => pair_like like (by decide) h id
  case h_4 | h_5 | h_6 | h_7 | h_8 | h_9 | h_10 | h_11 => exact pair_like like (by decide) h id
  case h_23 =>
    split at h
    · rename_i hq
      obtain ⟨rfl, length⟩ := Prod.mk.inj h
      rw [if_pos hq]
      rcases readText_closed (Prod.ext rfl length) rest' with rfl | same
      · rw [like.eq_nil]
        exact h
      · simp only [same]
    · rename_i hq
      rw [if_neg hq]
      split at h
      · rename_i hd
        rw [if_pos hd]
        exact run_like like (by decide) h
      · rename_i hd
        rw [if_neg hd]
        split at h
        · rename_i hw
          rw [if_pos hw]
          exact run_like like (by decide) h
        · rename_i hw
          rw [if_neg hw]
          exact h
  all_goals exact h

end ScanItem

def Faulty (places : List Position) (p : Position) (before : List Char)
    (pieces : List Piece) : Prop :=
  ∀ q ∈ places, q.Before (p.after before) ∨
    ∃ piece ∈ pieces, piece.item = .unexpected ∧ q = p.after piece.before

theorem Faulty.next {places : List Position} {p : Position} {before word : List Char} {c : Char}
    {pieces others : List Piece} (faulty : Faulty places p before pieces)
    (h : ∀ q ∈ pieces, q ∈ others ∨ q.before = before) :
    Faulty places p (before ++ c :: word) others := by
  have passed : (p.after before).Before (p.after (before ++ c :: word)) := by
    rw [Position.after_append]
    exact (p.after before).before_after (List.cons_ne_nil c word)
  intro q hq
  rcases faulty q hq with behind | ⟨piece, hm, unexpected, rfl⟩
  · exact .inl (behind.trans passed)
  · rcases h piece hm with left | here
    · exact .inr ⟨piece, left, unexpected, rfl⟩
    · exact .inl (here ▸ passed)

namespace Divided

variable {before cs : List Char} {pieces : List Piece} {places : List Position} {p : Position}

theorem later (h : Divided before cs pieces) : ∀ piece ∈ pieces,
    ¬(p.after piece.before).Before (p.after before) := by
  intro piece hp behind
  obtain ⟨passed, -, same, -⟩ := h.stands piece hp
  rw [same, Position.after_append] at behind
  cases passed with
  | nil => exact behind.ne rfl
  | cons c passed =>
    exact (behind.trans ((p.after before).before_after (List.cons_ne_nil c passed))).ne rfl

theorem unexpected_of_mem (h : Divided before cs pieces) (faulty : Faulty places p before pieces)
    (hp : p.after before ∈ places) : ∃ c rest others, cs = c :: rest ∧
      Text.isBlank c = false ∧ pieces = ⟨before, c, .unexpected⟩ :: others ∧
      Divided (before ++ [c]) rest others := by
  obtain ⟨piece, hm, unexpected, place⟩ :=
    (faulty _ hp).resolve_left fun behind => behind.ne rfl
  have passed {c : Char} {word : List Char} :
      (p.after before).Before (p.after (before ++ c :: word)) := by
    rw [Position.after_append]
    exact (p.after before).before_after (List.cons_ne_nil c word)
  cases h with
  | done => cases hm
  | blank hb divided => exact absurd (place ▸ passed) (divided.later piece hm)
  | @piece _ word rest c item others hb hi divided =>
    rcases List.mem_cons.1 hm with rfl | hm
    · obtain rfl : word = [] := by
        obtain rfl : item = .unexpected := unexpected
        exact List.length_eq_zero_iff.1 (ScanItem.ofChars_unexpected hi)
      exact ⟨c, rest, others, rfl, hb, by rw [← unexpected], divided⟩
    · exact absurd (place ▸ passed) (divided.later piece hm)

theorem startsLike_blanked (h : Divided before cs pieces) (faulty : Faulty places p before pieces) :
    StartsLike cs (blanked places (p.after before) cs) := by
  cases cs with
  | nil => exact .inl rfl
  | cons c rest =>
    by_cases hp : p.after before ∈ places
    · obtain ⟨c', rest', others, same, hb, -, -⟩ := h.unexpected_of_mem faulty hp
      obtain ⟨rfl, -⟩ := List.cons.inj same
      refine .inr ⟨by rw [blanked, if_pos hp]; rfl, c, rfl, ?_⟩
      rintro rfl
      exact absurd hb (by decide)
    · exact .inl (by rw [blanked, if_neg hp]; rfl)

theorem blanked_piece {c : Char} {word rest : List Char} {item : ScanItem}
    (divided : Divided (before ++ c :: word) rest pieces)
    (faulty : Faulty places p before (⟨before, c, item⟩ :: pieces))
    (hp : p.after before ∉ places) :
    blanked places (p.after before) (c :: (word ++ rest)) =
      c :: (word ++ blanked places (p.after (before ++ c :: word)) rest) := by
  have apart : blanked places (p.after before) (c :: word) = c :: word := by
    refine blanked_apart fun q hq => (faulty q hq).imp_right ?_
    rintro ⟨piece, hm, -, rfl⟩
    rw [← Position.after_append]
    rcases List.mem_cons.1 hm with rfl | hm
    · exact absurd hq hp
    · exact divided.later piece hm
  rw [← List.cons_append, blanked_append, apart, Position.after_append, List.cons_append]

theorem exists_blanked (h : Divided before cs pieces) (faulty : Faulty places p before pieces)
    {before' : List Char} (same : p.after before' = p.after before) :
    ∃ pieces', Divided before' (blanked places (p.after before) cs) pieces' ∧
      (pieces'.filterMap fun q => q.diagnostic? (p.after q.before)) =
        (pieces.filterMap fun q => q.diagnostic? (p.after q.before)).filter
          (·.position ∉ places) := by
  induction h generalizing before' with
  | done => exact ⟨[], .done, rfl⟩
  | @blank before rest c pieces hb divided ih =>
    have kept : p.after before ∉ places := by
      intro hp
      obtain ⟨c', rest', others, same, hn, -, -⟩ :=
        (Divided.blank hb divided).unexpected_of_mem faulty hp
      obtain ⟨rfl, -⟩ := List.cons.inj same
      exact absurd (hb.symm.trans hn) nofun
    have next : p.after (before' ++ [c]) = p.after (before ++ [c]) := by
      rw [Position.after_append, same, Position.after_append]
    obtain ⟨pieces', divided', problems⟩ := ih (faulty.next fun q hq => .inl hq) next
    refine ⟨pieces', ?_, problems⟩
    rw [Position.after_append] at divided'
    rw [blanked, if_neg kept]
    exact .blank hb divided'
  | @piece before word rest c item pieces hb hi divided ih =>
    have whole := Divided.piece hb hi divided
    have behind : Faulty places p (before ++ c :: word) pieces := faulty.next fun q hq =>
      (List.mem_cons.1 hq).symm.imp_right fun here => congrArg Piece.before here
    by_cases hp : p.after before ∈ places
    · -- the piece goes, and a space takes its place
      obtain ⟨c', rest', others, -, -, first, -⟩ := whole.unexpected_of_mem faulty hp
      obtain rfl : item = .unexpected := congrArg Piece.item (List.cons.inj first).1
      obtain rfl : word = [] := List.length_eq_zero_iff.1 (ScanItem.ofChars_unexpected hi)
      have notNewline : c ≠ '\n' := by
        rintro rfl
        exact absurd hb (by decide)
      have next : p.after (before' ++ [' ']) = p.after (before ++ [c]) := by
        rw [Position.after_append, same, Position.after_append]
        show (p.after before).next ' ' = (p.after before).next c
        rw [Position.next, if_neg (by decide), Position.next, if_neg notNewline]
      obtain ⟨pieces', divided', problems⟩ := ih behind next
      refine ⟨pieces', ?_, ?_⟩
      · rw [Position.after_append] at divided'
        rw [blanked, if_pos hp]
        exact .blank (by decide) divided'
      · rw [problems]
        simp [Piece.diagnostic?, hp]
    · -- the piece stays, and what follows it still ends it
      have next : p.after (before' ++ c :: word) = p.after (before ++ c :: word) := by
        rw [Position.after_append, same, Position.after_append]
      obtain ⟨pieces', divided', problems⟩ := ih behind next
      refine ⟨⟨before', c, item⟩ :: pieces', ?_, ?_⟩
      · rw [divided.blanked_piece faulty hp]
        exact .piece hb (ScanItem.ofChars_like (divided.startsLike_blanked behind) hi) divided'
      · cases item with
        | comment | lexeme => simpa [Piece.diagnostic?] using problems
        | unexpected => simpa [Piece.diagnostic?, same, hp] using problems

end Divided

theorem unexpected_reported_apart {source : String} {p : Position} {ds : List Diagnostic}
    (h : TokenStream.ofSource source p = .error ds) :
    (ds.map Diagnostic.position).Pairwise Position.Before ∧
    (ds.map Diagnostic.position).Nodup ∧
    ∀ places ⊆ ds.map Diagnostic.position,
      let source' := String.ofList (blanked places p source.toList)
      (¬ds.map Diagnostic.position ⊆ places →
        TokenStream.ofSource source' p = .error (ds.filter (·.position ∉ places))) ∧
      (ds.map Diagnostic.position ⊆ places → ∃ ts, TokenStream.ofSource source' p = .ok ts) := by
  obtain ⟨pieces, divided⟩ := Divided.exists_pieces [] source.toList
  have scanned := TokenStream.ofSource_divided divided p
  rw [h] at scanned
  dsimp only at scanned
  split at scanned
  · cases scanned
  obtain rfl := Except.error.inj scanned
  have ordered : (List.map Diagnostic.position (pieces.filterMap fun q =>
      q.diagnostic? (p.after q.before))).Pairwise Position.Before :=
    ((List.pairwise_append.1 (divided.places_ordered p)).1).sublist
      (map_filterMap_sublist (fun _ _ => Piece.position_diagnostic) pieces)
  refine ⟨ordered, ordered.imp Position.Before.ne, fun places subset => ?_⟩
  have faulty : Faulty places p [] pieces := by
    intro q hq
    obtain ⟨d, hd, rfl⟩ := List.mem_map.1 (subset hq)
    obtain ⟨piece, hm, reported⟩ := List.mem_filterMap.1 hd
    refine .inr ⟨piece, hm, ?_, Piece.position_diagnostic reported⟩
    unfold Piece.diagnostic? at reported
    split at reported
    · assumption
    · cases reported
  obtain ⟨pieces', divided', problems⟩ := divided.exists_blanked faulty rfl
  have divided'' : Divided [] (String.ofList (blanked places p source.toList)).toList pieces' := by
    rw [String.toList_ofList]
    exact divided'
  have scanned' := TokenStream.ofSource_divided divided'' p
  dsimp only at scanned'
  rw [problems] at scanned'
  have emptied (ds : List Diagnostic) :
      ds.filter (·.position ∉ places) = [] ↔ ds.map Diagnostic.position ⊆ places := by
    simp [List.filter_eq_nil_iff, List.subset_def]
  constructor
  · intro some
    rw [scanned', if_neg fun none => some ((emptied _).1 none)]
  · intro all
    rw [scanned', if_pos ((emptied _).2 all)]
    exact ⟨_, rfl⟩

theorem unexpected_reported_apart_four :
    let problem (c : Char) (column : Nat) : Diagnostic := ⟨.unexpectedCharacter c, ⟨1, column⟩⟩
    let ds := [problem '!' 1, problem '|' 4, problem '&' 8, problem '%' 11]
    TokenStream.ofSource "!x | y & z%" .start = .error ds ∧
      TokenStream.ofSource "!x   y & z " .start = .error [problem '!' 1, problem '&' 8] ∧
      ∃ ts, TokenStream.ofSource " x   y   z " .start = .ok ts := by
  intro problem ds
  have problems : (scanFrom 0 .start "!x | y & z%".toList).diagnostics = ds := by rfl
  have failed : TokenStream.ofSource "!x | y & z%" .start = .error ds := by
    simp only [TokenStream.ofSource, problems]
    rfl
  obtain ⟨-, -, apart⟩ := unexpected_reported_apart failed
  have two := (apart [⟨1, 4⟩, ⟨1, 11⟩] (by decide)).1 (by decide)
  have all := (apart (ds.map Diagnostic.position) (List.Subset.refl _)).2 (List.Subset.refl _)
  have blankedTwo : String.ofList (blanked [⟨1, 4⟩, ⟨1, 11⟩] .start "!x | y & z%".toList) =
      "!x   y & z " := by decide
  have blankedAll : String.ofList (blanked (ds.map Diagnostic.position) .start
      "!x | y & z%".toList) = " x   y   z " := by decide
  have kept : ds.filter (·.position ∉ [⟨1, 4⟩, ⟨1, 11⟩]) = [problem '!' 1, problem '&' 8] := by rfl
  rw [blankedTwo, kept] at two
  rw [blankedAll] at all
  exact ⟨failed, two, all⟩

end CanvasScript
