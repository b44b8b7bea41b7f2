import CanvasScript.Proofs.Layout.Scanning
import CanvasScript.Proofs.Spelling

namespace CanvasScript

structure Piece where
  before : List Char
  first : Char
  item : ScanItem

inductive Divided : List Char → List Char → List Piece → Prop
  | done {before : List Char} : Divided before [] []
  | blank {before rest : List Char} {c : Char} {pieces : List Piece} : Text.isBlank c = true →
      Divided (before ++ [c]) rest pieces → Divided before (c :: rest) pieces
  | piece {before word rest : List Char} {c : Char} {item : ScanItem} {pieces : List Piece} :
      Text.isBlank c = false → ScanItem.ofChars c (word ++ rest) = (item, word.length) →
      Divided (before ++ c :: word) rest pieces →
      Divided before (c :: (word ++ rest)) (⟨before, c, item⟩ :: pieces)

namespace ScanItem

variable {c : Char} {rest : List Char}

theorem readText_le (quote : Char) (cs : List Char) : (readText quote cs).2 ≤ cs.length := by
  fun_induction readText quote cs <;> simp_all

theorem length_takeWhile_le (f : Char → Bool) : (rest.takeWhile f).length ≤ rest.length :=
  (List.takeWhile_sublist f).length_le

theorem pair_le {alone : ScanItem × Nat} (h : alone.2 ≤ rest.length) (second : Char) (both : Sign) :
    (pair rest second both alone).2 ≤ rest.length := by
  unfold pair
  split
  · rename_i head
    cases rest with
    | nil => cases head
    | cons d rest => exact Nat.succ_le_succ (Nat.zero_le _)
  · exact h

theorem ofChars_le (c : Char) (rest : List Char) : (ofChars c rest).2 ≤ rest.length := by
  have none : 0 ≤ rest.length := Nat.zero_le _
  unfold ofChars
  split
  case h_1 => exact length_takeWhile_le _
  case h_2 | h_3 => exact pair_le (pair_le none _ _) _ _
  case h_4 | h_5 | h_6 | h_7 | h_8 | h_9 | h_10 | h_11 => exact pair_le none _ _
  case h_23 =>
    split
    · exact readText_le _ _
    · split
      · exact length_takeWhile_le _
      · split
        · exact length_takeWhile_le _
        · exact none
  all_goals exact none

theorem pair_unexpected {alone : ScanItem × Nat} {second : Char} {both : Sign} {n : Nat}
    (h : pair rest second both alone = (unexpected, n)) : alone = (unexpected, n) := by
  unfold pair at h
  split at h
  · cases h
  · exact h

theorem ofChars_unexpected {n : Nat} (h : ofChars c rest = (unexpected, n)) : n = 0 := by
  unfold ofChars at h
  split at h
  case h_1 => cases h
  case h_2 | h_3 => cases pair_unexpected (pair_unexpected h)
  case h_4 | h_5 | h_6 | h_7 | h_8 => cases pair_unexpected h
  case h_9 | h_10 | h_11 =>
    cases pair_unexpected h
    rfl
  case h_23 =>
    split at h
    · cases h
    · split at h
      · cases h
      · split at h
        · cases h
        · cases h
          rfl
  all_goals cases h

end ScanItem

namespace Divided

variable {before cs : List Char} {pieces pieces' : List Piece}

theorem exists_pieces (before cs : List Char) : ∃ pieces, Divided before cs pieces := by
  induction h : cs.length using Nat.strong_induction_on generalizing before cs with
  | _ n ih =>
    subst h
    cases cs with
    | nil => exact ⟨[], .done⟩
    | cons c rest =>
      cases hb : Text.isBlank c with
      | true =>
        obtain ⟨pieces, divided⟩ := ih _ (Nat.lt_succ_self _) (before ++ [c]) rest rfl
        exact ⟨pieces, .blank hb divided⟩
      | false =>
        rcases hi : ScanItem.ofChars c rest with ⟨item, n⟩
        have inside : n ≤ rest.length := by
          have := ScanItem.ofChars_le c rest
          rwa [hi] at this
        have shorter : (rest.drop n).length < (c :: rest).length := by
          rw [List.length_drop, List.length_cons]
          omega
        obtain ⟨pieces, divided⟩ := ih _ shorter (before ++ c :: rest.take n) (rest.drop n) rfl
        refine ⟨⟨before, c, item⟩ :: pieces, ?_⟩
        have piece : ScanItem.ofChars c (rest.take n ++ rest.drop n) =
            (item, (rest.take n).length) := by
          rw [List.take_append_drop, hi, List.length_take, Nat.min_eq_left inside]
        simpa using Divided.piece hb piece divided

theorem unique (h : Divided before cs pieces) (h' : Divided before cs pieces') :
    pieces = pieces' := by
  induction h generalizing pieces' with
  | done =>
    cases h'
    rfl
  | @blank before rest c pieces hb _ ih =>
    cases h' with
    | blank _ divided => exact ih divided
    | piece hn _ _ => exact absurd (hb.symm.trans hn) nofun
  | @piece before word rest c item pieces hn hi _ ih =>
    generalize htext : word ++ rest = text at h' hi
    cases h' with
    | blank hb _ => exact absurd (hb.symm.trans hn) nofun
    | @piece _ word' rest' _ item' _ _ hi' divided =>
      have same := hi.symm.trans hi'
      obtain ⟨rfl, length⟩ := Prod.mk.inj same
      obtain ⟨rfl, rfl⟩ := List.append_inj htext length
      rw [ih divided]

theorem found (h : Divided before cs pieces) :
    ∀ q ∈ pieces, ∃ passed more, q.before = before ++ passed ∧
      before ++ cs = q.before ++ q.first :: more ∧ (ScanItem.ofChars q.first more).1 = q.item := by
  induction h with
  | done => exact List.forall_mem_nil _
  | @blank before rest c pieces _ _ ih =>
    intro q hq
    obtain ⟨passed, more, extended, text, item⟩ := ih q hq
    exact ⟨c :: passed, more, by simpa using extended, by simpa using text, item⟩
  | @piece before word rest c item pieces _ begins _ ih =>
    refine List.forall_mem_cons.2 ⟨?_, fun q hq => ?_⟩
    · exact ⟨[], word ++ rest, by simp, rfl, congrArg Prod.fst begins⟩
    · obtain ⟨passed, more, extended, text, item⟩ := ih q hq
      exact ⟨c :: word ++ passed, more, by simpa using extended, by simpa using text, item⟩

theorem stands (h : Divided before cs pieces) :
    ∀ q ∈ pieces, ∃ passed more, q.before = before ++ passed ∧
      before ++ cs = q.before ++ q.first :: more := by
  intro q hq
  obtain ⟨passed, more, extended, text, -⟩ := h.found q hq
  exact ⟨passed, more, extended, text⟩

theorem inOrder (h : Divided before cs pieces) :
    pieces.Pairwise fun q r => ∃ passed ≠ [], r.before = q.before ++ passed := by
  induction h with
  | done => exact .nil
  | blank _ _ ih => exact ih
  | @piece before word rest c item pieces _ _ later ih =>
    refine List.pairwise_cons.2 ⟨fun q hq => ?_, ih⟩
    obtain ⟨passed, _, extended, -⟩ := later.stands q hq
    exact ⟨c :: word ++ passed, List.cons_ne_nil _ _, by simpa using extended⟩

end Divided

namespace Piece

def token? (place : Position) (q : Piece) : Option Token :=
  match q.item with
  | .lexeme l => some ⟨l, place⟩
  | _ => none

def diagnostic? (place : Position) (q : Piece) : Option Diagnostic :=
  match q.item with
  | .unexpected => some ⟨.unexpectedCharacter q.first, place⟩
  | _ => none

end Piece

theorem Divided.scan {before cs : List Char} {pieces : List Piece}
    (h : Divided before cs pieces) (p : Position) :
    scanFrom 0 (p.after before) cs =
      ⟨pieces.filterMap fun q => q.token? (p.after q.before),
        pieces.filterMap fun q => q.diagnostic? (p.after q.before), p.after (before ++ cs)⟩ := by
  induction h with
  | done => simp [scanFrom]
  | @blank before rest c pieces hb _ ih =>
    rw [Position.after_append] at ih
    rw [scanFrom, if_pos hb]
    simpa [Position.after] using ih
  | @piece before word rest c item pieces hn hi _ ih =>
    have later : scanFrom word.length ((p.after before).next c) (word ++ rest) =
        ⟨pieces.filterMap fun q => q.token? (p.after q.before),
          pieces.filterMap fun q => q.diagnostic? (p.after q.before),
          p.after (before ++ c :: (word ++ rest))⟩ := by
      rw [scanFrom_skip, ← Position.after_cons, ← Position.after_append, ih]
      simp
    rw [scanFrom, hn, if_neg Bool.false_ne_true, hi]
    cases item with
    | comment | lexeme | unexpected => simp [later, Piece.token?, Piece.diagnostic?]

theorem TokenStream.ofSource_divided {source : String} {pieces : List Piece}
    (h : Divided [] source.toList pieces) (p : Position) :
    let problems := pieces.filterMap fun q => q.diagnostic? (p.after q.before)
    ofSource source p =
      if problems = [] then
        .ok ⟨pieces.filterMap fun q => q.token? (p.after q.before), p.after source.toList⟩
      else .error problems := by
  have scan := h.scan p
  rw [Position.after_nil, List.nil_append] at scan
  simp only [ofSource, scan, List.isEmpty_iff]

end CanvasScript
