import CanvasScript.Token.Scan
import Mathlib

namespace CanvasScript

def escaped (quote c : Char) : List Char := if c = '\\' ∨ c = quote then ['\\', c] else [c]

inductive Spelled : Lexeme → List Char → Prop
  | keyword (k : Keyword) : Spelled (.keyword k) k.spelling.toList
  | sign {s : Sign} : s ≠ .bang → Spelled (.sign s) s.spelling.toList
  | name {c : Char} {cs : List Char} : c.isAlpha ∨ c = '_' →
      (∀ d ∈ cs, d.isAlphanum ∨ d = '_') → (∀ k : Keyword, k.spelling.toList ≠ c :: cs) →
      Spelled (.name (String.ofList (c :: cs))) (c :: cs)
  | whole {ds : List Char} {x : Float} : ds ≠ [] → (∀ d ∈ ds, d.isDigit) →
      Number.decimal? ds = some x → Spelled (.number x) ds
  | fraction {ds es : List Char} {x : Float} : ds ≠ [] → (∀ d ∈ ds, d.isDigit) → es ≠ [] →
      (∀ d ∈ es, d.isDigit) → Number.decimal? (ds ++ '.' :: es) = some x →
      Spelled (.number x) (ds ++ '.' :: es)
  | text {quote : Char} (cs : List Char) : quote = '"' ∨ quote = '\'' →
      Spelled (.text (String.ofList cs)) (quote :: cs.flatMap (escaped quote) ++ [quote])

inductive Gap : List Char → Prop
  | nil : Gap []
  | blank {c : Char} {cs : List Char} : Text.isBlank c → Gap cs → Gap (c :: cs)
  | comment {remark cs : List Char} : '\n' ∉ remark → Gap cs → Gap ('#' :: remark ++ '\n' :: cs)

inductive LastRemark : List Char → Prop
  | nil : LastRemark []
  | comment {remark : List Char} : '\n' ∉ remark → LastRemark ('#' :: remark)

/-- The text writes the lexemes down. `behind` says whether another lexeme stands in front of it, so
that a gap has to part the two. -/
inductive LaidOut : Bool → List Lexeme → List Char → Prop
  | finish {behind : Bool} {gap remark : List Char} : Gap gap → LastRemark remark →
      LaidOut behind [] (gap ++ remark)
  | lexeme {behind : Bool} {l : Lexeme} {ls : List Lexeme} {gap word rest : List Char} : Gap gap →
      (behind = true → gap ≠ []) → Spelled l word → LaidOut true ls rest →
      LaidOut behind (l :: ls) (gap ++ word ++ rest)

def Parted (rest : List Char) : Prop := ∀ c ∈ rest.head?, Text.isBlank c ∨ c = '#'

theorem Text.toNat_of_isBlank {c : Char} (h : isBlank c) : c.toNat ≤ 32 ∨ 133 ≤ c.toNat := by
  simp only [isBlank, inRanges, blankRanges, List.any_cons, List.any_nil, Bool.or_false,
    Bool.or_eq_true, Bool.and_eq_true, decide_eq_true_eq] at h
  omega

theorem toNat_of_isDigit {c : Char} (h : c.isDigit) : 48 ≤ c.toNat ∧ c.toNat ≤ 57 := by
  simp only [Char.isDigit, Bool.and_eq_true, decide_eq_true_eq, ge_iff_le,
    UInt32.le_iff_toNat_le] at h
  exact h

theorem toNat_of_isAlpha {c : Char} (h : c.isAlpha) : 65 ≤ c.toNat ∧ c.toNat ≤ 122 := by
  simp only [Char.isAlpha, Char.isUpper, Char.isLower, Bool.or_eq_true, Bool.and_eq_true,
    decide_eq_true_eq, ge_iff_le, UInt32.le_iff_toNat_le] at h
  change 65 ≤ c.toNat ∧ c.toNat ≤ 90 ∨ 97 ≤ c.toNat ∧ c.toNat ≤ 122 at h
  omega

def Joined (c : Char) : Prop := 36 ≤ c.toNat ∧ c.toNat ≤ 122

instance (c : Char) : Decidable (Joined c) := inferInstanceAs (Decidable (_ ∧ _))

namespace Joined

variable {c : Char}

theorem of_continuesWord (h : ScanItem.continuesWord c) : Joined c := by
  simp only [ScanItem.continuesWord, Char.isAlphanum, Bool.or_eq_true, decide_eq_true_eq] at h
  rcases h with (h | h) | rfl
  · have := toNat_of_isAlpha h
    exact ⟨by omega, by omega⟩
  · have := toNat_of_isDigit h
    exact ⟨by omega, by omega⟩
  · decide

theorem of_continuesNumber (h : ScanItem.continuesNumber c) : Joined c := by
  simp only [ScanItem.continuesNumber, Bool.or_eq_true, decide_eq_true_eq] at h
  rcases h with h | rfl
  · have := toNat_of_isDigit h
    exact ⟨by omega, by omega⟩
  · decide

theorem not_isBlank (h : Joined c) : Text.isBlank c = false := by
  rw [Bool.eq_false_iff]
  intro blank
  have := Text.toNat_of_isBlank blank
  unfold Joined at h
  omega

end Joined

namespace Parted

variable {rest : List Char} {c : Char}

theorem head?_ne (hr : Parted rest) (hc : Joined c) : rest.head? ≠ some c := by
  intro h
  rcases hr c h with blank | rfl
  · rw [hc.not_isBlank] at blank
    cases blank
  · exact absurd hc (by decide)

theorem takeWhile_append (hr : Parted rest) {f : Char → Bool} (hf : ∀ c, f c → Joined c)
    {cs : List Char} (hcs : ∀ c ∈ cs, f c) : (cs ++ rest).takeWhile f = cs := by
  have stops : rest.takeWhile f = [] := by
    cases rest with
    | nil => rfl
    | cons c rest =>
      refine List.takeWhile_cons_of_neg fun h => ?_
      exact hr.head?_ne (hf c h) rfl
  rw [List.takeWhile_append_of_pos hcs, stops, List.append_nil]

end Parted

namespace ScanItem

variable {c : Char} {cs rest : List Char}

theorem pair_alone (hr : Parted rest) {second : Char} (hs : Joined second) (both : Sign)
    (alone : ScanItem × Nat) : pair rest second both alone = alone :=
  if_neg (hr.head?_ne hs)

theorem ofChars_sign {s : Sign} (hs : s ≠ .bang) (hr : Parted rest) :
    ∃ c cs, s.spelling.toList = c :: cs ∧ Text.isBlank c = false ∧
      ofChars c (cs ++ rest) = (.lexeme (.sign s), cs.length) := by
  cases s with
  | bang => exact absurd rfl hs
  | plus | minus =>
    refine ⟨_, [], rfl, by decide, ?_⟩
    exact (pair_alone hr (by decide) _ _).trans (pair_alone hr (by decide) _ _)
  | star | slash | eq | lt | gt =>
    exact ⟨_, [], rfl, by decide, pair_alone hr (by decide) _ _⟩
  | bangEq => exact ⟨_, ['='], rfl, by decide, by rfl⟩
  | _ => exact ⟨_, _, rfl, by decide, by rfl⟩

theorem ofChars_word (h : startsWord c) : ofChars c rest =
    run c rest continuesWord fun cs => .ofWord (String.ofList cs) := by
  unfold ofChars
  split
  case h_23 =>
    have notQuote : ¬ ((c = '"' || c = '\'') = true) := by
      simp only [Bool.or_eq_true, decide_eq_true_eq]
      rintro (rfl | rfl) <;> exact absurd h (by decide)
    have notDigit : ¬ c.isDigit = true := by
      intro digit
      have range := toNat_of_isDigit digit
      simp only [startsWord, Bool.or_eq_true, decide_eq_true_eq] at h
      rcases h with h | rfl
      · have := toNat_of_isAlpha h
        omega
      · exact absurd range (by decide)
    rw [if_neg notQuote, if_neg notDigit, if_pos h]
  all_goals exact absurd h (by decide)

theorem ofChars_digit (h : c.isDigit) : ofChars c rest =
    run c rest continuesNumber fun ds => .number (Number.ofRun ds) := by
  have range := toNat_of_isDigit h
  unfold ofChars
  split
  case h_23 =>
    have notQuote : ¬ ((c = '"' || c = '\'') = true) := by
      simp only [Bool.or_eq_true, decide_eq_true_eq]
      rintro (rfl | rfl) <;> exact absurd range (by decide)
    rw [if_neg notQuote, if_pos h]
  all_goals exact absurd range (by decide)

theorem run_append (hr : Parted rest) {f : Char → Bool} (hf : ∀ c, f c → Joined c)
    (hcs : ∀ d ∈ cs, f d) (make : List Char → Lexeme) :
    run c (cs ++ rest) f make = (lexeme (make (c :: cs)), cs.length) := by
  simp only [run, hr.takeWhile_append hf hcs]

theorem ofChars_quote (h : c = '"' ∨ c = '\'') : ofChars c rest =
    (lexeme (.text (String.ofList (readText c rest).1)), (readText c rest).2) := by
  rcases h with rfl | rfl <;> rfl

theorem readText_quote (quote : Char) (rest : List Char) :
    readText quote (quote :: rest) = ([], 1) := by
  rw [readText.eq_def]
  exact if_pos rfl

theorem readText_plain {quote : Char} (hq : c ≠ quote) (hb : c ≠ '\\') (rest : List Char) :
    readText quote (c :: rest) = (c :: (readText quote rest).1, (readText quote rest).2 + 1) := by
  rw [readText.eq_def]
  simp only [if_neg hq, if_neg hb]

theorem readText_backslash {quote : Char} (hq : '\\' ≠ quote) (e : Char) (rest : List Char) :
    readText quote ('\\' :: e :: rest) =
      (unescape e :: (readText quote rest).1, (readText quote rest).2 + 2) := by
  rw [readText.eq_def]
  simp only [if_neg hq, if_true]

theorem readText_escaped {quote : Char} (hq : quote = '"' ∨ quote = '\'') (cs rest : List Char) :
    readText quote (cs.flatMap (escaped quote) ++ quote :: rest) =
      (cs, (cs.flatMap (escaped quote)).length + 1) := by
  induction cs with
  | nil =>
    rw [List.flatMap_nil, List.nil_append, readText_quote]
    rfl
  | cons c cs ih =>
    have itself (h : c = '\\' ∨ c = quote) : unescape c = c := by
      rcases h with rfl | rfl
      · rfl
      · rcases hq with rfl | rfl <;> rfl
    have apart : '\\' ≠ quote := by
      rcases hq with rfl | rfl <;> decide
    rw [List.flatMap_cons, List.append_assoc]
    by_cases h : c = '\\' ∨ c = quote
    · simp only [escaped, if_pos h, List.cons_append, List.nil_append]
      rw [readText_backslash apart, ih, itself h]
      rfl
    · have hc : c ≠ quote := fun hc => h (.inr hc)
      have hb : c ≠ '\\' := fun hb => h (.inl hb)
      simp only [escaped, if_neg h, List.cons_append, List.nil_append]
      rw [readText_plain hc hb, ih]
      rfl

end ScanItem

namespace Number

variable {ds es : List Char}

theorem signed_of_digits (hne : ds ≠ []) (hd : ∀ d ∈ ds, d.isDigit) (rest : List Char) :
    signed (ds ++ rest) = (false, ds ++ rest) := by
  obtain ⟨d, ds, rfl⟩ := List.exists_cons_of_ne_nil hne
  have digit := hd d List.mem_cons_self
  unfold signed
  split
  · rename_i h
    cases h
    exact absurd digit (by decide)
  · rename_i h
    cases h
    exact absurd digit (by decide)
  · rfl

theorem takeWhile_digits (hd : ∀ d ∈ ds, d.isDigit) : ds.takeWhile Char.isDigit = ds :=
  List.takeWhile_eq_self_iff.2 hd

theorem dropWhile_digits (hd : ∀ d ∈ ds, d.isDigit) : ds.dropWhile Char.isDigit = [] :=
  List.dropWhile_eq_nil_iff.2 hd

theorem takeWhile_point (hd : ∀ d ∈ ds, d.isDigit) :
    (ds ++ '.' :: es).takeWhile Char.isDigit = ds := by
  rw [List.takeWhile_append_of_pos hd]
  simp

theorem dropWhile_point (hd : ∀ d ∈ ds, d.isDigit) :
    (ds ++ '.' :: es).dropWhile Char.isDigit = '.' :: es := by
  rw [List.dropWhile_append_of_pos hd]
  simp

theorem ofRun_whole (hne : ds ≠ []) (hd : ∀ d ∈ ds, d.isDigit) :
    decimal? ds = some (ofRun ds) := by
  have sign := signed_of_digits hne hd []
  rw [List.append_nil] at sign
  simp only [decimal?, ofRun, leadingNumeral, sign, takeWhile_digits hd, dropWhile_digits hd]
  simp [hne, exponent?]

theorem ofRun_fraction (hne : ds ≠ []) (hd : ∀ d ∈ ds, d.isDigit) (he : ∀ d ∈ es, d.isDigit) :
    decimal? (ds ++ '.' :: es) = some (ofRun (ds ++ '.' :: es)) := by
  simp only [decimal?, ofRun, leadingNumeral, signed_of_digits hne hd, takeWhile_point hd,
    dropWhile_point hd, takeWhile_digits he, dropWhile_digits he]
  simp [hne, exponent?]

end Number

namespace ScanItem

variable {c : Char} {cs rest : List Char}

theorem ofChars_wholeWord (hc : startsWord c) (hcs : ∀ d ∈ cs, continuesWord d)
    (hr : Parted rest) : Text.isBlank c = false ∧
      ofChars c (cs ++ rest) = (.lexeme (.ofWord (String.ofList (c :: cs))), cs.length) := by
  have joined : Joined c := by
    refine .of_continuesWord ?_
    simp only [startsWord, continuesWord, Char.isAlphanum, Bool.or_eq_true] at hc ⊢
    exact hc.imp_left .inl
  refine ⟨joined.not_isBlank, ?_⟩
  rw [ofChars_word hc, run_append hr (fun _ => .of_continuesWord) hcs]

theorem ofChars_wholeNumber (hc : c.isDigit) (hcs : ∀ d ∈ cs, continuesNumber d)
    (hr : Parted rest) : Text.isBlank c = false ∧
      ofChars c (cs ++ rest) = (.lexeme (.number (Number.ofRun (c :: cs))), cs.length) := by
  have joined : Joined c := by
    refine .of_continuesNumber ?_
    rw [continuesNumber, hc, Bool.true_or]
  refine ⟨joined.not_isBlank, ?_⟩
  rw [ofChars_digit hc, run_append hr (fun _ => .of_continuesNumber) hcs]

end ScanItem

theorem Keyword.spelling_word (k : Keyword) : ∃ c cs, k.spelling.toList = c :: cs ∧
    ScanItem.startsWord c ∧ (∀ d ∈ cs, ScanItem.continuesWord d) ∧
    Lexeme.ofWord (String.ofList (c :: cs)) = .keyword k := by
  cases k <;> exact ⟨_, _, rfl, by decide, List.all_eq_true.1 (by decide), by rfl⟩

theorem Lexeme.ofWord_name {cs : List Char} (h : ∀ k : Keyword, k.spelling.toList ≠ cs) :
    ofWord (String.ofList cs) = .name (String.ofList cs) := by
  have none : Keyword.ofSpelling? (String.ofList cs) = none := by
    refine List.find?_eq_none.2 fun k _ hk => h k ?_
    rw [eq_of_beq hk, String.toList_ofList]
  rw [ofWord, none]

theorem Spelled.ofChars {l : Lexeme} {word rest : List Char} (h : Spelled l word)
    (hr : Parted rest) :
    ∃ c cs, word = c :: cs ∧ Text.isBlank c = false ∧
      ScanItem.ofChars c (cs ++ rest) = (.lexeme l, cs.length) := by
  have digits {ds : List Char} (hd : ∀ d ∈ ds, d.isDigit) : ∀ d ∈ ds, ScanItem.continuesNumber d :=
    fun d hm => by rw [ScanItem.continuesNumber, hd d hm, Bool.true_or]
  cases h with
  | keyword k =>
    obtain ⟨c, cs, hw, hc, hcs, hk⟩ := k.spelling_word
    have scanned := ScanItem.ofChars_wholeWord hc hcs hr
    rw [hk] at scanned
    exact ⟨c, cs, hw, scanned⟩
  | sign hs => exact ScanItem.ofChars_sign hs hr
  | @name c cs hc hcs hk =>
    have starts : ScanItem.startsWord c := by
      rcases hc with hc | rfl
      · rw [ScanItem.startsWord, hc, Bool.true_or]
      · rfl
    have continues : ∀ d ∈ cs, ScanItem.continuesWord d := by
      intro d hd
      rcases hcs d hd with h | rfl
      · rw [ScanItem.continuesWord, h, Bool.true_or]
      · rfl
    have scanned := ScanItem.ofChars_wholeWord starts continues hr
    rw [Lexeme.ofWord_name hk] at scanned
    exact ⟨c, cs, rfl, scanned⟩
  | @whole ds x hne hd hx =>
    cases hx.symm.trans (Number.ofRun_whole hne hd)
    obtain ⟨d, ds, rfl⟩ := List.exists_cons_of_ne_nil hne
    rw [List.forall_mem_cons] at hd
    exact ⟨d, ds, rfl, ScanItem.ofChars_wholeNumber hd.1 (digits hd.2) hr⟩
  | @fraction ds es x hne hd _ he hx =>
    cases hx.symm.trans (Number.ofRun_fraction hne hd he)
    obtain ⟨d, ds, rfl⟩ := List.exists_cons_of_ne_nil hne
    rw [List.forall_mem_cons] at hd
    have continues : ∀ c ∈ ds ++ '.' :: es, ScanItem.continuesNumber c := by
      rw [List.forall_mem_append, List.forall_mem_cons]
      exact ⟨digits hd.2, rfl, digits he⟩
    exact ⟨d, ds ++ '.' :: es, rfl, ScanItem.ofChars_wholeNumber hd.1 continues hr⟩
  | @text quote cs hq =>
    refine ⟨quote, cs.flatMap (escaped quote) ++ [quote], rfl, ?_, ?_⟩
    · rcases hq with rfl | rfl <;> decide
    · rw [ScanItem.ofChars_quote hq, List.append_assoc, List.singleton_append,
        ScanItem.readText_escaped hq]
      simp

theorem scanFrom_skip (p : Position) (cs rest : List Char) :
    scanFrom cs.length p (cs ++ rest) = scanFrom 0 (p.after cs) rest := by
  induction cs generalizing p with
  | nil => rfl
  | cons c cs ih =>
    rw [List.length_cons, List.cons_append, scanFrom, ih, Position.after_cons]

theorem scanFrom_spelled {l : Lexeme} {word rest : List Char} (h : Spelled l word)
    (hr : Parted rest) (p : Position) :
    scanFrom 0 p (word ++ rest) =
      let s := scanFrom 0 (p.after word) rest
      { s with tokens := ⟨l, p⟩ :: s.tokens } := by
  obtain ⟨c, cs, rfl, hb, hi⟩ := h.ofChars hr
  rw [List.cons_append, scanFrom]
  simp only [hb, Bool.false_eq_true, if_false, hi]
  rw [scanFrom_skip, Position.after_cons]

theorem scanFrom_comment {remark rest : List Char} (h : '\n' ∉ remark)
    (hr : rest.takeWhile (· ≠ '\n') = []) (p : Position) :
    scanFrom 0 p ('#' :: remark ++ rest) = scanFrom 0 (p.after ('#' :: remark)) rest := by
  have length : ((remark ++ rest).takeWhile (· ≠ '\n')).length = remark.length := by
    rw [List.takeWhile_append_of_pos, hr, List.append_nil]
    intro c hc
    simpa using fun he : c = '\n' => h (he ▸ hc)
  have item : ScanItem.ofChars '#' (remark ++ rest) = (.comment, remark.length) :=
    congrArg (Prod.mk ScanItem.comment) length
  rw [List.cons_append, scanFrom, if_neg (by decide), item, Position.after_cons]
  exact scanFrom_skip _ remark rest

theorem scanFrom_gap {gap rest : List Char} (h : Gap gap) (p : Position) :
    scanFrom 0 p (gap ++ rest) = scanFrom 0 (p.after gap) rest := by
  induction h generalizing p with
  | nil => rfl
  | blank hb _ ih =>
    rw [List.cons_append, scanFrom, if_pos hb, ih, Position.after_cons]
  | @comment remark cs hn _ ih =>
    rw [List.append_assoc, scanFrom_comment hn (by simp)]
    rw [List.cons_append, scanFrom, if_pos (by decide), ih, ← Position.after_cons,
      Position.after_append]

theorem Gap.parted {gap rest : List Char} (h : Gap gap) (hne : gap ≠ []) :
    Parted (gap ++ rest) := by
  intro c hc
  cases h with
  | nil => exact absurd rfl hne
  | blank hb =>
    cases hc
    exact .inl hb
  | comment =>
    cases hc
    exact .inr rfl

theorem LaidOut.parted {ls : List Lexeme} {text : List Char} (h : LaidOut true ls text) :
    Parted text := by
  cases h with
  | finish hg hr =>
    cases hg with
    | nil =>
      cases hr with
      | nil => exact fun _ hc => nomatch hc
      | comment =>
        intro c hc
        cases hc
        exact .inr rfl
    | blank hb hg => exact (Gap.blank hb hg).parted (List.cons_ne_nil _ _)
    | comment hn hg => exact (Gap.comment hn hg).parted (List.cons_ne_nil _ _)
  | lexeme hg hne =>
    rw [List.append_assoc]
    exact hg.parted (hne rfl)

theorem scanFrom_laidOut {behind : Bool} {ls : List Lexeme} {text : List Char}
    (h : LaidOut behind ls text) (p : Position) :
    let s := scanFrom 0 p text
    s.tokens.map (·.lexeme) = ls ∧ s.diagnostics = [] ∧ s.finish = p.after text := by
  induction h generalizing p with
  | finish hg hr =>
    rw [scanFrom_gap hg, Position.after_append]
    cases hr with
    | nil => exact ⟨rfl, rfl, rfl⟩
    | @comment remark hn =>
      rw [← List.append_nil ('#' :: remark), scanFrom_comment hn rfl]
      rw [List.append_nil]
      exact ⟨rfl, rfl, rfl⟩
  | lexeme hg _ hw rest ih =>
    rw [List.append_assoc, scanFrom_gap hg, scanFrom_spelled hw rest.parted, Position.after_append,
      Position.after_append]
    obtain ⟨tokens, diagnostics, finish⟩ := ih _
    exact ⟨congrArg _ tokens, diagnostics, finish⟩

theorem ofSource_laidOut {ls : List Lexeme} {text : List Char} (h : LaidOut false ls text)
    (p : Position) :
    ∃ ts, TokenStream.ofSource (String.ofList text) p = .ok ts ∧
      ts.tokens.map (·.lexeme) = ls ∧ ts.finish = p.after text := by
  obtain ⟨tokens, diagnostics, finish⟩ := scanFrom_laidOut h p
  refine ⟨⟨_, _⟩, ?_, tokens, finish⟩
  simp only [TokenStream.ofSource, String.toList_ofList, diagnostics, List.isEmpty_nil, if_true]

theorem sample_scanned :
    let lexemes : List Lexeme := [.keyword .if_, .name "x_1", .sign .plusEq, .text "\"\n"]
    let text := "#!\nif x_1\t+=# note\n\"\\\"\n\" #end".toList
    LaidOut false lexemes text ∧ ∃ ts, TokenStream.ofSource (String.ofList text) .start = .ok ts ∧
      ts.tokens.map (·.lexeme) = lexemes ∧ ts.finish = ⟨4, 7⟩ := by
  intro lexemes text
  have blank (c : Char) (h : Text.isBlank c) : Gap [c] := .blank h .nil
  have remark (cs : List Char) (h : '\n' ∉ cs) : Gap ('#' :: cs ++ ['\n']) := .comment h .nil
  have behind : LaidOut true [] ([' '] ++ '#' :: "end".toList) :=
    .finish (blank ' ' (by decide)) (.comment (by decide))
  have quote : '"' = '"' ∨ '"' = '\'' := .inl rfl
  have quoted : LaidOut true [.text "\"\n"] _ := .lexeme (remark " note".toList (by decide))
    (fun _ => List.cons_ne_nil _ _) (.text "\"\n".toList quote) behind
  have operator : LaidOut true [.sign .plusEq, .text "\"\n"] _ := .lexeme (blank '\t' (by decide))
    (fun _ => List.cons_ne_nil _ _) (.sign (by decide)) quoted
  have word : Spelled (.name "x_1") ('x' :: "_1".toList) :=
    .name (.inl (by decide)) (by simp) fun k => by cases k <;> decide
  have named : LaidOut true [.name "x_1", .sign .plusEq, .text "\"\n"] _ :=
    .lexeme (blank ' ' (by decide)) (fun _ => List.cons_ne_nil _ _) word operator
  have first : LaidOut false lexemes _ := .lexeme (remark "!".toList (by decide))
    (fun _ => List.cons_ne_nil _ _) (.keyword .if_) named
  have laidOut : LaidOut false lexemes text := first
  obtain ⟨ts, accepted, same, finish⟩ := ofSource_laidOut laidOut .start
  exact ⟨laidOut, ts, accepted, same, finish.trans (by decide)⟩

end CanvasScript
