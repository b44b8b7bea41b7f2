import CanvasScript.Proofs.Numerals
import CanvasScript.Proofs.Pieces
import CanvasScript.Proofs.Segments.Cursors

namespace CanvasScript

namespace Numeral

open Number (decimal? leadingNumeral ofRun Nearest)
open String (utf8Len utf8Len_append utf8Len_cons utf8Len_eq_zero)
open Marker (sliceFrom? slice? locate?)

inductive Readable : List Char → Prop
  | whole {ds : List Char} : AllDigits ds → ds ≠ [] → Readable ds
  | fraction {ds es : List Char} : AllDigits ds → ds ≠ [] → AllDigits es → es ≠ [] →
      Readable (ds ++ '.' :: es)

structure Longest (run numeral : List Char) : Prop where
  begins : numeral <+: run
  readable : Readable numeral
  longest : ∀ t, t <+: run → Readable t → t <+: numeral

def NoDigit (cs : List Char) : Prop := ∀ c ∈ cs.head?, c.isDigit = false

inductive Cut : List Char → List Char → Prop
  | whole {ds rest : List Char} : AllDigits ds → ds ≠ [] → NoDigit rest →
      (∀ more, rest = '.' :: more → NoDigit more) → Cut ds rest
  | fraction {ds es rest : List Char} : AllDigits ds → ds ≠ [] → AllDigits es → es ≠ [] →
      NoDigit rest → Cut (ds ++ '.' :: es) rest

section Digits

variable {ds es rest : List Char}

theorem stops_dropWhile (p : Char → Bool) (cs : List Char) :
    ∀ c ∈ (cs.dropWhile p).head?, p c = false := by
  intro c hc
  have stopped := List.head?_dropWhile_not p cs
  rw [hc] at stopped
  exact stopped

theorem noDigit_point (cs : List Char) : NoDigit ('.' :: cs) := by
  intro c hc
  cases hc
  decide

theorem NoDigit.takeWhile (hs : NoDigit rest) : rest.takeWhile Char.isDigit = [] := by
  cases rest with
  | nil => rfl
  | cons c rest => exact List.takeWhile_cons_of_neg (by rw [hs c rfl]; decide)

theorem takeWhile_digits (hd : AllDigits ds) (hs : NoDigit rest) :
    (ds ++ rest).takeWhile Char.isDigit = ds := by
  rw [List.takeWhile_append_of_pos hd, hs.takeWhile, List.append_nil]

theorem dropWhile_digits (hd : AllDigits ds) (hs : NoDigit rest) :
    (ds ++ rest).dropWhile Char.isDigit = rest := by
  have whole := List.takeWhile_append_dropWhile (p := Char.isDigit) (l := ds ++ rest)
  rw [takeWhile_digits hd hs] at whole
  exact List.append_cancel_left whole

theorem digits_begin (he : AllDigits es) (hs : NoDigit rest) (h : es <+: ds ++ rest) :
    es <+: ds := by
  obtain ⟨behind, same⟩ := h
  rcases List.append_eq_append_iff.1 same with ⟨more, rfl, -⟩ | ⟨more, rfl, rfl⟩
  · exact List.prefix_append es more
  · cases more with
    | nil => simp
    | cons c more =>
      have digit := he c (by simp)
      rw [hs c rfl] at digit
      cases digit

theorem digits_end (he : AllDigits es) (hd : AllDigits ds) (hs : NoDigit rest) {behind : List Char}
    (h : es ++ '.' :: behind = ds ++ rest) : es = ds ∧ rest = '.' :: behind := by
  have digits := congrArg (List.takeWhile Char.isDigit) h
  rw [takeWhile_digits he (noDigit_point behind), takeWhile_digits hd hs] at digits
  subst digits
  exact ⟨rfl, (List.append_cancel_left h).symm⟩

theorem exists_digits {run : List Char} (digit : ¬ NoDigit run) :
    ∃ ds rest, run = ds ++ rest ∧ AllDigits ds ∧ ds ≠ [] ∧ NoDigit rest := by
  refine ⟨_, _, List.takeWhile_append_dropWhile.symm, fun c hc => List.mem_takeWhile_imp hc,
    fun none => digit fun c hc => Bool.eq_false_iff.2 fun hd => ?_,
    stops_dropWhile Char.isDigit run⟩
  obtain ⟨more, rfl⟩ := List.head?_eq_some_iff.1 hc
  rw [List.takeWhile_cons_of_pos hd] at none
  cases none

end Digits

namespace Readable

variable {t : List Char}

theorem decimal (h : Readable t) : ∃ q, Decimal t false q := by
  cases h with
  | whole digits any =>
    have literal := Decimal.mk .absent (.whole digits any) .absent
    rw [List.nil_append, List.append_nil] at literal
    exact ⟨_, literal⟩
  | fraction whole any fraction _ =>
    have literal := Decimal.mk .absent (.pointed whole fraction (.inl any)) .absent
    rw [List.nil_append, List.append_nil] at literal
    exact ⟨_, literal⟩

theorem decimal? (h : Readable t) : Number.decimal? t = some (ofRun t) := by
  cases h with
  | whole digits any => exact Number.ofRun_whole any digits
  | fraction whole any fraction _ => exact Number.ofRun_fraction any whole fraction

theorem nearest (h : Readable t) : ∃ q, Decimal t false q ∧ Nearest false q (ofRun t) := by
  obtain ⟨q, literal⟩ := h.decimal
  obtain ⟨negative, q', literal', nearest⟩ := decimal?_sound h.decimal?
  obtain ⟨rfl, rfl⟩ := literal.unique literal'
  exact ⟨q, literal, nearest⟩

end Readable

namespace Cut

variable {numeral rest : List Char}

theorem exists_cut {run : List Char} (digit : ¬ NoDigit run) :
    ∃ numeral rest, run = numeral ++ rest ∧ Cut numeral rest := by
  obtain ⟨ds, rest, rfl, whole, any, stops⟩ := exists_digits digit
  by_cases pointed : ∃ more, rest = '.' :: more ∧ ¬ NoDigit more
  · obtain ⟨more, rfl, behind⟩ := pointed
    obtain ⟨es, rest, rfl, fraction, any', stops⟩ := exists_digits behind
    exact ⟨ds ++ '.' :: es, rest, by simp, .fraction whole any fraction any' stops⟩
  · refine ⟨ds, rest, rfl, .whole whole any stops fun more point => ?_⟩
    exact by_contra fun digit => pointed ⟨more, point, digit⟩

theorem readable (h : Cut numeral rest) : Readable numeral := by
  cases h with
  | whole digits any => exact .whole digits any
  | fraction whole any fraction any' => exact .fraction whole any fraction any'

theorem longest (h : Cut numeral rest) : Longest (numeral ++ rest) numeral := by
  refine ⟨List.prefix_append _ _, h.readable, fun t begins readable => ?_⟩
  cases h with
  | @whole ds rest digits any stops noPoint =>
    cases readable with
    | whole digits' _ => exact digits_begin digits' stops begins
    | @fraction ds' es whole _ fraction any' =>
      obtain ⟨behind, same⟩ := begins
      rw [List.append_assoc, List.cons_append] at same
      obtain ⟨rfl, rfl⟩ := digits_end whole digits stops same
      -- the point and a digit behind it would have been cut off with the digits
      obtain ⟨c, es, rfl⟩ := List.exists_cons_of_ne_nil any'
      have digit := fraction c List.mem_cons_self
      rw [noPoint _ rfl c rfl] at digit
      cases digit
  | @fraction ds es rest whole any fraction _ stops =>
    rw [List.append_assoc, List.cons_append] at begins
    cases readable with
    | whole digits _ =>
      exact (digits_begin digits (noDigit_point _) begins).trans (List.prefix_append _ _)
    | @fraction ds' es' whole' _ fraction' _ =>
      obtain ⟨behind, same⟩ := begins
      rw [List.append_assoc, List.cons_append] at same
      obtain ⟨rfl, point⟩ := digits_end whole' whole (noDigit_point _) same
      obtain ⟨more, rfl⟩ := digits_begin fraction' stops ⟨behind, (List.cons.inj point).2.symm⟩
      exact ⟨more, by simp⟩

theorem ofRun_eq (h : Cut numeral rest) : ofRun (numeral ++ rest) = ofRun numeral := by
  have leading : leadingNumeral (numeral ++ rest) = leadingNumeral numeral := by
    cases h with
    | @whole ds rest digits any stops noPoint =>
      simp only [leadingNumeral, takeWhile_digits digits stops, dropWhile_digits digits stops,
        Number.takeWhile_digits digits, Number.dropWhile_digits digits]
      split
      · rw [(noPoint _ rfl).takeWhile]
      · rfl
    | @fraction ds es rest whole any fraction any' stops =>
      rw [List.append_assoc, List.cons_append]
      simp only [leadingNumeral, Number.takeWhile_point whole, Number.dropWhile_point whole,
        takeWhile_digits fraction stops, Number.takeWhile_digits fraction]
  rw [ofRun, ofRun, leading]

end Cut

section Cursors

def stopsDigits (cs : List Char) : Bool := cs.head?.any fun c => !c.isDigit

def apart? (a b : Nat) : Option Nat := if b ≤ a then some (a - b) else none

def cut? (run : List Char) : Option (List Char) := do
  let whole := (locate? stopsDigits run).getD (utf8Len run)
  let behind ← sliceFrom? run whole
  if behind.head? = some '.' then
    let inner ← sliceFrom? run (whole + 1)
    let left ← apart? (utf8Len run) whole
    let left ← apart? left 1
    let fraction := (locate? stopsDigits inner).getD left
    slice? run 0 (if 0 < fraction then whole + 1 + fraction else whole)
  else slice? run 0 whole

variable {ds es rest : List Char}

theorem locate?_digits (hd : AllDigits ds) (hs : NoDigit rest) :
    (locate? stopsDigits (ds ++ rest)).getD (utf8Len (ds ++ rest)) = utf8Len ds := by
  induction ds with
  | nil =>
    cases rest with
    | nil => rfl
    | cons c rest =>
      have stops : stopsDigits (c :: rest) = true := by simp [stopsDigits, hs c rfl]
      rw [List.nil_append, locate?, if_pos stops]
      rfl
  | cons d ds ih =>
    have goesOn : ¬ stopsDigits (d :: (ds ++ rest)) = true := by
      simp [stopsDigits, hd d List.mem_cons_self]
    rw [List.cons_append, locate?, if_neg goesOn, utf8Len_cons, utf8Len_cons,
      ← ih fun c hc => hd c (List.mem_cons_of_mem d hc)]
    cases locate? stopsDigits (ds ++ rest) <;> rfl

theorem slice?_start (cs ds : List Char) : slice? (cs ++ ds) 0 (utf8Len cs) = some cs := by
  have slice := Marker.slice?_append [] cs ds
  rwa [List.nil_append, String.utf8Len_nil, Nat.zero_add] at slice

@[simp] theorem apart?_add (a b : Nat) : apart? (a + b) a = some b := by simp [apart?]

theorem cut?_point (hd : AllDigits ds) (he : AllDigits es) (hs : NoDigit rest) :
    cut? (ds ++ '.' :: (es ++ rest)) = some (if es = [] then ds else ds ++ '.' :: es) := by
  have whole := locate?_digits hd (noDigit_point (es ++ rest))
  have fraction := locate?_digits he hs
  have inside : sliceFrom? (ds ++ '.' :: (es ++ rest)) (utf8Len ds + 1) = some (es ++ rest) := by
    have slice := Marker.sliceFrom?_append (ds ++ ['.']) (es ++ rest)
    rwa [utf8Len_append, List.append_assoc] at slice
  have size : utf8Len (ds ++ '.' :: (es ++ rest)) = utf8Len ds + (1 + utf8Len (es ++ rest)) := by
    rw [utf8Len_append, utf8Len_cons, Nat.add_comm 1]
    rfl
  have left : apart? (utf8Len (ds ++ '.' :: (es ++ rest))) (utf8Len ds) =
      some (1 + utf8Len (es ++ rest)) := by rw [size, apart?_add]
  simp only [cut?, whole, Marker.sliceFrom?_append, Option.bind_eq_bind, Option.bind_some,
    List.head?_cons, if_true, inside, left, apart?_add, fraction]
  by_cases none : es = []
  · subst none
    exact slice?_start ds _
  · have more : 0 < utf8Len es := Nat.pos_of_ne_zero fun zero => none (utf8Len_eq_zero.1 zero)
    have pointed := slice?_start (ds ++ '.' :: es) rest
    rw [utf8Len_append, utf8Len_cons, List.append_assoc, List.cons_append] at pointed
    rw [if_pos more, if_neg none, Nat.add_assoc, Nat.add_comm 1]
    exact pointed

theorem Cut.cut? {numeral rest : List Char} (h : Cut numeral rest) :
    Numeral.cut? (numeral ++ rest) = some numeral := by
  cases h with
  | whole digits any stops noPoint =>
    by_cases point : rest.head? = some '.'
    · obtain ⟨more, rfl⟩ := List.head?_eq_some_iff.1 point
      have none : AllDigits [] := List.forall_mem_nil _
      exact cut?_point digits none (noPoint more rfl)
    · have whole := locate?_digits digits stops
      simp only [Numeral.cut?, whole, Marker.sliceFrom?_append, Option.bind_eq_bind,
        Option.bind_some, if_neg point]
      exact slice?_start numeral rest
  | @fraction ds es rest whole _ fraction any stops =>
    rw [List.append_assoc, List.cons_append, cut?_point whole fraction stops, if_neg any]

end Cursors

end Numeral

open Numeral (Readable Longest NoDigit Cut cut?)
open ScanItem (continuesNumber)

/-- The text begins with a number: its first character is a digit, and all digits and points from
there on are the run, of which the numeral is the longest start that can be read. Cursors find the
numeral, and it reads as the number `x`, which is nearest to its value. -/
structure NumberRun (text run behind numeral : List Char) (x : Float) : Prop where
  split : text = run ++ behind
  first : ∃ c ∈ run.head?, c.isDigit = true
  continues : ∀ c ∈ run, continuesNumber c = true
  stops : ∀ c ∈ behind.head?, continuesNumber c = false
  longest : Longest run numeral
  cut : cut? run = some numeral
  read : Number.decimal? numeral = some x
  nearest : ∃ q, Numeral.Decimal numeral false q ∧ Number.Nearest false q x

namespace NumberRun

variable {c : Char} {rest : List Char}

theorem not_nan {text run behind numeral : List Char} {x : Float}
    (h : NumberRun text run behind numeral x) : Number.shape x ≠ .nan := by
  obtain ⟨q, -, nearest⟩ := h.nearest
  exact Numeral.not_nan_of_nearest nearest

theorem of_digit (digit : c.isDigit = true) (rest : List Char) :
    ∃ numeral, NumberRun (c :: rest) (c :: rest.takeWhile continuesNumber)
      (rest.dropWhile continuesNumber) numeral
      (Number.ofRun (c :: rest.takeWhile continuesNumber)) := by
  have starts : ¬ NoDigit (c :: rest.takeWhile continuesNumber) := by
    intro stops
    rw [stops c rfl] at digit
    cases digit
  obtain ⟨numeral, tail, run, cut⟩ := Cut.exists_cut starts
  refine ⟨numeral, ?_, ⟨c, rfl, digit⟩, ?_, Numeral.stops_dropWhile continuesNumber rest,
    run ▸ cut.longest, run ▸ cut.cut?, ?_, ?_⟩
  · rw [List.cons_append, List.takeWhile_append_dropWhile]
  · refine List.forall_mem_cons.2 ⟨?_, fun d hd => List.mem_takeWhile_imp hd⟩
    rw [continuesNumber, digit, Bool.true_or]
  · rw [run, cut.ofRun_eq, cut.readable.decimal?]
  · rw [run, cut.ofRun_eq]
    exact cut.readable.nearest

end NumberRun

namespace ScanItem

variable {c : Char} {rest : List Char} {x : Float}

theorem pair_number {alone : ScanItem × Nat} {second : Char} {both : Sign}
    (h : (pair rest second both alone).1 = lexeme (.number x)) : alone.1 = lexeme (.number x) := by
  unfold pair at h
  split at h
  · cases h
  · exact h

theorem ofWord_ne_number (s : String) : Lexeme.ofWord s ≠ .number x := by
  unfold Lexeme.ofWord
  split <;> nofun

theorem isDigit_of_number (h : (ofChars c rest).1 = lexeme (.number x)) : c.isDigit = true := by
  unfold ofChars at h
  split at h
  case h_2 | h_3 => cases pair_number (pair_number h)
  case h_4 | h_5 | h_6 | h_7 | h_8 | h_9 | h_10 | h_11 => cases pair_number h
  case h_23 =>
    split at h
    · cases h
    · split at h
      · assumption
      · split at h
        · exact absurd (lexeme.inj h) (ofWord_ne_number _)
        · cases h
  all_goals cases h

end ScanItem

theorem Piece.token?_number {piece : Piece} {p q : Position} {x : Float}
    (h : piece.token? p = some ⟨.number x, q⟩) : piece.item = .lexeme (.number x) ∧ q = p := by
  unfold token? at h
  split at h
  · cases h
    exact ⟨‹_›, rfl⟩
  · cases h

theorem scanFrom_digit {c : Char} (digit : c.isDigit = true) (rest : List Char) (p : Position) :
    let run := c :: rest.takeWhile continuesNumber
    scanFrom 0 p (c :: rest) =
      let s := scanFrom 0 (p.after run) (rest.dropWhile continuesNumber)
      { s with tokens := ⟨.number (Number.ofRun run), p⟩ :: s.tokens } := by
  intro run
  have joined : Joined c := .of_continuesNumber (by rw [continuesNumber, digit, Bool.true_or])
  have skipped := scanFrom_skip (p.next c) (rest.takeWhile continuesNumber)
    (rest.dropWhile continuesNumber)
  rw [List.takeWhile_append_dropWhile] at skipped
  rw [scanFrom, joined.not_isBlank, if_neg Bool.false_ne_true, ScanItem.ofChars_digit digit,
    ScanItem.run]
  simp only [skipped, Position.after_cons, run]

theorem numbers_read_longest :
    (∀ c rest q, c.isDigit = true →
      let run := c :: rest.takeWhile continuesNumber
      let behind := rest.dropWhile continuesNumber
      ∃ numeral x, NumberRun (c :: rest) run behind numeral x ∧ Number.shape x ≠ .nan ∧
        scanFrom 0 q (c :: rest) =
          let s := scanFrom 0 (q.after run) behind
          { s with tokens := ⟨.number x, q⟩ :: s.tokens }) ∧
    ∀ source p ts x q, TokenStream.ofSource source p = .ok ts → ⟨.number x, q⟩ ∈ ts.tokens →
      Number.shape x ≠ .nan ∧ ∃ before text run behind numeral,
        source.toList = before ++ text ∧ q = p.after before ∧
        NumberRun text run behind numeral x := by
  constructor
  · intro c rest q digit
    obtain ⟨numeral, number⟩ := NumberRun.of_digit digit rest
    exact ⟨numeral, _, number, number.not_nan, scanFrom_digit digit rest q⟩
  · intro source p ts x q read token
    obtain ⟨pieces, divided⟩ := Divided.exists_pieces [] source.toList
    rw [TokenStream.ofSource_divided divided] at read
    split at read
    · cases read
      obtain ⟨piece, mem, made⟩ := List.mem_filterMap.1 token
      obtain ⟨isNumber, rfl⟩ := Piece.token?_number made
      obtain ⟨passed, more, -, text, item⟩ := divided.found piece mem
      have begins := item.trans isNumber
      have digit := ScanItem.isDigit_of_number begins
      obtain ⟨numeral, number⟩ := NumberRun.of_digit digit more
      rw [ScanItem.ofChars_digit digit] at begins
      cases begins
      exact ⟨number.not_nan, _, _, _, _, numeral, text, rfl, number⟩
    · cases read

theorem dotted_runs_read :
    let rest := ".2.3 + 7..5".toList
    let last : Token := ⟨.number (Number.ofRun "7..5".toList), ⟨1, 9⟩⟩
    let tokens : List Token :=
      [⟨.number (Number.ofRun "1.2.3".toList), ⟨1, 1⟩⟩, Sign.plus.token ⟨1, 7⟩, last]
    '1'.isDigit = true ∧
    (∃ x, NumberRun ('1' :: rest) "1.2.3".toList " + 7..5".toList "1.2".toList x ∧
      Number.shape x ≠ .nan) ∧
    TokenStream.ofSource "1.2.3 + 7..5" .start = .ok ⟨tokens, ⟨1, 13⟩⟩ ∧ last ∈ tokens ∧
    Number.shape (Number.ofRun "7..5".toList) ≠ .nan := by
  intro rest last tokens
  obtain ⟨numeral, x, number, notNaN, -⟩ :=
    numbers_read_longest.1 '1' rest .start (by decide)
  have cut : some "1.2".toList = some numeral := number.cut
  cases cut
  have scanned : TokenStream.ofSource "1.2.3 + 7..5" .start = .ok ⟨tokens, ⟨1, 13⟩⟩ := by rfl
  have mem : last ∈ tokens := by simp [tokens]
  exact ⟨by decide, ⟨x, number, notNaN⟩, scanned, mem,
    (numbers_read_longest.2 _ _ _ _ _ scanned mem).1⟩

end CanvasScript
