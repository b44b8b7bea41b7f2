import CanvasScript.Proofs.Rounding
import CanvasScript.Value.Operators

namespace CanvasScript.Numeral

open Number (digitsValue digitValue? digits? signed exponent? decimal? radixMark? unsigned? ofParts
  ofDecimal Nearest)

inductive Sign : Bool → List Char → Prop
  | absent : Sign false []
  | plus : Sign false ['+']
  | minus : Sign true ['-']

def AllDigits (ds : List Char) : Prop := ∀ c ∈ ds, c.isDigit = true

inductive Mantissa : List Char → List Char → List Char → Prop
  | whole {ds : List Char} : AllDigits ds → ds ≠ [] → Mantissa ds [] ds
  | pointed {ds es : List Char} : AllDigits ds → AllDigits es → ds ≠ [] ∨ es ≠ [] →
      Mantissa ds es (ds ++ '.' :: es)

inductive Exponent : Int → List Char → Prop
  | absent : Exponent 0 []
  | present {mark : Char} {negative : Bool} {sign ds : List Char} : mark = 'e' ∨ mark = 'E' →
      Sign negative sign → AllDigits ds → ds ≠ [] →
      Exponent (if negative then -(digitsValue ds : Int) else digitsValue ds) (mark :: (sign ++ ds))

inductive Decimal : List Char → Bool → ℚ → Prop
  | mk {negative : Bool} {e : Int} {sign ds es mantissa exponent : List Char} :
      Sign negative sign → Mantissa ds es mantissa → Exponent e exponent →
      Decimal (sign ++ (mantissa ++ exponent)) negative
        (digitsValue (ds ++ es) * 10 ^ (e - (es.length : Int)))

section Decimals

variable {t ds es : List Char}

def Unsigned (t : List Char) : Prop := t.head? ≠ some '+' ∧ t.head? ≠ some '-'

theorem signed_spec (t : List Char) :
    ∃ sign, Sign (signed t).1 sign ∧ t = sign ++ (signed t).2 := by
  unfold signed
  split
  · exact ⟨_, .minus, rfl⟩
  · exact ⟨_, .plus, rfl⟩
  · exact ⟨_, .absent, rfl⟩

theorem signed_append {negative : Bool} {sign : List Char} (hs : Sign negative sign)
    (ht : Unsigned t) : signed (sign ++ t) = (negative, t) := by
  cases hs with
  | absent =>
    unfold signed
    split
    · exact absurd (congrArg List.head? ‹_›) ht.2
    · exact absurd (congrArg List.head? ‹_›) ht.1
    · rfl
  | plus => rfl
  | minus => rfl

theorem AllDigits.unsigned (hd : AllDigits ds) (hne : ds ≠ []) (t : List Char) :
    Unsigned (ds ++ t) := by
  obtain ⟨d, ds, rfl⟩ := List.exists_cons_of_ne_nil hne
  have digit := hd d List.mem_cons_self
  constructor <;> rintro ⟨⟩ <;> exact absurd digit (by decide)

theorem exponent?_eq_some_iff {e : Int} : exponent? t = some e ↔ Exponent e t := by
  constructor
  · intro h
    unfold exponent? at h
    split at h
    · cases h
      exact .absent
    · rename_i c rest
      obtain ⟨mark, h⟩ := Option.ite_none_right_eq_some.1 h
      obtain ⟨sign, hs, ht⟩ := signed_spec rest
      dsimp only at h
      obtain ⟨digits, h⟩ := Option.ite_none_left_eq_some.1 h
      simp only [Bool.or_eq_true, List.isEmpty_iff, Bool.not_eq_true', not_or,
        Bool.not_eq_false, List.all_eq_true] at digits
      cases h
      have read := Exponent.present (by simpa using mark) hs digits.2 digits.1
      rwa [← ht] at read
  · rintro (_ | @⟨c, negative, sign, ds, mark, hs, hd, hne⟩)
    · rfl
    · have unsigned := hd.unsigned hne []
      rw [List.append_nil] at unsigned
      have all : ds.all Char.isDigit = true := List.all_eq_true.2 hd
      have marked : (decide (c = 'e') || decide (c = 'E')) = true := by simpa using mark
      simp [exponent?, marked, signed_append hs unsigned, hne, all]

theorem Mantissa.unsigned {mantissa : List Char} (hm : Mantissa ds es mantissa) (t : List Char) :
    Unsigned (mantissa ++ t) := by
  cases hm with
  | whole hd hne => exact hd.unsigned hne t
  | pointed hd =>
    rw [List.append_assoc]
    cases ds with
    | nil => exact ⟨by simp, by simp⟩
    | cons d ds => exact hd.unsigned (List.cons_ne_nil d ds) _

theorem Exponent.start {e : Int} (h : Exponent e t) : t.takeWhile Char.isDigit = [] ∧
    t.dropWhile Char.isDigit = t ∧ t.head? ≠ some '.' := by
  rcases h with _ | ⟨rfl | rfl, -, -, -⟩ <;> exact ⟨rfl, rfl, by simp⟩

def fraction : List Char → List Char × List Char
  | '.' :: rest => (rest.takeWhile Char.isDigit, rest.dropWhile Char.isDigit)
  | rest => ([], rest)

theorem fraction_of_ne (h : t.head? ≠ some '.') : fraction t = ([], t) := by
  unfold fraction
  split
  · exact absurd rfl h
  · rfl

theorem decimal?_eq (t : List Char) : decimal? t =
    if ((signed t).2.takeWhile Char.isDigit).isEmpty &&
        (fraction ((signed t).2.dropWhile Char.isDigit)).1.isEmpty then none
    else (exponent? (fraction ((signed t).2.dropWhile Char.isDigit)).2).bind fun e =>
      some (ofParts (signed t).1 ((signed t).2.takeWhile Char.isDigit)
        (fraction ((signed t).2.dropWhile Char.isDigit)).1 e) := by
  unfold decimal?
  generalize signed t = parts
  obtain ⟨negative, rest⟩ := parts
  dsimp only
  generalize rest.dropWhile Char.isDigit = after
  split
  · rfl
  · rename_i none
    have point : after.head? ≠ some '.' := fun h => by
      obtain ⟨tail, rfl⟩ := List.head?_eq_some_iff.1 h
      exact none tail rfl
    rw [fraction_of_ne point]
    rfl

theorem decimal?_sound {x : Float} (h : decimal? t = some x) :
    ∃ negative q, Decimal t negative q ∧ Nearest negative q x := by
  obtain ⟨sign, hs, ht⟩ := signed_spec t
  rw [decimal?_eq] at h
  generalize signed t = parts at *
  obtain ⟨negative, rest⟩ := parts
  dsimp only at hs ht h
  have whole := List.takeWhile_append_dropWhile (p := Char.isDigit) (l := rest)
  have digits : AllDigits (rest.takeWhile Char.isDigit) := fun c hc => List.mem_takeWhile_imp hc
  generalize rest.takeWhile Char.isDigit = ds at *
  generalize rest.dropWhile Char.isDigit = after at *
  obtain ⟨any, h⟩ := Option.ite_none_left_eq_some.1 h
  simp only [Bool.and_eq_true, List.isEmpty_iff, not_and_or] at any
  obtain ⟨e, he, h⟩ := Option.bind_eq_some_iff.1 h
  cases h
  have he := exponent?_eq_some_iff.1 he
  obtain ⟨mantissa, hm, joined⟩ : ∃ mantissa, Mantissa ds (fraction after).1 mantissa ∧
      rest = mantissa ++ (fraction after).2 := by
    rw [← whole]
    by_cases point : after.head? = some '.'
    · obtain ⟨tail, rfl⟩ := List.head?_eq_some_iff.1 point
      have behind : AllDigits (tail.takeWhile Char.isDigit) := fun c hc => List.mem_takeWhile_imp hc
      refine ⟨ds ++ '.' :: tail.takeWhile Char.isDigit, .pointed digits behind any, ?_⟩
      simp [fraction, List.takeWhile_append_dropWhile]
    · rw [fraction_of_ne point] at any ⊢
      exact ⟨ds, .whole digits (any.resolve_right (by simp)), rfl⟩
  refine ⟨negative, _, ?_, Number.ofDecimal_nearest negative _ _⟩
  rw [ht, joined]
  exact .mk hs hm he

theorem Mantissa.parts {e : Int} {exponent : List Char} (hm : Mantissa ds es t)
    (he : Exponent e exponent) : (t ++ exponent).takeWhile Char.isDigit = ds ∧
      fraction ((t ++ exponent).dropWhile Char.isDigit) = (es, exponent) := by
  obtain ⟨none, rest, plain⟩ := he.start
  cases hm with
  | whole hd =>
    rw [List.takeWhile_append_of_pos hd, List.dropWhile_append_of_pos hd, none, rest,
      List.append_nil, fraction_of_ne plain]
    exact ⟨rfl, rfl⟩
  | pointed hd hes =>
    rw [List.append_assoc, List.takeWhile_append_of_pos hd, List.dropWhile_append_of_pos hd]
    refine ⟨by simp, ?_⟩
    show ((es ++ exponent).takeWhile _, (es ++ exponent).dropWhile _) = _
    rw [List.takeWhile_append_of_pos hes, List.dropWhile_append_of_pos hes, none, rest,
      List.append_nil]

theorem Mantissa.any (hm : Mantissa ds es t) : ds ≠ [] ∨ es ≠ [] := by
  cases hm with
  | whole _ hne => exact .inl hne
  | pointed _ _ hne => exact hne

theorem Decimal.parts {negative : Bool} {q : ℚ} (h : Decimal t negative q) :
    ∃ rest es exponent e, signed t = (negative, rest) ∧
      fraction (rest.dropWhile Char.isDigit) = (es, exponent) ∧ exponent? exponent = some e ∧
      (rest.takeWhile Char.isDigit ≠ [] ∨ es ≠ []) ∧
      q = digitsValue (rest.takeWhile Char.isDigit ++ es) * 10 ^ (e - (es.length : Int)) := by
  obtain ⟨hs, hm, he⟩ := h
  obtain ⟨digits, behind⟩ := hm.parts he
  refine ⟨_, _, _, _, signed_append hs (hm.unsigned _), behind, exponent?_eq_some_iff.2 he, ?_, ?_⟩
  · rw [digits]
    exact hm.any
  · rw [digits]

theorem Decimal.unique {negative negative' : Bool} {q q' : ℚ} (h : Decimal t negative q)
    (h' : Decimal t negative' q') : negative = negative' ∧ q = q' := by
  obtain ⟨rest, es, exponent, e, sign, behind, power, -, rfl⟩ := h.parts
  obtain ⟨rest', es', exponent', e', sign', behind', power', -, rfl⟩ := h'.parts
  obtain ⟨rfl, rfl⟩ := Prod.mk.inj (sign.symm.trans sign')
  obtain ⟨rfl, rfl⟩ := Prod.mk.inj (behind.symm.trans behind')
  cases power.symm.trans power'
  exact ⟨rfl, rfl⟩

theorem decimal?_isSome {negative : Bool} {q : ℚ} (h : Decimal t negative q) :
    (decimal? t).isSome = true := by
  obtain ⟨rest, es, exponent, e, sign, behind, power, any, -⟩ := h.parts
  have digits : ¬ ((rest.takeWhile Char.isDigit).isEmpty && es.isEmpty) = true := by
    simpa only [Bool.and_eq_true, List.isEmpty_iff, not_and_or] using any
  rw [decimal?_eq, sign, behind, if_neg digits, power]
  rfl

end Decimals

inductive Mark : Nat → Char → Prop
  | hexadecimal {c : Char} : c = 'x' ∨ c = 'X' → Mark 16 c
  | octal {c : Char} : c = 'o' ∨ c = 'O' → Mark 8 c
  | binary {c : Char} : c = 'b' ∨ c = 'B' → Mark 2 c

def IsDigitOf (radix : Nat) (c : Char) (d : Nat) : Prop :=
  d < radix ∧ (c = d.digitChar ∨ c = d.digitChar.toUpper)

def Digits (radix : Nat) (ds : List Char) (n : Nat) : Prop :=
  ds ≠ [] ∧ ∃ vs, List.Forall₂ (IsDigitOf radix) ds vs ∧ n = Nat.ofDigits radix vs.reverse

section Radix

variable {radix : Nat} {c : Char} {cs : List Char}

theorem Mark.le (h : Mark radix c) : radix ≤ 16 := by
  cases h <;> decide

theorem isDigitOf_iff {d : Nat} (hr : radix ≤ 16) :
    IsDigitOf radix c d ↔ digitValue? c = some d ∧ d < radix := by
  constructor
  · rintro ⟨hd, spelled⟩
    have values : ∀ d < 16, digitValue? d.digitChar = some d ∧
        digitValue? d.digitChar.toUpper = some d := by decide
    obtain ⟨lower, upper⟩ := values d (Nat.lt_of_lt_of_le hd hr)
    rcases spelled with rfl | rfl
    · exact ⟨lower, hd⟩
    · exact ⟨upper, hd⟩
  · rintro ⟨value, hd⟩
    refine ⟨hd, ?_⟩
    have letters : ∀ d < 16, 10 ≤ d → d.digitChar.toNat = d + 87 ∧
      d.digitChar.toUpper.toNat = d + 55 := by decide
    unfold digitValue? at value
    split at value
    · rename_i digit
      cases value
      exact .inl (Number.digitChar_of_isDigit digit).2.symm
    · split at value
      · rename_i lower
        have first : 97 ≤ c.toNat := UInt32.le_iff_toNat_le.1 lower.1
        have count : c.toNat - 97 + 10 = d := Option.some.inj value
        refine .inl (Char.toNat_inj.1 ?_)
        rw [(letters d (by omega) (by omega)).1]
        omega
      · obtain ⟨upper, value⟩ := Option.ite_none_right_eq_some.1 value
        have first : 65 ≤ c.toNat := UInt32.le_iff_toNat_le.1 upper.1
        have count : c.toNat - 65 + 10 = d := Option.some.inj value
        refine .inr (Char.toNat_inj.1 ?_)
        rw [(letters d (by omega) (by omega)).2]
        omega

def readDigit (radix : Nat) (acc : Option Nat) (c : Char) : Option Nat := do
  let value ← acc
  let d ← digitValue? c
  if d < radix then some (value * radix + d) else none

theorem foldl_readDigit_none : cs.foldl (readDigit radix) none = none := by
  induction cs with
  | nil => rfl
  | cons c cs ih => exact ih

theorem readDigit_eq_some_iff (hr : radix ≤ 16) {a b : Nat} :
    readDigit radix (some a) c = some b ↔ ∃ d, IsDigitOf radix c d ∧ b = a * radix + d := by
  simp only [isDigitOf_iff hr]
  unfold readDigit
  cases digitValue? c with
  | none => simp
  | some d =>
    by_cases hd : d < radix
    · simp [hd, eq_comm]
    · simp [hd]

theorem add_ofDigits_cons (a d : Nat) (vs : List Nat) :
    (a * radix + d) * radix ^ vs.length + Nat.ofDigits radix vs.reverse =
      a * radix ^ (vs.length + 1) + Nat.ofDigits radix (d :: vs).reverse := by
  rw [List.reverse_cons, Nat.ofDigits_append, Nat.ofDigits_singleton, List.length_reverse, pow_succ]
  ring

theorem foldl_readDigit (hr : radix ≤ 16) {a n : Nat} :
    cs.foldl (readDigit radix) (some a) = some n ↔
      ∃ vs, List.Forall₂ (IsDigitOf radix) cs vs ∧
        n = a * radix ^ vs.length + Nat.ofDigits radix vs.reverse := by
  induction cs generalizing a with
  | nil => simp [eq_comm]
  | cons c cs ih =>
    rw [List.foldl_cons]
    constructor
    · intro h
      cases first : readDigit radix (some a) c with
      | none =>
        rw [first, foldl_readDigit_none] at h
        cases h
      | some b =>
        obtain ⟨d, hd, rfl⟩ := (readDigit_eq_some_iff hr).1 first
        rw [first] at h
        obtain ⟨vs, digits, rfl⟩ := ih.1 h
        exact ⟨d :: vs, .cons hd digits, add_ofDigits_cons a d vs⟩
    · rintro ⟨_, digits, rfl⟩
      cases digits with
      | @cons _ d _ vs hd digits =>
        rw [(readDigit_eq_some_iff hr).2 ⟨d, hd, rfl⟩, ih]
        exact ⟨vs, digits, (add_ofDigits_cons a d vs).symm⟩

theorem digits?_eq_some_iff (hr : radix ≤ 16) (hne : cs ≠ []) {n : Nat} :
    digits? radix cs = some n ↔ Digits radix cs n := by
  have start : digits? radix cs = cs.foldl (readDigit radix) (some 0) := rfl
  rw [start, foldl_readDigit hr]
  simp [Digits, hne]

theorem Digits.head?_ne (hr : radix ≤ 16) {n : Nat} (h : Digits radix cs n) :
    cs.head? ≠ some '+' := by
  obtain ⟨-, vs, digits, -⟩ := h
  cases digits with
  | nil => simp
  | cons digit =>
    rintro ⟨⟩
    have value := ((isDigitOf_iff hr).1 digit).1
    cases value

theorem Digits.unique (hr : radix ≤ 16) {n m : Nat} (hn : Digits radix cs n)
    (hm : Digits radix cs m) : n = m := by
  rw [← digits?_eq_some_iff hr hn.1] at hn
  rw [← digits?_eq_some_iff hr hm.1, hn] at hm
  exact Option.some.inj hm

theorem ite_digits?_eq_some_iff (hr : radix ≤ 16) {n : Nat} : (if cs.isEmpty then none else
    match digits? radix cs with
    | some n => if n < Number.pow2 64 then some n else none
    | none => none) = some n ↔ n < Number.pow2 64 ∧ Digits radix cs n := by
  cases cs with
  | nil => simp [Digits]
  | cons c cs =>
    rw [← digits?_eq_some_iff hr (List.cons_ne_nil c cs)]
    cases digits? radix (c :: cs) with
    | none => simp
    | some m =>
      show (if m < Number.pow2 64 then some m else none) = some n ↔ _
      rw [Option.ite_none_right_eq_some]
      constructor <;> rintro ⟨small, ⟨⟩⟩ <;> exact ⟨small, rfl⟩

theorem unsigned?_eq_some_iff (hr : radix ≤ 16) {n : Nat} : unsigned? radix cs = some n ↔
    n < Number.pow2 64 ∧ (Digits radix cs n ∨ ∃ ds, cs = '+' :: ds ∧ Digits radix ds n) := by
  unfold unsigned?
  split
  · rename_i ds
    refine (ite_digits?_eq_some_iff hr).trans (and_congr_right fun _ => ?_)
    constructor
    · exact fun digits => .inr ⟨ds, rfl, digits⟩
    · rintro (digits | ⟨_, ⟨⟩, digits⟩)
      · exact absurd rfl (digits.head?_ne hr)
      · exact digits
  · rename_i plain
    refine (ite_digits?_eq_some_iff hr).trans (and_congr_right fun _ => (or_iff_left ?_).symm)
    rintro ⟨ds, same, -⟩
    exact plain ds same

theorem radixMark?_eq_some_iff {t : List Char} :
    radixMark? t = some (radix, cs) ↔ ∃ mark, Mark radix mark ∧ t = '0' :: mark :: cs := by
  constructor
  · intro h
    unfold radixMark? at h
    split at h
    · rename_i mark rest
      simp only [Bool.or_eq_true, decide_eq_true_eq] at h
      split at h
      · rename_i marked
        cases h
        exact ⟨mark, .hexadecimal marked, rfl⟩
      · split at h
        · rename_i marked
          cases h
          exact ⟨mark, .octal marked, rfl⟩
        · obtain ⟨marked, h⟩ := Option.ite_none_right_eq_some.1 h
          cases h
          exact ⟨mark, .binary marked, rfl⟩
    · cases h
  · rintro ⟨mark, hm, rfl⟩
    cases hm <;> (rename_i hm; rcases hm with rfl | rfl <;> rfl)

end Radix

/-- A numeric literal, blanks around it apart, and the number nearest to its value. Nothing at all
is zero. -/
inductive Literal : List Char → Float → Prop
  | empty {x : Float} : Nearest false 0 x → Literal [] x
  | infinity {negative : Bool} {sign : List Char} {x : Float} : Sign negative sign →
      Number.shape x = .infinite negative → Literal (sign ++ "Infinity".toList) x
  | radix {radix n : Nat} {mark : Char} {ds : List Char} {x : Float} : Mark radix mark →
      Digits radix ds n → Nearest false n x → Literal ('0' :: mark :: ds) x
  | decimal {t : List Char} {negative : Bool} {q : ℚ} {x : Float} : Decimal t negative q →
      Nearest negative q x → Literal t x

def Means (t : List Char) (x : Float) : Prop :=
  Literal t x ∨ (∀ y, ¬ Literal t y) ∧ Number.shape x = .nan

def PlusBehindMark (t : List Char) (n : Nat) : Prop :=
  ∃ radix mark ds, t = '0' :: mark :: '+' :: ds ∧ Mark radix mark ∧ Digits radix ds n ∧
    n < Number.pow2 64

def TooLarge (t : List Char) : Prop :=
  ∃ radix mark ds n, t = '0' :: mark :: ds ∧ Mark radix mark ∧ Digits radix ds n ∧
    Number.pow2 64 ≤ n

section Reading

variable {t : List Char} {x : Float}

theorem not_nan_of_nearest {negative : Bool} {q : ℚ} (h : Nearest negative q x) :
    Number.shape x ≠ .nan := by
  cases h with
  | finite _ hs => simp [hs]
  | infinite _ hs => simp [hs]

theorem Literal.not_nan (h : Literal t x) : Number.shape x ≠ .nan := by
  cases h with
  | empty hx => exact not_nan_of_nearest hx
  | infinity _ hx => simp [hx]
  | radix _ _ hx => exact not_nan_of_nearest hx
  | decimal _ hx => exact not_nan_of_nearest hx

def Plain (c : Char) : Prop := c.isDigit = true ∨ c ∈ ['.', '+', '-', 'e', 'E']

theorem Sign.plain {negative : Bool} {sign : List Char} (h : Sign negative sign) :
    ∀ c ∈ sign, Plain c := by
  cases h <;> simp [Plain]

theorem AllDigits.plain {ds : List Char} (h : AllDigits ds) : ∀ c ∈ ds, Plain c :=
  fun c hc => .inl (h c hc)

theorem Mantissa.plain {ds es : List Char} (h : Mantissa ds es t) : ∀ c ∈ t, Plain c := by
  cases h with
  | whole hd => exact hd.plain
  | pointed hd hes =>
    rw [List.forall_mem_append, List.forall_mem_cons]
    exact ⟨hd.plain, .inr (by simp), hes.plain⟩

theorem Exponent.plain {e : Int} (h : Exponent e t) : ∀ c ∈ t, Plain c := by
  cases h with
  | absent => exact nofun
  | present mark hs hd =>
    rw [List.forall_mem_cons, List.forall_mem_append]
    exact ⟨.inr (by rcases mark with rfl | rfl <;> simp), hs.plain, hd.plain⟩

theorem Decimal.plain {negative : Bool} {q : ℚ} (h : Decimal t negative q) : ∀ c ∈ t, Plain c := by
  cases h with
  | mk hs hm he =>
    rw [List.forall_mem_append, List.forall_mem_append]
    exact ⟨hs.plain, hm.plain, he.plain⟩

theorem Mark.not_plain {radix : Nat} {c : Char} (h : Mark radix c) : ¬ Plain c := by
  cases h <;> (rename_i h; rcases h with rfl | rfl <;> simp [Plain])

theorem Mark.unique {radix radix' : Nat} {c : Char} (h : Mark radix c) (h' : Mark radix' c) :
    radix = radix' := by
  have mark : radixMark? ['0', c] = some (radix, []) := radixMark?_eq_some_iff.2 ⟨c, h, rfl⟩
  have mark' : radixMark? ['0', c] = some (radix', []) := radixMark?_eq_some_iff.2 ⟨c, h', rfl⟩
  exact congrArg Prod.fst (Option.some.inj (mark.symm.trans mark'))

theorem literal_marked {radix : Nat} {mark : Char} {ds : List Char} (hm : Mark radix mark) :
    Literal ('0' :: mark :: ds) x ↔ ∃ n, Digits radix ds n ∧ Nearest false n x := by
  constructor
  · intro h
    generalize ht : '0' :: mark :: ds = t at h
    cases h with
    | empty => cases ht
    | infinity hs => cases hs <;> cases ht
    | radix hm' digits hx =>
      cases ht
      cases hm.unique hm'
      exact ⟨_, digits, hx⟩
    | decimal h =>
      subst ht
      exact absurd (h.plain mark (by simp)) hm.not_plain
  · rintro ⟨n, digits, hx⟩
    exact .radix hm digits hx

theorem Decimal.ne_nil {negative : Bool} {q : ℚ} (h : Decimal t negative q) : t ≠ [] := by
  rintro rfl
  have some := decimal?_isSome h
  cases some

theorem literal_infinity {negative : Bool} {sign : List Char} (hs : Sign negative sign)
    (h : Literal (sign ++ "Infinity".toList) x) : Number.shape x = .infinite negative := by
  generalize ht : sign ++ "Infinity".toList = t at h
  cases h with
  | empty => cases hs <;> cases ht
  | infinity hs' hx => cases hs <;> cases hs' <;> first | exact hx | cases ht
  | radix => cases hs <;> cases ht
  | decimal h =>
    have plain := h.plain 'I' (ht ▸ List.mem_append_right _ List.mem_cons_self)
    simp [Plain] at plain

theorem Literal.unique (h : Literal t x) {y : Float} (h' : Literal t y) :
    Number.shape x = Number.shape y := by
  cases h with
  | empty hx =>
    generalize ht : ([] : List Char) = t at h'
    cases h' with
    | empty hy => exact hx.unique hy
    | infinity hs => cases hs <;> cases ht
    | radix => cases ht
    | decimal h => exact absurd ht.symm h.ne_nil
  | infinity hs hx => rw [hx, literal_infinity hs h']
  | radix hm digits hx =>
    obtain ⟨n, digits', hy⟩ := (literal_marked hm).1 h'
    cases digits.unique hm.le digits'
    exact hx.unique hy
  | decimal h hx =>
    cases h' with
    | empty => exact absurd rfl h.ne_nil
    | infinity hs hy => rw [hy, literal_infinity hs (.decimal h hx)]
    | radix hm => exact absurd (h.plain _ (by simp)) hm.not_plain
    | decimal h' hy =>
      obtain ⟨rfl, rfl⟩ := h.unique h'
      exact hx.unique hy

theorem Means.unique (h : Means t x) {y : Float} (h' : Means t y) :
    Number.shape x = Number.shape y := by
  rcases h with literal | ⟨none, nan⟩ <;> rcases h' with literal' | ⟨none', nan'⟩
  · exact literal.unique literal'
  · exact absurd literal (none' x)
  · exact absurd literal' (none y)
  · rw [nan, nan']

theorem plusBehindMark_iff {radix n : Nat} {mark : Char} {rest : List Char}
    (hm : Mark radix mark) : PlusBehindMark ('0' :: mark :: rest) n ↔
      ∃ ds, rest = '+' :: ds ∧ Digits radix ds n ∧ n < Number.pow2 64 := by
  constructor
  · rintro ⟨radix', mark', ds, same, hm', digits, small⟩
    cases same
    cases hm.unique hm'
    exact ⟨ds, rfl, digits, small⟩
  · rintro ⟨ds, rfl, digits, small⟩
    exact ⟨radix, mark, ds, rfl, hm, digits, small⟩

theorem tooLarge_iff {radix : Nat} {mark : Char} {rest : List Char} (hm : Mark radix mark) :
    TooLarge ('0' :: mark :: rest) ↔ ∃ n, Digits radix rest n ∧ Number.pow2 64 ≤ n := by
  constructor
  · rintro ⟨radix', mark', ds, n, same, hm', digits, large⟩
    cases same
    cases hm.unique hm'
    exact ⟨n, digits, large⟩
  · rintro ⟨n, digits, large⟩
    exact ⟨radix, mark, rest, n, rfl, hm, digits, large⟩

/-- What a text is converted to. It is what the text means, but for two kinds of texts behind radix
marks: a plus is read although it makes no literal, and a large literal is taken for none. -/
structure Converted (t : List Char) (x : Float) : Prop where
  means : Means t x ↔ (∀ n, ¬ PlusBehindMark t n) ∧ ¬ TooLarge t
  plus : ∀ n, PlusBehindMark t n → Nearest false n x
  large : TooLarge t → Number.shape x = .nan

theorem ofNat_nearest (n : Nat) : Nearest false n (Number.ofNat n) := by
  have nearest := Number.nearest_nearest false n Nat.one_pos
  rwa [Nat.cast_one, div_one] at nearest

theorem shape_nan : Number.shape Number.nan = .nan := by
  unfold Number.nan
  rw [Number.shape_ofBits]
  decide

theorem converted_marked {radix : Nat} {mark : Char} {rest : List Char} (hm : Mark radix mark) :
    Converted ('0' :: mark :: rest)
      (((unsigned? radix rest).map Number.ofNat).getD Number.nan) := by
  have read (n : Nat) : unsigned? radix rest = some n ↔ n < Number.pow2 64 ∧
      (Digits radix rest n ∨ ∃ ds, rest = '+' :: ds ∧ Digits radix ds n) :=
    unsigned?_eq_some_iff hm.le
  cases hu : unsigned? radix rest with
  | none =>
    -- There are no digits, or too many of them.
    have unread (n : Nat) (small : n < Number.pow2 64) : ¬ Digits radix rest n ∧
        ¬ ∃ ds, rest = '+' :: ds ∧ Digits radix ds n := by
      refine not_or.1 fun digits => ?_
      cases hu.symm.trans ((read n).2 ⟨small, digits⟩)
    have noPlus (n : Nat) : ¬ PlusBehindMark ('0' :: mark :: rest) n := by
      rw [plusBehindMark_iff hm]
      rintro ⟨ds, same, digits, small⟩
      exact (unread n small).2 ⟨ds, same, digits⟩
    refine ⟨⟨?_, ?_⟩, fun n plus => absurd plus (noPlus n), fun _ => shape_nan⟩
    · rintro (literal | ⟨none, -⟩)
      · exact absurd shape_nan literal.not_nan
      · refine ⟨noPlus, fun large => ?_⟩
        obtain ⟨n, digits, -⟩ := (tooLarge_iff hm).1 large
        exact none _ ((literal_marked hm).2 ⟨n, digits, ofNat_nearest n⟩)
    · rintro ⟨-, fits⟩
      refine .inr ⟨fun y literal => ?_, shape_nan⟩
      obtain ⟨n, digits, -⟩ := (literal_marked hm).1 literal
      rcases Nat.lt_or_ge n (Number.pow2 64) with small | large
      · exact (unread n small).1 digits
      · exact fits ((tooLarge_iff hm).2 ⟨n, digits, large⟩)
  | some n =>
    obtain ⟨small, digits | ⟨ds, rfl, digits⟩⟩ := (read n).1 hu
    · -- Digits alone are a literal.
      have noPlus (m : Nat) : ¬ PlusBehindMark ('0' :: mark :: rest) m := by
        rw [plusBehindMark_iff hm]
        rintro ⟨ds, rfl, -⟩
        exact digits.head?_ne hm.le rfl
      have fits : ¬ TooLarge ('0' :: mark :: rest) := by
        rw [tooLarge_iff hm]
        rintro ⟨m, digits', large⟩
        cases digits.unique hm.le digits'
        exact absurd small (Nat.not_lt.2 large)
      refine ⟨iff_of_true (.inl ?_) ⟨noPlus, fits⟩, fun m plus => absurd plus (noPlus m),
        fun large => absurd large fits⟩
      exact (literal_marked hm).2 ⟨n, digits, ofNat_nearest n⟩
    · -- Digits behind a plus are read, but they are no literal.
      have plus : PlusBehindMark ('0' :: mark :: '+' :: ds) n :=
        (plusBehindMark_iff hm).2 ⟨ds, rfl, digits, small⟩
      refine ⟨iff_of_false ?_ fun h => h.1 n plus, fun m plus' => ?_, fun large => ?_⟩
      · rintro (literal | ⟨-, nan⟩)
        · obtain ⟨m, digits', -⟩ := (literal_marked hm).1 literal
          exact digits'.head?_ne hm.le rfl
        · exact not_nan_of_nearest (ofNat_nearest n) nan
      · obtain ⟨_, ⟨⟩, digits', -⟩ := (plusBehindMark_iff hm).1 plus'
        cases digits.unique hm.le digits'
        exact ofNat_nearest n
      · obtain ⟨m, digits', -⟩ := (tooLarge_iff hm).1 large
        exact absurd rfl (digits'.head?_ne hm.le)

theorem converted_unmarked (h : radixMark? t = none) (means : Means t x) : Converted t x := by
  have unmarked {radix : Nat} {mark : Char} {rest : List Char} (hm : Mark radix mark) :
      t ≠ '0' :: mark :: rest := fun same => by
    cases h.symm.trans (radixMark?_eq_some_iff.2 ⟨mark, hm, same⟩)
  have noPlus (n : Nat) : ¬ PlusBehindMark t n :=
    fun ⟨_, _, _, same, hm, _⟩ => unmarked hm same
  have fits : ¬ TooLarge t := fun ⟨_, _, _, _, same, hm, _⟩ => unmarked hm same
  exact ⟨iff_of_true means ⟨noPlus, fits⟩, fun n plus => absurd plus (noPlus n),
    fun large => absurd large fits⟩

theorem means_decimal (hne : t ≠ []) (hi : ∀ negative sign, Sign negative sign →
    t ≠ sign ++ "Infinity".toList) (h : radixMark? t = none) :
    Means t ((decimal? t).getD Number.nan) := by
  cases hd : decimal? t with
  | some y =>
    obtain ⟨negative, q, decimal, nearest⟩ := decimal?_sound hd
    exact .inl (.decimal decimal nearest)
  | none =>
    refine .inr ⟨fun y literal => ?_, shape_nan⟩
    cases literal with
    | empty => exact hne rfl
    | infinity hs => exact hi _ _ hs rfl
    | radix hm => cases h.symm.trans (radixMark?_eq_some_iff.2 ⟨_, hm, rfl⟩)
    | decimal decimal =>
      have some := decimal?_isSome decimal
      rw [hd] at some
      cases some

end Reading

theorem toNumber_text (h : Heap) (s : String) :
    Converted (Text.trimmed s.toList) ((Value.text s).toNumber h) := by
  show Converted _ (Number.ofText s)
  unfold Number.ofText
  generalize Text.trimmed s.toList = t
  dsimp only
  split
  · rename_i empty
    obtain rfl := List.isEmpty_iff.1 empty
    have nearest := Number.nearest_nearest false 0 Nat.one_pos
    rw [Nat.cast_zero, zero_div] at nearest
    exact converted_unmarked rfl (.inl (.empty nearest))
  · rename_i nonempty
    split
    · rename_i word
      simp only [Bool.or_eq_true, decide_eq_true_eq] at word
      rcases word with rfl | rfl
      · exact converted_unmarked rfl (.inl (.infinity .absent (Number.shape_infinity false)))
      · exact converted_unmarked rfl (.inl (.infinity .plus (Number.shape_infinity false)))
    · rename_i positive
      split
      · rename_i word
        subst word
        exact converted_unmarked rfl (.inl (.infinity .minus (Number.shape_infinity true)))
      · rename_i minus
        simp only [Bool.or_eq_true, decide_eq_true_eq, not_or] at positive
        split
        · rename_i radix rest marked
          obtain ⟨mark, hm, rfl⟩ := radixMark?_eq_some_iff.1 marked
          exact converted_marked hm
        · rename_i unmarked
          refine converted_unmarked unmarked (means_decimal ?_ ?_ unmarked)
          · rwa [List.isEmpty_iff] at nonempty
          · rintro negative sign (_ | _ | _)
            · exact positive.1
            · exact positive.2
            · exact minus

theorem plus_behind_mark :
    ¬ Means (Text.trimmed "0x+1".toList) ((Value.text "0x+1").toNumber .empty) := by
  have text : Text.trimmed "0x+1".toList = ['0', 'x', '+', '1'] := by decide
  have mark : Mark 16 'x' := .hexadecimal (.inl rfl)
  have one : Digits 16 ['1'] 1 := by
    rw [← digits?_eq_some_iff (by decide) (by simp)]
    decide
  have number : (Value.text "0x+1").toNumber .empty =
      ((unsigned? 16 ['+', '1']).map Number.ofNat).getD Number.nan := by
    show Number.ofText "0x+1" = _
    unfold Number.ofText
    rw [text]
    rfl
  rw [text, number]
  intro means
  exact ((converted_marked mark).means.1 means).1 1
    ((plusBehindMark_iff mark).2 ⟨_, rfl, one, by decide⟩)

end CanvasScript.Numeral
