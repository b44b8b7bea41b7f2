import CanvasScript.Proofs.Documents.Numerals
import CanvasScript.Proofs.Equality
import CanvasScript.Proofs.Interpolation
import CanvasScript.Proofs.Numerals
import CanvasScript.Proofs.Sums

namespace CanvasScript.Number

variable {x y : Float} {negative : Bool} {m : Nat} {e : Int} {q v : ℚ}

def Decimal.value (d : Decimal) : ℚ := d.digits * 10 ^ d.exponent

structure Around (m : Nat) (e : Int) (q : ℚ) : Prop where
  low : ((m : ℚ) - 1 / 2) * 2 ^ e ≤ q
  narrow : m = pow2 storedBits → leastExponent < e → ((m : ℚ) - 1 / 4) * 2 ^ e ≤ q
  high : q ≤ ((m : ℚ) + 1 / 2) * 2 ^ e
  strict : ¬ Even m → ((m : ℚ) - 1 / 2) * 2 ^ e < q ∧ q < ((m : ℚ) + 1 / 2) * 2 ^ e

section Cuts

theorem zpow_mul_toNat {b : ℚ} (hb : b ≠ 0) (p : Int) : b ^ p * b ^ (-p).toNat = b ^ p.toNat := by
  rcases le_total 0 p with hp | hp
  · obtain ⟨k, rfl⟩ := Int.eq_ofNat_of_zero_le hp
    simp
  · obtain ⟨k, rfl⟩ : ∃ k : Nat, p = -k := ⟨(-p).toNat, by omega⟩
    simp [hb]

variable (a d : Nat) (j p : Int)

theorem cut_pos : (0 : ℚ) < 2 ^ (-j).toNat * 10 ^ (-p).toNat := by positivity

theorem cast_binary : ((a * pow2 j.toNat * pow10 (-p).toNat : Nat) : ℚ) =
    a * 2 ^ j * (2 ^ (-j).toNat * 10 ^ (-p).toNat) := by
  have two := zpow_mul_toNat (two_ne_zero (α := ℚ)) j
  simp only [pow2, pow10, Nat.pow_eq]
  push_cast
  rw [← two]
  ring

theorem cast_decimal : ((d * pow10 p.toNat * pow2 (-j).toNat : Nat) : ℚ) =
    d * 10 ^ p * (2 ^ (-j).toNat * 10 ^ (-p).toNat) := by
  have ten := zpow_mul_toNat (b := (10 : ℚ)) (by norm_num) p
  simp only [pow2, pow10, Nat.pow_eq]
  push_cast
  rw [← ten]
  ring

theorem binary_le_decimal : a * pow2 j.toNat * pow10 (-p).toNat ≤
    d * pow10 p.toNat * pow2 (-j).toNat ↔ (a : ℚ) * 2 ^ j ≤ d * 10 ^ p := by
  rw [← Nat.cast_le (α := ℚ), cast_binary, cast_decimal, mul_le_mul_iff_left₀ (cut_pos j p)]

theorem decimal_le_binary : d * pow10 p.toNat * pow2 (-j).toNat ≤
    a * pow2 j.toNat * pow10 (-p).toNat ↔ (d : ℚ) * 10 ^ p ≤ a * 2 ^ j := by
  rw [← Nat.cast_le (α := ℚ), cast_binary, cast_decimal, mul_le_mul_iff_left₀ (cut_pos j p)]

end Cuts

section Shortest

variable {d : Nat} {p : Int}

theorem quarters (c : ℚ) (e : Int) : c * 2 ^ e = 4 * c * 2 ^ (e - 2) := by
  rw [zpow_sub₀ two_ne_zero]
  norm_num
  ring

theorem cast_quarters {c : Nat} (h : c ≤ 4 * m) (e : Int) :
    ((4 * m - c : Nat) : ℚ) * 2 ^ (e - 2) = ((m : ℚ) - c / 4) * 2 ^ e := by
  rw [quarters ((m : ℚ) - c / 4), Nat.cast_sub h]
  push_cast
  ring

theorem around_of_contains (hm : 0 < m) (h : (RoundingInterval.of m e).contains d p = true) :
    Around m e (d * 10 ^ p) := by
  have low (c : Nat) := binary_le_decimal c d (e - 2) p
  have low' (c : Nat) := decimal_le_binary c d (e - 2) p
  have high : ((4 * m + 2 : Nat) : ℚ) * 2 ^ (e - 2) = ((m : ℚ) + 1 / 2) * 2 ^ e := by
    rw [quarters ((m : ℚ) + 1 / 2)]
    push_cast
    ring
  have half := cast_quarters (m := m) (c := 2) (by omega) e
  have quarter := cast_quarters (m := m) (c := 1) (by omega) e
  have step : ((m : ℚ) - 1 / 2) * 2 ^ e ≤ ((m : ℚ) - 1 / 4) * 2 ^ e := by
    gcongr
    norm_num
  norm_num at half quarter
  simp only [neg_sub] at low low'
  unfold RoundingInterval.contains RoundingInterval.of at h
  dsimp only at h
  simp only [Bool.and_eq_true, decide_eq_true_eq, ← Nat.not_le, low, low', high] at h
  by_cases narrow : m = pow2 storedBits ∧ leastExponent < e
  · have even : m % 2 = 0 := narrow.1 ▸ by decide
    rw [if_pos even, if_pos narrow] at h
    simp only [Bool.and_eq_true, decide_eq_true_eq, quarter] at h
    exact ⟨step.trans h.1, fun _ _ => h.1, h.2, fun odd => absurd (Nat.even_iff.2 even) odd⟩
  · have wide (first : m = pow2 storedBits) (above : leastExponent < e) :
        ((m : ℚ) - 1 / 4) * 2 ^ e ≤ d * 10 ^ p := absurd ⟨first, above⟩ narrow
    by_cases even : m % 2 = 0
    · rw [if_pos even, if_neg narrow] at h
      simp only [Bool.and_eq_true, decide_eq_true_eq, half] at h
      exact ⟨h.1, wide, h.2, fun odd => absurd (Nat.even_iff.2 even) odd⟩
    · rw [if_neg even, if_neg narrow] at h
      simp only [Bool.and_eq_true, decide_eq_true_eq, half, not_le] at h
      exact ⟨h.1.le, wide, h.2.le, fun _ => h⟩

theorem around_exact (m : Nat) (e : Int) : Around m e (m * 2 ^ e) := by
  have unit : (0 : ℚ) < 2 ^ e := by positivity
  constructor
  · linarith
  · intros
    linarith
  · linarith
  · intro _
    constructor <;> linarith

theorem exactDecimal_value (m : Nat) (e : Int) : (exactDecimal m e).value = m * 2 ^ e := by
  unfold exactDecimal
  split
  · rename_i he
    obtain ⟨k, rfl⟩ := Int.eq_ofNat_of_zero_le he
    simp [Decimal.value, pow2]
  · rename_i he
    obtain ⟨k, rfl⟩ : ∃ k : Nat, e = -k := ⟨(-e).toNat, by omega⟩
    have ten : (10 : ℚ) ^ k = 5 ^ k * 2 ^ k := by
      rw [← mul_pow]
      norm_num
    simp only [Decimal.value, neg_neg, Int.toNat_natCast, Nat.pow_eq, zpow_neg, zpow_natCast, ten]
    push_cast
    field_simp

theorem shortest_around (halfway : Halfway) (hm : 0 < m) (e : Int) :
    Around m e (shortest halfway m e).value := by
  rcases shortest_eq halfway m e with found | exact
  · exact around_of_contains hm found
  · rw [exact, exactDecimal_value]
    exact around_exact m e

end Shortest

section Neighbours

variable {negative' : Bool} {m' : Nat} {e' : Int}

theorem lower_exponent (hs' : shape y = .finite negative' m' e') (h : e' < e) :
    (m' : ℚ) * 2 ^ e' ≤ (2 ^ 52 - 1 / 2) * 2 ^ e := by
  have small : (m' : ℚ) ≤ 2 ^ 53 - 1 := by
    have less : m' < 2 ^ 53 := mantissa_lt hs'
    have : (m' : ℚ) + 1 ≤ 2 ^ 53 := by exact_mod_cast less
    linarith
  calc (m' : ℚ) * 2 ^ e'
    _ ≤ (2 ^ 53 - 1) * 2 ^ e' := by gcongr
    _ ≤ (2 ^ 53 - 1) * 2 ^ (e - 1) :=
      mul_le_mul_of_nonneg_left (zpow_le_zpow_right₀ one_le_two (by omega)) (by norm_num)
    _ = (2 ^ 52 - 1 / 2) * 2 ^ e := by
      rw [zpow_sub_one₀ two_ne_zero]
      ring

theorem higher_exponent (hs : shape x = .finite negative m e)
    (hs' : shape y = .finite negative' m' e') (h : e < e') :
    ((m : ℚ) + 1) * 2 ^ e ≤ m' * 2 ^ e' := by
  have normal : leastExponent < e' := (leastExponent_le hs).trans_lt h
  have large : (2 : ℚ) ^ 52 ≤ m' := by exact_mod_cast le_mantissa hs' normal.ne'
  have small : (m : ℚ) + 1 ≤ 2 ^ 53 := by
    have less : m < 2 ^ 53 := mantissa_lt hs
    exact_mod_cast less
  calc ((m : ℚ) + 1) * 2 ^ e
    _ ≤ 2 ^ 53 * 2 ^ e := by gcongr
    _ ≤ 2 ^ 52 * 2 ^ e' := mul_two_zpow_le h
    _ ≤ m' * 2 ^ e' := by gcongr

theorem neighbours (hs : shape x = .finite negative m e) (hm : 0 < m) (hv : value? y = some v) :
    v = m * 2 ^ e ∨ ((m : ℚ) + 1) * 2 ^ e ≤ v ∨ v ≤ ((m : ℚ) - 1) * 2 ^ e ∨
      (m = pow2 storedBits ∧ leastExponent < e ∧ v ≤ ((m : ℚ) - 1 / 2) * 2 ^ e) := by
  obtain ⟨negative', m', e', hs', rfl⟩ := value?_eq_some hv
  have unit : (0 : ℚ) < 2 ^ e := by positivity
  have one : (1 : ℚ) ≤ m := by exact_mod_cast hm
  cases negative' with
  | true =>
    have size : (0 : ℚ) ≤ m' * 2 ^ e' := by positivity
    refine .inr (.inr (.inl ?_))
    calc (if true = true then -1 else 1) * (m' : ℚ) * 2 ^ e'
      _ ≤ 0 := by
        rw [if_pos rfl]
        linarith
      _ ≤ ((m : ℚ) - 1) * 2 ^ e := mul_nonneg (by linarith) unit.le
  | false =>
    rw [if_neg Bool.false_ne_true, one_mul]
    -- Nearer than a step comes only a lower exponent, and only to the least mantissa.
    rcases lt_trichotomy e' e with below | rfl | above
    · have close := lower_exponent hs' below
      have normal : leastExponent < e := (leastExponent_le hs').trans_lt below
      have large : 2 ^ 52 ≤ m := le_mantissa hs normal.ne'
      rcases large.eq_or_lt with first | later
      · have least : (m : ℚ) = 2 ^ 52 := by exact_mod_cast first.symm
        exact .inr (.inr (.inr ⟨first.symm, normal, least ▸ close⟩))
      · have room : (2 : ℚ) ^ 52 + 1 ≤ m := by exact_mod_cast later
        refine .inr (.inr (.inl (close.trans ?_)))
        exact mul_le_mul_of_nonneg_right (by linarith) unit.le
    · rcases lt_trichotomy m' m with less | rfl | more
      · have step : (m' : ℚ) + 1 ≤ m := by exact_mod_cast less
        exact .inr (.inr (.inl (mul_le_mul_of_nonneg_right (by linarith) unit.le)))
      · exact .inl rfl
      · have step : (m : ℚ) + 1 ≤ m' := by exact_mod_cast more
        exact .inr (.inl (mul_le_mul_of_nonneg_right step unit.le))
    · exact .inr (.inl (higher_exponent hs hs' above))

theorem Around.lt_overflow (hs : shape x = .finite negative m e) (h : Around m e q) :
    q < overflow := by
  have less : m < 2 ^ 53 := mantissa_lt hs
  have scale : (2 : ℚ) ^ e ≤ 2 ^ (971 : Int) :=
    zpow_le_zpow_right₀ one_le_two (le_greatestExponent hs)
  have unit : (0 : ℚ) < 2 ^ (971 : Int) := by positivity
  unfold overflow
  generalize (2 : ℚ) ^ (971 : Int) = greatest at scale unit ⊢
  by_cases even : Even m
  · have room : m + 2 ≤ 2 ^ 53 := by
      obtain ⟨k, rfl⟩ := even
      omega
    have small : (m : ℚ) + 2 ≤ 2 ^ 53 := by exact_mod_cast room
    calc q
      _ ≤ ((m : ℚ) + 1 / 2) * 2 ^ e := h.high
      _ ≤ ((m : ℚ) + 1 / 2) * greatest := by gcongr
      _ < (2 ^ 53 - 1 / 2) * greatest := mul_lt_mul_of_pos_right (by linarith) unit
  · have small : (m : ℚ) + 1 ≤ 2 ^ 53 := by exact_mod_cast less
    calc q
      _ < ((m : ℚ) + 1 / 2) * 2 ^ e := (h.strict even).2
      _ ≤ ((m : ℚ) + 1 / 2) * greatest := by gcongr
      _ ≤ (2 ^ 53 - 1 / 2) * greatest := mul_le_mul_of_nonneg_right (by linarith) unit.le

theorem Around.nearest (hs : shape x = .finite negative m e) (hm : 0 < m) (h : Around m e q) :
    Nearest negative q x := by
  have unit : (0 : ℚ) < 2 ^ e := by positivity
  refine .finite (h.lt_overflow hs) hs fun y v hv => ?_
  have low := h.low
  have high := h.high
  -- No neighbour is nearer to the real, and one that is as near leaves it at a halfway point.
  rcases neighbours hs hm hv with same | above | below | ⟨first, normal, below⟩
  · rw [same]
    exact ⟨le_rfl, fun _ => .inl rfl⟩
  · have far : |v - q| = v - q := abs_of_nonneg (by linarith)
    rw [far]
    refine ⟨abs_le.2 ⟨by linarith, by linarith⟩, fun tie => .inr ?_⟩
    by_contra odd
    have strict := (h.strict odd).2
    exact tie.not_gt (abs_lt.2 ⟨by linarith, by linarith⟩)
  · have far : |v - q| = q - v := by
      rw [abs_sub_comm]
      exact abs_of_nonneg (by linarith)
    rw [far]
    refine ⟨abs_le.2 ⟨by linarith, by linarith⟩, fun tie => .inr ?_⟩
    by_contra odd
    have strict := (h.strict odd).1
    exact tie.not_gt (abs_lt.2 ⟨by linarith, by linarith⟩)
  · have far : |v - q| = q - v := by
      rw [abs_sub_comm]
      exact abs_of_nonneg (by linarith)
    have narrow := h.narrow first normal
    have even : Even m := first ▸ by decide
    rw [far]
    exact ⟨abs_le.2 ⟨by linarith, by linarith⟩, fun _ => .inr even⟩

end Neighbours

end CanvasScript.Number

namespace CanvasScript.Numeral

open Number (digitsValue digitsValue_eq digitsValue_toDigits)

variable {d : Number.Decimal} {negative : Bool} {sign : List Char}

theorem allDigits_digitChars (d : Number.Decimal) : AllDigits d.digitChars :=
  fun _ hc => Nat.isDigit_of_mem_toDigits (by decide) (by decide) hc

theorem allDigits_zeros (n : Nat) : AllDigits (List.replicate n '0') := by
  intro c hc
  rw [List.eq_of_mem_replicate hc]
  decide

theorem AllDigits.append {ds es : List Char} (hd : AllDigits ds) (he : AllDigits es) :
    AllDigits (ds ++ es) := by
  intro c hc
  exact (List.mem_append.1 hc).elim (hd c) (he c)

theorem digitsValue_digitChars (d : Number.Decimal) : digitsValue d.digitChars = d.digits := by
  rw [digitsValue_eq]
  exact Nat.ofDigitChars_ten_toDigits

theorem digitsValue_zeros_append (n : Nat) (ds : List Char) :
    digitsValue (List.replicate n '0' ++ ds) = digitsValue ds := by
  rw [digitsValue_eq, digitsValue_eq, Nat.ofDigitChars_append, Nat.ofDigitChars_replicate_zero,
    Nat.mul_zero]

theorem digitChars_ne_nil (d : Number.Decimal) : d.digitChars ≠ [] :=
  List.length_pos_iff.1 Nat.length_toDigits_pos

theorem decimal_zeros (d : Number.Decimal) (p : Nat) (hs : Sign negative sign) :
    Decimal (sign ++ (d.digitChars ++ List.replicate p '0')) negative
      (d.digits * 10 ^ (p : Int)) := by
  have literal := Decimal.mk hs (.whole ((allDigits_digitChars d).append (allDigits_zeros p))
    (by simp [digitChars_ne_nil])) .absent
  have value : digitsValue (d.digitChars ++ List.replicate p '0') = d.digits * 10 ^ p :=
    digitsValue_toDigits d.digits p
  rw [List.append_nil, value] at literal
  convert literal using 1
  simp

theorem decimal_pointed {digits : List Char} {p : Nat} (hs : Sign negative sign)
    (all : AllDigits digits) (long : p < digits.length) :
    Decimal (sign ++ (digits.take (digits.length - p) ++ '.' :: digits.drop (digits.length - p)))
      negative (digitsValue digits * 10 ^ (-(p : Int))) := by
  have before : AllDigits (digits.take (digits.length - p)) :=
    fun c hc => all c (List.mem_of_mem_take hc)
  have behind : AllDigits (digits.drop (digits.length - p)) :=
    fun c hc => all c (List.mem_of_mem_drop hc)
  have filled : digits.take (digits.length - p) ≠ [] := by
    rw [← List.length_pos_iff, List.length_take]
    omega
  have literal := Decimal.mk hs (.pointed before behind (.inl filled)) .absent
  have length : (digits.drop (digits.length - p)).length = p := by
    rw [List.length_drop]
    omega
  rwa [List.append_nil, List.take_append_drop, length, Int.zero_sub] at literal

theorem decimal_positional (d : Number.Decimal) (hs : Sign negative sign) :
    Decimal (sign ++ (d.positional "").toList) negative d.value := by
  unfold Number.Decimal.positional
  dsimp only
  split
  · rename_i he
    obtain ⟨p, hp⟩ := Int.eq_ofNat_of_zero_le he
    have zeros : d.exponent.toNat = p := by omega
    have literal := decimal_zeros d p hs
    rw [← hp] at literal
    rwa [zeros, String.append_empty, String.toList_ofList]
  · rename_i he
    obtain ⟨p, hp⟩ : ∃ p : Nat, d.exponent = -p := ⟨(-d.exponent).toNat, by omega⟩
    have places : (-d.exponent).toNat = p := by omega
    rw [places, String.toList_ofList]
    generalize hpad : List.replicate (p + 1 - d.digitChars.length) '0' ++ d.digitChars = padded
    have long : p < padded.length := by
      rw [← hpad, List.length_append, List.length_replicate]
      omega
    have all : AllDigits padded := hpad ▸ (allDigits_zeros _).append (allDigits_digitChars d)
    have value : digitsValue padded = d.digits := by
      rw [← hpad, digitsValue_zeros_append, digitsValue_digitChars]
    have literal := decimal_pointed hs all long
    rwa [value, ← hp] at literal

theorem exponent_present {negative : Bool} (hs : Sign negative sign) (n : Nat) :
    Exponent (if negative then -(n : Int) else n) ('e' :: (sign ++ (toString n).toList)) := by
  have digits : AllDigits (Nat.toDigits 10 n) :=
    fun _ hc => Nat.isDigit_of_mem_toDigits (by decide) (by decide) hc
  have value : digitsValue (Nat.toDigits 10 n) = n := by
    rw [digitsValue_eq, Nat.ofDigitChars_ten_toDigits]
  have present := Exponent.present (.inl rfl) hs digits
    (List.length_pos_iff.1 Nat.length_toDigits_pos)
  rw [value] at present
  rwa [Nat.toString_eq_ofList_toDigits, String.toList_ofList]

theorem exponent_written (e : Int) :
    Exponent e
      (if 0 ≤ e then "e+" ++ toString e.toNat else "e-" ++ toString (-e).toNat).toList := by
  split
  · have present := exponent_present .plus e.toNat
    rw [if_neg Bool.false_ne_true, Int.toNat_of_nonneg ‹_›] at present
    rwa [String.toList_append]
  · have present := exponent_present .minus (-e).toNat
    rw [if_pos rfl, Int.toNat_of_nonneg (by omega), neg_neg] at present
    rwa [String.toList_append]

theorem mantissa_written (digits : List Char) : AllDigits digits → digits ≠ [] →
    ∃ ds es, ds ++ es = digits ∧ es.length + 1 = digits.length ∧
      Mantissa ds es (match digits with
        | c :: c' :: cs => c :: '.' :: c' :: cs
        | cs => cs) := by
  intro all hne
  match digits, hne with
  | [c], _ => exact ⟨[c], [], rfl, rfl, .whole all (List.cons_ne_nil c [])⟩
  | c :: c' :: cs, _ =>
    have first : AllDigits [c] := fun a ha => all a (by simp_all)
    have others : AllDigits (c' :: cs) := fun a ha => all a (List.mem_cons_of_mem c ha)
    exact ⟨[c], c' :: cs, rfl, rfl, .pointed first others (.inl (List.cons_ne_nil c []))⟩

theorem decimal_scientific (d : Number.Decimal) (hs : Sign negative sign) :
    Decimal (sign ++ (d.scientific "e+").toList) negative d.value := by
  obtain ⟨ds, es, parts, length, mantissa⟩ :=
    mantissa_written d.digitChars (allDigits_digitChars d) (digitChars_ne_nil d)
  have literal := Decimal.mk hs mantissa (exponent_written d.leadExponent)
  have exponent : d.leadExponent - (es.length : Int) = d.exponent := by
    rw [Number.Decimal.leadExponent]
    omega
  rw [parts, digitsValue_digitChars, exponent] at literal
  unfold Number.Decimal.scientific
  dsimp only
  rwa [String.toList_append, String.toList_ofList]

theorem decimal_script (d : Number.Decimal) (hs : Sign negative sign) :
    Decimal (sign ++ (Number.Layout.script.decimal d).toList) negative d.value := by
  unfold Number.Layout.decimal
  split
  · exact decimal_positional d hs
  · exact decimal_scientific d hs

theorem Plain.not_blank {c : Char} (h : Plain c) : Text.isBlank c = false := by
  rcases h with digit | sign
  · obtain ⟨small, char⟩ := Number.digitChar_of_isDigit digit
    have digits : ∀ n < 10, Text.isBlank (Nat.digitChar n) = false := by
      decide +kernel
    rw [← char]
    exact digits _ small
  · have signs : ['.', '+', '-', 'e', 'E'].all (fun c => !Text.isBlank c) = true := by decide
    simpa using List.all_eq_true.1 signs c sign

theorem dropWhile_of_not_blank {t : List Char} (h : ∀ c ∈ t, Text.isBlank c = false) :
    t.dropWhile Text.isBlank = t := by
  cases t with
  | nil => rfl
  | cons c t => rw [List.dropWhile_cons_of_neg (by simp [h c List.mem_cons_self])]

theorem trimmed_of_not_blank {t : List Char} (h : ∀ c ∈ t, Text.isBlank c = false) :
    Text.trimmed t = t := by
  have reversed : ∀ c ∈ t.reverse, Text.isBlank c = false :=
    fun c hc => h c (List.mem_reverse.1 hc)
  rw [Text.trimmed, dropWhile_of_not_blank h, dropWhile_of_not_blank reversed,
    List.reverse_reverse]

theorem toNumber_decimal (h : Heap) {s : String} {q : ℚ} {x : Float}
    (hd : Decimal s.toList negative q) (hx : Number.Nearest negative q x) :
    (Value.text s).toNumber h = x := by
  have converted := toNumber_text h s
  rw [trimmed_of_not_blank fun c hc => (hd.plain c hc).not_blank] at converted
  have noPlus (n : Nat) : ¬ PlusBehindMark s.toList n := by
    rintro ⟨radix, mark, ds, same, hm, -⟩
    exact hm.not_plain (hd.plain mark (by simp [same]))
  have fits : ¬ TooLarge s.toList := by
    rintro ⟨radix, mark, ds, n, same, hm, -⟩
    exact hm.not_plain (hd.plain mark (by simp [same]))
  have means := converted.means.2 ⟨noPlus, fits⟩
  exact Number.eq_of_shape (means.unique (.inl (.decimal hd hx)))

end CanvasScript.Numeral

namespace CanvasScript

namespace Number

variable {x y : Float} {negative : Bool} {m : Nat} {e : Int}

theorem beq_zero_iff (hs : shape x = .finite negative m e) : (x == 0) = true ↔ m = 0 := by
  have zero : shape 0 = .finite false 0 leastExponent := by decide +kernel
  have minus : shape (-0) = .finite true 0 leastExponent := by decide +kernel
  rw [Float.beq_iff_ne_nan_and_eq]
  constructor
  · rintro ⟨-, -, rfl | ⟨rfl, -⟩ | ⟨rfl, -⟩⟩
    · exact (Shape.finite.inj (hs.symm.trans zero)).2.1
    · exact (Shape.finite.inj (hs.symm.trans zero)).2.1
    · exact (Shape.finite.inj (hs.symm.trans minus)).2.1
  · rintro rfl
    obtain ⟨-, rfl⟩ := magnitude_inj hs zero (by simp)
    cases negative with
    | false =>
      rw [eq_of_shape (hs.trans zero.symm)]
      decide +kernel
    | true =>
      rw [eq_of_shape (hs.trans minus.symm)]
      decide +kernel

theorem eq_nan (hs : shape x = .nan) : x = nan := eq_of_shape (hs.trans Numeral.shape_nan.symm)

theorem eq_infinity (hs : shape x = .infinite negative) : x = infinity negative :=
  eq_of_shape (hs.trans (shape_infinity negative).symm)

theorem ofText_script (x : Float) :
    ofText (Layout.script.text x) = if x == 0 then 0 else x := by
  unfold Layout.text
  cases hs : shape x with
  | nan =>
    rw [eq_nan hs]
    decide +kernel
  | infinite negative =>
    rw [eq_infinity hs]
    cases negative <;> decide +kernel
  | finite negative m e =>
    cases m with
    | zero =>
      have zero : ofText "0" = 0 := by decide +kernel
      rw [if_pos ((beq_zero_iff hs).2 rfl)]
      cases negative <;> exact zero
    | succ m =>
      have positive := Nat.succ_pos m
      have nearest := (shortest_around .upper positive e).nearest hs positive
      rw [if_neg (mt (beq_zero_iff hs).1 positive.ne')]
      refine Numeral.toNumber_decimal .empty ?_ nearest
      cases negative with
      | false => exact Numeral.decimal_script _ .absent
      | true =>
        show Numeral.Decimal ("-" ++ Layout.script.decimal _).toList _ _
        rw [String.toList_append]
        exact Numeral.decimal_script _ .minus

theorem beq_self {x : Float} (hx : x.isNaN = false) : (x == x) = true := by
  rw [Float.isNaN_eq_decide_eq_nan, decide_eq_false_iff_not] at hx
  exact Float.beq_iff_ne_nan_and_eq.2 ⟨hx, hx, .inl rfl⟩

end Number

namespace Value

theorem toNumber_display (h : Heap) (x : Float) :
    (text ((number x).display h)).toNumber h = if x == 0 then 0 else x := Number.ofText_script x

theorem eq_text (h : Heap) (x : Float) (s : String) :
    binary h .eq (number x) (text s) = bool (x == (text s).toNumber h) := rfl

theorem number_survives (h : Heap) :
    (∀ x : Float, (text ((number x).display h)).toNumber h = if x == 0 then 0 else x) ∧
    (∀ x y : Float, x ≠ y → ¬ (x == 0 ∧ y == 0) →
      (number x).display h ≠ (number y).display h) ∧
    (∀ x : Float, x.isNaN = false →
      binary h .eq (number x) (binary h (.arith .add) (text "") (number x)) = bool true) := by
  refine ⟨toNumber_display h, fun x y ne zeros same => ?_, fun x hx => ?_⟩
  · have zero : ((0 : Float) == 0) = true := by decide +kernel
    have numbers : (if x == 0 then 0 else x) = if y == 0 then 0 else y := by
      rw [← toNumber_display h x, same, toNumber_display h y]
    by_cases hx : (x == 0) = true
    · have hy : ¬ (y == 0) = true := fun hy => zeros ⟨hx, hy⟩
      rw [if_pos hx, if_neg hy] at numbers
      exact hy (numbers ▸ zero)
    · rw [if_neg hx] at numbers
      by_cases hy : (y == 0) = true
      · rw [if_pos hy] at numbers
        exact hx (numbers ▸ zero)
      · rw [if_neg hy] at numbers
        exact ne numbers
  · have sum : binary h (.arith .add) (text "") (number x) = text ((number x).display h) :=
      (add_text h "" (number x)).trans (congrArg text String.empty_append)
    rw [sum, eq_text, toNumber_display]
    split
    · exact congrArg bool ‹_›
    · exact congrArg bool (Number.beq_self hx)

end Value

end CanvasScript
