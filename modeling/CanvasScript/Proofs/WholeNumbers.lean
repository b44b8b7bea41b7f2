import CanvasScript.Place
import CanvasScript.Proofs.Termination.Counts
import Mathlib

namespace CanvasScript.Number

theorem digitsValue_eq (text : List Char) : digitsValue text = Nat.ofDigitChars 10 text 0 := by
  simp only [digitsValue, Nat.ofDigitChars, Nat.mul_comm]

theorem digitsValue_toDigits (d p : Nat) :
    digitsValue (Nat.toDigits 10 d ++ List.replicate p '0') = d * 10 ^ p := by
  rw [digitsValue_eq, Nat.ofDigitChars_append, Nat.ofDigitChars_ten_toDigits,
    Nat.ofDigitChars_replicate_zero, Nat.mul_comm]

theorem toDigits_eq_cons {d : Nat} (h : 0 < d) :
    ∃ c cs, Nat.toDigits 10 d = c :: cs ∧ c ≠ '0' := by
  induction d using Nat.strongRecOn with
  | ind d ih =>
    rw [Nat.toDigits_eq_if (by decide)]
    split
    · rename_i small
      have nonzero : ∀ n < 10, 0 < n → Nat.digitChar n ≠ '0' := by decide
      exact ⟨_, [], rfl, nonzero d small h⟩
    · obtain ⟨c, cs, hc, hz⟩ := ih (d / 10) (by omega) (by omega)
      exact ⟨c, cs ++ [(d % 10).digitChar], by rw [hc, List.cons_append], hz⟩

theorem digitChar_of_isDigit {c : Char} (h : c.isDigit = true) :
    c.toNat - '0'.toNat < 10 ∧ (c.toNat - '0'.toNat).digitChar = c := by
  obtain ⟨low, high⟩ : 48 ≤ c.toNat ∧ c.toNat ≤ 57 := by
    simpa [Char.isDigit, UInt32.le_iff_toNat_le] using h
  have zero : '0'.toNat = 48 := rfl
  have chars : ∀ n < 10, (n.digitChar).toNat = n + 48 := by decide
  refine ⟨by omega, Char.toNat_inj.1 ?_⟩
  rw [chars _ (by omega)]
  omega

theorem toDigits_ofDigitChars {value : Nat} {cs : List Char} (hv : 0 < value)
    (digits : ∀ c ∈ cs, c.isDigit = true) :
    Nat.toDigits 10 (Nat.ofDigitChars 10 cs value) = Nat.toDigits 10 value ++ cs := by
  induction cs generalizing value with
  | nil => simp
  | cons c cs ih =>
    obtain ⟨small, char⟩ := digitChar_of_isDigit (digits c List.mem_cons_self)
    rw [Nat.ofDigitChars_cons, ih (by omega) fun d hd => digits d (List.mem_cons_of_mem c hd),
      ← Nat.toDigits_append_toDigits (by decide) hv small, Nat.toDigits_of_lt_base small, char,
      List.append_assoc, List.singleton_append]

theorem toDigits_digitsValue {c : Char} {cs : List Char}
    (digits : ∀ d ∈ c :: cs, d.isDigit = true) (plain : c ≠ '0' ∨ cs = []) :
    Nat.toDigits 10 (digitsValue (c :: cs)) = c :: cs := by
  obtain ⟨small, char⟩ := digitChar_of_isDigit (digits c List.mem_cons_self)
  rw [digitsValue_eq, Nat.ofDigitChars_cons, Nat.mul_zero, Nat.zero_add]
  by_cases zero : c.toNat - '0'.toNat = 0
  · obtain rfl : c = '0' := by rw [← char, zero]; rfl
    obtain rfl : cs = [] := plain.resolve_left fun other => other rfl
    rfl
  · rw [toDigits_ofDigitChars (by omega) fun d hd => digits d (List.mem_cons_of_mem c hd),
      Nat.toDigits_of_lt_base small, char, List.singleton_append]

section Spelled

theorem isDigit_of_mem_digits {d p : Nat} {c : Char}
    (h : c ∈ Nat.toDigits 10 d ++ List.replicate p '0') : c.isDigit = true := by
  rcases List.mem_append.1 h with h | h
  · exact Nat.isDigit_of_mem_toDigits (by decide) (by decide) h
  · rw [List.eq_of_mem_replicate h]
    decide

theorem spelledIndex?_digits {d p : Nat} (hd : 0 < d) (h : d * 10 ^ p < pow2 64) :
    spelledIndex? (String.ofList (Nat.toDigits 10 d ++ List.replicate p '0')) =
      some (d * 10 ^ p) := by
  obtain ⟨c, cs, hc, hz⟩ := toDigits_eq_cons hd
  have digits : (c :: (cs ++ List.replicate p '0')).all Char.isDigit = true := by
    rw [← List.cons_append, ← hc, List.all_eq_true]
    exact fun _ => isDigit_of_mem_digits
  have value : digitsValue (c :: (cs ++ List.replicate p '0')) = d * 10 ^ p := by
    rw [← List.cons_append, ← hc, digitsValue_toDigits]
  rw [spelledIndex?, String.toList_ofList, hc, List.cons_append]
  simp only [digits, value, h, if_true, Bool.true_and]
  simp [hz]

theorem forall_isDigit_of_spelledIndex? {s : String} {i : Nat} (h : spelledIndex? s = some i) :
    ∀ c ∈ s.toList, c.isDigit = true := by
  unfold spelledIndex? at h
  split at h
  · cases h
  · rename_i c cs hs
    split at h
    · rename_i hc
      rw [hs]
      exact List.all_eq_true.1 (Bool.and_eq_true _ _ ▸ hc).1
    · cases h

theorem digitsValue_of_spelledIndex? {s : String} {i : Nat} (h : spelledIndex? s = some i) :
    digitsValue s.toList = i := by
  unfold spelledIndex? at h
  split at h
  · cases h
  · rename_i c cs hs
    rw [hs]
    dsimp only at h
    split at h
    · split at h <;> cases h
      rfl
    · cases h

theorem spelledIndex?_eq_none {s : String} {c : Char} (hc : c ∈ s.toList)
    (hd : c.isDigit = false) : spelledIndex? s = none := by
  cases h : spelledIndex? s with
  | none => rfl
  | some i =>
    rw [forall_isDigit_of_spelledIndex? h c hc] at hd
    cases hd

theorem spelledIndex?_toString {n : Nat} (h : n < pow2 64) :
    spelledIndex? (toString n) = some n := by
  rcases Nat.eq_zero_or_pos n with rfl | positive
  · decide
  · rw [← Nat.mul_one n] at h
    have spelled := spelledIndex?_digits (p := 0) positive h
    rwa [List.replicate_zero, List.append_nil, pow_zero, Nat.mul_one,
      ← Nat.toString_eq_ofList_toDigits] at spelled

theorem spelledIndex?_eq_some_iff {s : String} {n : Nat} :
    spelledIndex? s = some n ↔ s = toString n ∧ n < pow2 64 := by
  refine ⟨fun h => ?_, fun ⟨same, h⟩ => same ▸ spelledIndex?_toString h⟩
  have value := digitsValue_of_spelledIndex? h
  have digits := forall_isDigit_of_spelledIndex? h
  unfold spelledIndex? at h
  split at h
  · cases h
  · rename_i c cs hs
    rw [hs] at value digits
    obtain ⟨found, h⟩ := Option.ite_none_right_eq_some.1 h
    obtain ⟨less, -⟩ := Option.ite_none_right_eq_some.1 h
    simp only [Bool.and_eq_true, Bool.or_eq_true, decide_eq_true_eq, List.isEmpty_iff] at found
    refine ⟨String.toList_inj.1 ?_, value ▸ less⟩
    rw [Nat.toString_eq_ofList_toDigits, String.toList_ofList, ← value, hs,
      toDigits_digitsValue digits found.2]

end Spelled

theorem le_mantissa {x : Float} {negative : Bool} {m : Nat} {e : Int}
    (h : shape x = .finite negative m e) (he : e ≠ leastExponent) : pow2 52 ≤ m := by
  unfold shape Shape.ofBits at h
  simp only at h
  split at h
  · split at h <;> cases h
  · split at h <;> cases h
    · exact absurd rfl he
    · exact Nat.le_add_right _ _

namespace RoundingInterval

variable {i : RoundingInterval} {halfway : Halfway} {d : Decimal} {p : Int}

theorem exponent_of_onGrid? (h : i.onGrid? halfway p = some d) :
    d.exponent = p ∧ i.contains d.digits p = true := by
  unfold onGrid? at h
  dsimp only at h
  split at h
  · cases h
  · cases h
    exact ⟨rfl, ‹_›⟩
  · cases h
    exact ⟨rfl, ‹_›⟩
  · cases h
    split <;> exact ⟨rfl, ‹_›⟩

theorem contains_of_search {tries : Nat} (h : i.search halfway p tries = some d) :
    i.contains d.digits d.exponent = true := by
  induction tries generalizing p with
  | zero => cases h
  | succ tries ih =>
    rw [search] at h
    split at h
    · rename_i hg
      cases h
      obtain ⟨rfl, hc⟩ := exponent_of_onGrid? hg
      exact hc
    · exact ih h

theorem onGrid?_isSome {k : Int}
    (h : i.contains (i.value * pow10 (-k).toNat / (i.den * pow10 k.toNat)) k = true) :
    (i.onGrid? halfway k).isSome = true := by
  unfold onGrid?
  dsimp only
  rw [h]
  split <;> first | rfl | simp_all

theorem search_of_units {n tries : Nat} (h : (i.onGrid? halfway 0).isSome = true) (hn : n < tries) :
    ∃ d, i.search halfway n tries = some d ∧ 0 ≤ d.exponent := by
  induction tries generalizing n with
  | zero => omega
  | succ tries ih =>
    rw [search]
    split
    · rename_i d hg
      exact ⟨d, rfl, by rw [(exponent_of_onGrid? hg).1]; omega⟩
    · rename_i hg
      cases n with
      | zero =>
        rw [show i.onGrid? halfway 0 = none from hg] at h
        cases h
      | succ n =>
        have finer : ((n + 1 : Nat) : Int) - 1 = n := by omega
        rw [finer]
        exact ih (by omega)

theorem eq_of_contains {m c p k : Nat} (hm : 0 < m) (hk : 0 < k)
    (h : (of m (-k)).contains c p = true) : c * 10 ^ p * 2 ^ k = m := by
  have up : (-(k : Int) - 2).toNat = 0 := by omega
  have den : (2 - -(k : Int)).toNat = k + 2 := by omega
  have places : (-(p : Int)).toNat = 0 := by omega
  have four : c * 10 ^ p * 2 ^ (k + 2) = 4 * (c * 10 ^ p * 2 ^ k) := by
    rw [Nat.pow_add, ← Nat.mul_assoc]
    omega
  simp only [contains, of, up, den, places, Int.toNat_natCast, pow2, pow10, Nat.pow_eq, four] at h
  generalize c * 10 ^ p * 2 ^ k = x at h ⊢
  split at h <;> split at h <;> simp at h <;> omega

theorem le_low (m : Nat) (e : Int) : (4 * m - 2) * pow2 (e - 2).toNat ≤ (of m e).low :=
  Nat.mul_le_mul_right _ (by split <;> omega)

theorem low_le_of_contains {c : Nat} (h : i.contains c p = true) :
    i.low * pow10 (-p).toNat ≤ c * pow10 p.toNat * i.den := by
  unfold contains at h
  split at h <;> simp only [Bool.and_eq_true, decide_eq_true_eq] at h
  · exact h.1
  · exact Nat.le_of_lt h.1

theorem le_of_contains {m c p e : Nat} (h : (of m e).contains c p = true) : m ≤ c * 10 ^ p := by
  have scale : 0 < pow2 ((e : Int) - 2).toNat := Nat.two_pow_pos _
  have den : (of m e).den ≤ 4 :=
    Nat.pow_le_pow_right (by decide) (show (2 - (e : Int)).toNat ≤ 2 by omega)
  have places : pow10 (-(p : Int)).toNat = 1 := by
    rw [show (-(p : Int)).toNat = 0 by omega]
  have quarters :=
    calc 4 * m - 2
      _ ≤ (4 * m - 2) * pow2 ((e : Int) - 2).toNat := Nat.le_mul_of_pos_right _ scale
      _ ≤ (of m e).low := le_low m e
      _ ≤ c * 10 ^ p * (of m e).den := by simpa [places] using low_le_of_contains h
      _ ≤ c * 10 ^ p * 4 := Nat.mul_le_mul_left _ den
  omega

theorem onGrid?_units {n k : Nat} (hn : 0 < n) (hk : 0 < k) :
    ((of (n * 2 ^ k) (-k)).onGrid? halfway 0).isSome = true := by
  have up : (-(k : Int) - 2).toNat = 0 := by omega
  have den : (2 - -(k : Int)).toNat = k + 2 := by omega
  have quarters : 4 * (n * 2 ^ k) = n * 2 ^ (k + 2) := by
    rw [Nat.mul_comm 4, Nat.mul_assoc, Nat.pow_add]
  have below : n * 2 ^ (k + 2) / 2 ^ (k + 2) = n := Nat.mul_div_cancel n (Nat.two_pow_pos _)
  have pos : 0 < n * 2 ^ (k + 2) := Nat.mul_pos hn (Nat.two_pow_pos _)
  apply onGrid?_isSome
  simp only [contains, of, up, den, pow2, pow10, Nat.pow_eq, Int.toNat_zero, Int.neg_zero,
    Nat.pow_zero, Nat.mul_one, quarters, below]
  split <;> split <;> simp <;> omega

end RoundingInterval

theorem shortest_eq (halfway : Halfway) (m : Nat) (e : Int) :
    (RoundingInterval.of m e).contains (shortest halfway m e).digits (shortest halfway m e).exponent
      = true ∨ shortest halfway m e = exactDecimal m e := by
  unfold shortest
  cases h : (RoundingInterval.of m e).search halfway (coarseExponent m e) 20 with
  | none => exact .inr rfl
  | some d => exact .inl (RoundingInterval.contains_of_search h)

theorem shortest_of_whole (halfway : Halfway) {n k : Nat} (hn : 0 < n) (hk : 0 < k)
    (h : n * 2 ^ k < 2 ^ 53) :
    ∃ d p : Nat, shortest halfway (n * 2 ^ k) (-k) = ⟨d, p⟩ ∧ d * 10 ^ p = n := by
  have pos : n * 2 ^ k ≠ 0 := Nat.mul_ne_zero (by omega) (Nat.pos_iff_ne_zero.1 (Nat.two_pow_pos k))
  have less : (n * 2 ^ k).log2 < 53 := (Nat.log2_lt pos).2 h
  have more : k ≤ (n * 2 ^ k).log2 := (Nat.le_log2 pos).2 (Nat.le_mul_of_pos_left _ hn)
  obtain ⟨c, hc⟩ : ∃ c : Nat, coarseExponent (n * 2 ^ k) (-k) = c ∧ c < 20 := by
    unfold coarseExponent
    refine ⟨((((n * 2 ^ k).log2 : Int) + 1 + -k) * 30103 / 100000 + 1).toNat, ?_⟩
    omega
  have units : ((RoundingInterval.of (n * 2 ^ k) (-k)).onGrid? halfway 0).isSome = true :=
    RoundingInterval.onGrid?_units hn hk
  obtain ⟨⟨d, e⟩, hd, he⟩ := RoundingInterval.search_of_units units hc.2
  obtain ⟨p, rfl⟩ := Int.eq_ofNat_of_zero_le he
  have found := RoundingInterval.contains_of_search hd
  rw [← hc.1] at hd
  refine ⟨d, p, by rw [shortest, hd]; rfl, ?_⟩
  exact Nat.eq_of_mul_eq_mul_right (Nat.two_pow_pos k)
    (RoundingInterval.eq_of_contains (Nat.pos_of_ne_zero pos) hk found)

theorem Layout.script_decimal {d p : Nat} (hd : 0 < d) (h : d * 10 ^ p < 10 ^ 21) :
    script.decimal ⟨d, p⟩ = String.ofList (Nat.toDigits 10 d ++ List.replicate p '0') := by
  have places : 10 ^ p < 10 ^ 21 := Nat.lt_of_le_of_lt (Nat.le_mul_of_pos_left _ hd) h
  have few : p < 21 := (Nat.pow_lt_pow_iff_right (by decide)).1 places
  have split : 10 ^ (21 - p) * 10 ^ p = 10 ^ 21 := by
    rw [← Nat.pow_add, Nat.sub_add_cancel (Nat.le_of_lt few)]
  have length : (Nat.toDigits 10 d).length ≤ 21 - p :=
    (Nat.length_toDigits_le_iff (by decide) (by omega)).2
      (Nat.lt_of_mul_lt_mul_right (split ▸ h))
  have nonempty : 0 < (Nat.toDigits 10 d).length := Nat.length_toDigits_pos
  have lead :
      Decimal.leadExponent ⟨d, p⟩ = (p : Int) + ((Nat.toDigits 10 d).length : Int) - 1 := rfl
  have positional : script.writesPositionally (Decimal.leadExponent ⟨d, p⟩) = true := by
    rw [lead, writesPositionally, Bool.and_eq_true]
    exact ⟨decide_eq_true (by omega), decide_eq_true (by omega)⟩
  rw [decimal, if_pos positional, Decimal.positional]
  simp [Decimal.digitChars, script]

theorem Layout.eq_of_spelledIndex?_decimal {d : Decimal} {i : Nat}
    (h : spelledIndex? (script.decimal d) = some i) :
    0 ≤ d.exponent ∧ d.digits * 10 ^ d.exponent.toNat = i := by
  unfold decimal at h
  split at h
  · unfold Decimal.positional at h
    dsimp only at h
    split at h
    · refine ⟨‹_›, ?_⟩
      rw [← digitsValue_of_spelledIndex? h]
      simp [script, Decimal.digitChars, digitsValue_toDigits]
    · rw [spelledIndex?_eq_none (c := '.') (by simp) (by decide)] at h
      cases h
  · rw [spelledIndex?_eq_none (c := 'e') ?_ (by decide)] at h
    · cases h
    · unfold Decimal.scientific
      dsimp only
      split <;> split <;> simp [script]

section Shortest

variable {halfway : Halfway}

theorem le_of_spelledIndex?_shortest {m e i : Nat}
    (h : spelledIndex? (Layout.script.decimal (shortest halfway m e)) = some i) : m ≤ i := by
  obtain ⟨whole, value⟩ := Layout.eq_of_spelledIndex?_decimal h
  rcases shortest_eq halfway m e with hit | exact
  · obtain ⟨p, hp⟩ := Int.eq_ofNat_of_zero_le whole
    rw [hp] at hit value
    exact value ▸ RoundingInterval.le_of_contains hit
  · rw [exact, exactDecimal, if_pos (Int.natCast_nonneg e)] at value
    rw [← value]
    exact Nat.le_trans (Nat.le_mul_of_pos_right m (Nat.two_pow_pos _))
      (Nat.le_mul_of_pos_right _ Nat.one_pos)

theorem spelledIndex?_shortest {m k i : Nat} (hm : 0 < m) (hk : 0 < k) (bound : m < pow2 53) :
    spelledIndex? (Layout.script.decimal (shortest halfway m (-k))) = some i ↔ i * 2 ^ k = m := by
  constructor
  · intro h
    obtain ⟨whole, value⟩ := Layout.eq_of_spelledIndex?_decimal h
    rcases shortest_eq halfway m (-k) with hit | exact
    · obtain ⟨p, hp⟩ := Int.eq_ofNat_of_zero_le whole
      rw [hp] at hit value
      exact value ▸ RoundingInterval.eq_of_contains hm hk hit
    · rw [exact, exactDecimal, if_neg (by omega)] at whole
      dsimp only at whole
      omega
  · rintro rfl
    have hi : 0 < i := Nat.pos_of_mul_pos_right hm
    obtain ⟨d, p, hd, rfl⟩ := shortest_of_whole halfway hi hk bound
    have small : d * 10 ^ p < 2 ^ 53 :=
      Nat.lt_of_le_of_lt (Nat.le_mul_of_pos_right _ (Nat.two_pow_pos k)) bound
    have digits : 0 < d := Nat.pos_of_mul_pos_right hi
    rw [hd, Layout.script_decimal digits (by omega),
      spelledIndex?_digits digits (Nat.lt_trans small (by decide))]

end Shortest

theorem toNat?_finite {bound m k i : Nat} {x : Float} {negative : Bool}
    (h : shape x = .finite negative m (-k)) (hk : 0 < k) :
    toNat? bound x = some i ↔ i * 2 ^ k = m ∧ (i = 0 ∨ negative = false) ∧ i < bound := by
  have least : ¬ (0 : Int) ≤ -k := by omega
  have places : (- -(k : Int)).toNat = k := by omega
  unfold toNat? isWhole
  simp only [h, least, if_false, decide_false, Bool.false_or, places, pow2, Nat.pow_eq]
  constructor
  · intro found
    split at found
    · rename_i hc
      cases found
      simp only [Bool.and_eq_true, decide_eq_true_eq, Bool.or_eq_true, Bool.not_eq_true'] at hc
      exact ⟨Nat.div_mul_cancel (Nat.dvd_of_mod_eq_zero hc.1.1), hc.1.2, hc.2⟩
    · cases found
  · rintro ⟨rfl, sign, less⟩
    rw [Nat.mul_mod_left, Nat.mul_div_cancel i (Nat.two_pow_pos k)]
    simp [sign, less]

theorem lt_of_toNat? {bound i : Nat} {x : Float} (h : toNat? bound x = some i) : i < bound := by
  unfold toNat? at h
  split at h
  · obtain ⟨found, value⟩ := Option.ite_none_right_eq_some.1 h
    exact Option.some.inj value ▸ of_decide_eq_true (Bool.and_eq_true _ _ ▸ found).2
  · cases h

theorem toNat?_eq_none {bound m : Nat} {x : Float} {negative : Bool} {e : Nat}
    (h : shape x = .finite negative m e) (hb : bound ≤ m) : toNat? bound x = none := by
  have more : m ≤ m * pow2 (min e 64) := Nat.le_mul_of_pos_right m (Nat.two_pow_pos _)
  have beyond : ¬ m * pow2 (min e 64) < bound := by omega
  unfold toNat?
  simp only [h, Int.natCast_nonneg, if_true, Int.toNat_natCast, beyond, decide_false,
    Bool.and_false, Bool.false_eq_true, if_false]

theorem spelledIndex?_zero (negative : Bool) (e : Int) :
    spelledIndex? (Layout.script.shape (.finite negative 0 e)) = some 0 := by
  have zero : spelledIndex? "0" = some 0 := by decide
  cases negative <;> exact zero

theorem spelledIndex?_negative (m : Nat) (e : Int) :
    spelledIndex? (Layout.script.shape (.finite true (m + 1) e)) = none :=
  spelledIndex?_eq_none (c := '-') (by simp [Layout.shape]) (by decide)

theorem spelledIndex?_text {bound i : Nat} {x : Float} (hb : bound ≤ pow2 52) (hi : i < bound) :
    spelledIndex? (Layout.script.text x) = some i ↔ toNat? bound x = some i := by
  unfold Layout.text
  cases hs : shape x with
  | nan =>
    have none : spelledIndex? (Layout.script.shape .nan) = none := by decide
    rw [none, toNat?, hs]
  | infinite negative =>
    have none : ∀ b, spelledIndex? (Layout.script.shape (.infinite b)) = none := by decide
    rw [none, toNat?, hs]
  | finite negative m e =>
    by_cases he : 0 ≤ e
    · obtain ⟨n, rfl⟩ := Int.eq_ofNat_of_zero_le he
      have large : bound ≤ m := Nat.le_trans hb (le_mantissa hs (by simp [leastExponent]))
      rw [toNat?_eq_none hs large]
      refine iff_of_false (fun spelled => ?_) (Option.some_ne_none i).symm
      cases m with
      | zero => omega
      | succ m =>
        cases negative with
        | true => rw [spelledIndex?_negative] at spelled; cases spelled
        | false => exact absurd (le_of_spelledIndex?_shortest spelled) (by omega)
    · obtain ⟨k, rfl⟩ : ∃ k : Nat, e = -k := ⟨(-e).toNat, by omega⟩
      have unit : 2 ^ k ≠ 0 := Nat.pos_iff_ne_zero.1 (Nat.two_pow_pos k)
      rw [toNat?_finite hs (by omega)]
      cases m with
      | zero =>
        rw [spelledIndex?_zero, Option.some.injEq, Nat.mul_eq_zero, or_iff_left unit]
        exact ⟨fun h => ⟨h.symm, .inl h.symm, hi⟩, fun h => h.1.symm⟩
      | succ m =>
        cases negative with
        | true =>
          rw [spelledIndex?_negative]
          refine iff_of_false (Option.some_ne_none i).symm ?_
          rintro ⟨product, rfl | sign, -⟩
          · omega
          · cases sign
        | false =>
          refine (spelledIndex?_shortest (Nat.succ_pos m) (by omega) (mantissa_lt hs)).trans ?_
          exact ⟨fun h => ⟨h, .inr rfl, hi⟩, fun h => h.1⟩

end CanvasScript.Number
