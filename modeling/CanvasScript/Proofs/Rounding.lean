import CanvasScript.Proofs.Rationals

namespace CanvasScript.Number

open Float.Model.UnpackedFloat (unpackSign unpackExponent unpackMantissa unpack pack packComponents)

section Packing

theorem toNat_append {v w : Nat} (x : BitVec v) (y : BitVec w) :
    (x ++ y).toNat = x.toNat * 2 ^ w + y.toNat := by
  rw [BitVec.toNat_append, ← Nat.shiftLeft_add_eq_or_of_lt y.isLt, Nat.shiftLeft_eq]

variable {b : BitVec (Float.Model.Format.numBits .binary64)} {exponent : BitVec 11}
  {mantissa : BitVec 52}

theorem packComponents_unpack (he : unpackExponent b = exponent)
    (hm : unpackMantissa b = mantissa) :
    packComponents .binary64 (.ofBitVec (unpackSign b)) exponent mantissa = b := by
  subst he hm
  have bound : b.toNat < 2 ^ 64 := b.isLt
  refine BitVec.toNat_inj.1 ?_
  rw [packComponents, toBitVec_ofBitVec, toNat_append, toNat_append, toNat_unpackSign,
    toNat_unpackExponent, toNat_unpackMantissa]
  show (b.toNat / 2 ^ 63 % 2 * 2 ^ 11 + b.toNat / 2 ^ 52 % 2 ^ 11) * 2 ^ 52 + b.toNat % 2 ^ 52 = _
  omega

theorem pack_unpack (h : unpack .binary64 b ≠ .notANumber) :
    pack .binary64 (unpack .binary64 b) = b := by
  have bias : ((Float.Model.Format.exponentBias .binary64 : Nat) : Int) = 1023 := rfl
  have bits : Float.Model.Format.mantissaBits .binary64 = 53 := rfl
  have small : (unpackMantissa b).toNat < 2 ^ 52 := (unpackMantissa b).isLt
  have below : (unpackExponent b).toNat < 2 ^ 11 := (unpackExponent b).isLt
  unfold unpack at h ⊢
  dsimp only at h ⊢
  split
  · rename_i hg
    split
    · exact packComponents_unpack hg ‹_›
    · rename_i hm
      exact absurd (by rw [if_pos hg, if_neg hm]) h
  · rename_i hg
    split
    · rename_i hl
      split
      · exact packComponents_unpack hl ‹_›
      · rename_i hm
        have positive : (unpackMantissa b).toNat ≠ 0 := fun zero => hm (BitVec.toNat_inj.1 zero)
        have short : (unpackMantissa b).toNat.log2 < 52 := (Nat.log2_lt positive).2 small
        rw [pack]
        dsimp only
        rw [if_neg (by rw [bias, hl]; decide), if_neg (by rw [bits]; omega), BitVec.ofNat_toNat]
        exact packComponents_unpack hl (by simp)
    · rename_i hl
      have ne : (unpackExponent b).toNat ≠ 2047 := fun same => hg (BitVec.toNat_inj.1 same)
      have long : (1#1 ++ unpackMantissa b).toNat.log2 = 52 := by
        rw [toNat_one_append, Nat.log2_eq_iff (by simp)]
        simp only [pow2, Nat.pow_eq]
        omega
      rw [pack]
      dsimp only
      have stored :
          ((unpackExponent b).toNat - (1023 + (52 : Nat)) + 1023 + (52 : Nat) : Int).toNat =
            (unpackExponent b).toNat := by omega
      -- The bit that is not stored falls out again.
      have kept : BitVec.ofNat 52 (1#1 ++ unpackMantissa b).toNat = unpackMantissa b := by
        refine BitVec.toNat_inj.1 ?_
        rw [BitVec.toNat_ofNat, toNat_one_append, Nat.add_mod_left]
        exact Nat.mod_eq_of_lt small
      rw [bias, bits, long, if_pos rfl, stored, kept, BitVec.ofNat_toNat, if_neg (by omega)]
      exact packComponents_unpack (by simp) rfl

theorem shape_ofBits (u : UInt64) : shape (Float.ofBits u) = .ofBits u.toNat := by
  have packed : shape (Float.ofBits u) =
      .ofBits (pack .binary64 (unpack .binary64 u.toBitVec)).toNat := rfl
  by_cases h : unpack .binary64 u.toBitVec = .notANumber
  · have same : Shape.ofBits u.toBitVec.toNat = .ofUnpacked (unpack .binary64 u.toBitVec) :=
      Shape.ofBits_toNat _
    rw [packed, h, UInt64.toNat_toBitVec] at *
    rw [same]
    rfl
  · rw [packed, pack_unpack h, UInt64.toNat_toBitVec]

end Packing

section Bits

variable (negative : Bool)

theorem ofBits_parts (scale stored : Nat) (hs : scale < pow2 11) (hm : stored < pow2 52) :
    Shape.ofBits ((if negative then pow2 63 else 0) + (scale * pow2 52 + stored)) =
      if scale = pow2 11 - 1 then if stored = 0 then .infinite negative else .nan
      else if scale = 0 then .finite negative stored leastExponent
      else .finite negative (pow2 52 + stored) (leastExponent + scale - 1) := by
  simp only [pow2, Nat.pow_eq] at *
  generalize hb : (if negative then 2 ^ 63 else 0) + (scale * 2 ^ 52 + stored) = b
  have sign : decide (b / 2 ^ 63 % 2 = 1) = negative := by
    subst hb
    cases negative <;> simp <;> omega
  have exponent : b / 2 ^ 52 % 2 ^ 11 = scale := by
    subst hb
    split <;> omega
  have mantissa : b % 2 ^ 52 = stored := by
    subst hb
    split <;> omega
  simp only [Shape.ofBits, pow2, Nat.pow_eq, sign, exponent, mantissa]

theorem ofBits_rounded {k r : Nat} (hk : k = 0 ∨ pow2 52 ≤ r) (hr : r ≤ pow2 53)
    (below : k * pow2 52 + r < (pow2 11 - 1) * pow2 52) :
    ∃ m e, Shape.ofBits ((if negative then pow2 63 else 0) + (k * pow2 52 + r)) =
        .finite negative m e ∧
      (m : ℚ) * 2 ^ e = r * 2 ^ ((k : Int) + leastExponent) ∧ (Even r → Even m) := by
  simp only [pow2, Nat.pow_eq] at hk hr below
  rcases Nat.lt_or_ge r (2 ^ 52) with small | normal
  · obtain rfl : k = 0 := by omega
    have parts := ofBits_parts negative 0 r (by decide) small
    exact ⟨r, leastExponent, parts, by simp, id⟩
  · rcases Nat.lt_or_ge r (2 ^ 53) with exact | carried
    · obtain ⟨stored, rfl⟩ := Nat.exists_eq_add_of_le normal
      have scale : k + 1 ≠ pow2 11 - 1 := by
        simp only [pow2, Nat.pow_eq]
        omega
      have parts := ofBits_parts negative (k + 1) stored (by simp; omega) (by simp; omega)
      have bits : k * pow2 52 + (2 ^ 52 + stored) = (k + 1) * pow2 52 + stored := by
        simp only [pow2, Nat.pow_eq]
        omega
      rw [if_neg scale, if_neg (Nat.succ_ne_zero k), ← bits] at parts
      refine ⟨_, _, parts, ?_, id⟩
      congr 2
      push_cast
      ring
    · -- Rounding has carried: the stored mantissa is zero, and the exponent is one more.
      obtain rfl : r = 2 ^ 53 := by omega
      have scale : k + 2 ≠ pow2 11 - 1 := by
        simp only [pow2, Nat.pow_eq]
        omega
      have parts := ofBits_parts negative (k + 2) 0 (by simp; omega) (by simp)
      have bits : k * pow2 52 + 2 ^ 53 = (k + 2) * pow2 52 + 0 := by
        simp only [pow2, Nat.pow_eq]
        omega
      rw [if_neg scale, if_neg (Nat.succ_ne_zero (k + 1)), ← bits] at parts
      refine ⟨_, _, parts, ?_, fun _ => by decide⟩
      have exponent : leastExponent + (k + 2 : Nat) - 1 = (k + leastExponent : Int) + 1 := by
        push_cast
        ring
      rw [exponent, zpow_add_one₀ two_ne_zero]
      norm_num
      ring

end Bits

section Quotients

variable {d : Nat}

theorem half_le_div (hd : 0 < d) (r : Nat) : (1 : ℚ) / 2 ≤ r / d ↔ d ≤ 2 * r := by
  have positive : (0 : ℚ) < d := by exact_mod_cast hd
  rw [div_le_div_iff₀ two_pos positive, one_mul, mul_comm]
  exact_mod_cast Iff.rfl

theorem div_le_half (hd : 0 < d) (r : Nat) : (r : ℚ) / d ≤ 1 / 2 ↔ 2 * r ≤ d := by
  have positive : (0 : ℚ) < d := by exact_mod_cast hd
  rw [div_le_div_iff₀ positive two_pos, one_mul, mul_comm]
  exact_mod_cast Iff.rfl

theorem roundHalfEven_close (hd : 0 < d) (n : Nat) :
    |(roundHalfEven n d : ℚ) - n / d| ≤ 1 / 2 ∧
      (|(roundHalfEven n d : ℚ) - n / d| = 1 / 2 → Even (roundHalfEven n d)) := by
  have positive : (0 : ℚ) < d := by exact_mod_cast hd
  have parts : (n : ℚ) / d = (n / d : Nat) + (n % d : Nat) / d := by
    rw [← mul_div_cancel_left₀ ((n / d : Nat) : ℚ) positive.ne', ← add_div]
    exact_mod_cast congrArg (fun n : Nat => (n : ℚ) / d) (Nat.div_add_mod n d).symm
  have least : (0 : ℚ) ≤ (n % d : Nat) / d := by positivity
  have most : ((n % d : Nat) : ℚ) / d < 1 := by
    rw [div_lt_one positive]
    exact_mod_cast Nat.mod_lt n hd
  have low := half_le_div hd (n % d)
  have high := div_le_half hd (n % d)
  unfold roundHalfEven
  dsimp only
  rw [parts]
  generalize (n % d : Nat) / (d : ℚ) = f at *
  split
  · rename_i up
    simp only [gt_iff_lt, Bool.or_eq_true, decide_eq_true_eq, Bool.and_eq_true] at up
    have half := low.2 (by omega)
    have size : |((n / d + 1 : Nat) : ℚ) - ((n / d : Nat) + f)| = 1 - f := by
      rw [abs_of_nonneg] <;> push_cast <;> linarith
    rw [size]
    refine ⟨by linarith, fun tie => ?_⟩
    have := high.1 (by linarith)
    exact Nat.even_iff.2 (by omega)
  · rename_i down
    simp only [gt_iff_lt, Bool.or_eq_true, decide_eq_true_eq, Bool.and_eq_true] at down
    have half := high.2 (by omega)
    have size : |((n / d : Nat) : ℚ) - ((n / d : Nat) + f)| = f := by
      rw [abs_of_nonpos] <;> linarith
    rw [size]
    refine ⟨half, fun tie => ?_⟩
    have := low.1 (by linarith)
    exact Nat.even_iff.2 (by omega)

end Quotients

section Exponents

theorem scaled_pos {num den : Nat} (hd : 0 < den) (e : Int) : 0 < (scaled num den e).2 := by
  unfold scaled
  split
  · exact Nat.mul_pos hd (Nat.two_pow_pos _)
  · exact hd

theorem scaled_div {num den : Nat} (e : Int) :
    ((scaled num den e).1 : ℚ) / (scaled num den e).2 = num / den / 2 ^ e := by
  unfold scaled
  split
  · rename_i he
    obtain ⟨k, rfl⟩ := Int.eq_ofNat_of_zero_le he
    simp [pow2, div_div]
  · rename_i he
    obtain ⟨k, rfl⟩ : ∃ k : Nat, e = -k := ⟨(-e).toNat, by omega⟩
    simp [pow2, div_eq_mul_inv, mul_right_comm]

theorem lt_two_zpow_log2 {n : Nat} : (n : ℚ) < 2 ^ ((n.log2 : Int) + 1) := by
  exact_mod_cast Nat.lt_log2_self

theorem two_zpow_log2_le {n : Nat} (h : 0 < n) : (2 : ℚ) ^ (n.log2 : Int) ≤ n := by
  exact_mod_cast Nat.log2_self_le h.ne'

theorem ratio_bounds {num den : Nat} (hn : 0 < num) (hd : 0 < den) :
    (2 : ℚ) ^ ((num.log2 : Int) - den.log2 - 1) ≤ num / den ∧
      (num / den : ℚ) < 2 ^ ((num.log2 : Int) - den.log2 + 1) := by
  have positive : (0 : ℚ) < den := by exact_mod_cast hd
  have two : (2 : ℚ) ≠ 0 := two_ne_zero
  constructor
  · rw [le_div_iff₀ positive]
    calc (2 : ℚ) ^ ((num.log2 : Int) - den.log2 - 1) * den
      _ ≤ 2 ^ ((num.log2 : Int) - den.log2 - 1) * 2 ^ ((den.log2 : Int) + 1) := by
        gcongr
        exact lt_two_zpow_log2.le
      _ = 2 ^ (num.log2 : Int) := by
        rw [← zpow_add₀ two]
        congr 1
        omega
      _ ≤ num := two_zpow_log2_le hn
  · rw [div_lt_iff₀ positive]
    calc (num : ℚ)
      _ < 2 ^ ((num.log2 : Int) + 1) := lt_two_zpow_log2
      _ = 2 ^ ((num.log2 : Int) - den.log2 + 1) * 2 ^ (den.log2 : Int) := by
        rw [← zpow_add₀ two]
        congr 1
        omega
      _ ≤ 2 ^ ((num.log2 : Int) - den.log2 + 1) * den := by
        gcongr
        exact two_zpow_log2_le hd

theorem exponentOf_spec {num den : Nat} (hn : 0 < num) (hd : 0 < den) :
    leastExponent ≤ exponentOf num den ∧
      (num / den : ℚ) < 2 ^ 53 * 2 ^ exponentOf num den ∧
      (exponentOf num den = leastExponent ∨ 2 ^ 52 * 2 ^ exponentOf num den ≤ (num / den : ℚ)) := by
  obtain ⟨low, high⟩ := ratio_bounds hn hd
  have times (k : Nat) (e : Int) : (2 : ℚ) ^ k * 2 ^ e = 2 ^ ((k : Int) + e) := by
    rw [zpow_add₀ two_ne_zero, zpow_natCast]
  unfold exponentOf
  dsimp only
  generalize he : (num.log2 : Int) - den.log2 - storedBits = e
  have hl : (num.log2 : Int) - den.log2 = e + 52 := by
    rw [← he]
    show _ = _ - 52 + 52
    omega
  rw [hl] at low high
  have short : (scaled num den e).1 / (scaled num den e).2 < pow2 storedBits ↔
      (num / den : ℚ) < 2 ^ 52 * 2 ^ e := by
    have positive : (0 : ℚ) < (scaled num den e).2 := by exact_mod_cast scaled_pos hd e
    rw [Nat.div_lt_iff_lt_mul (scaled_pos hd e), ← div_lt_iff₀ (by positivity), ← scaled_div e,
      div_lt_iff₀ positive]
    exact_mod_cast Iff.rfl
  -- The lengths of the two parts give the exponent or the next one, and the quotient tells which.
  obtain ⟨c, hc, least, most⟩ : ∃ c, (if (scaled num den e).1 / (scaled num den e).2 <
      pow2 storedBits then e - 1 else e) = c ∧
      (2 : ℚ) ^ 52 * 2 ^ c ≤ num / den ∧ (num / den : ℚ) < 2 ^ 53 * 2 ^ c := by
    by_cases less : (num / den : ℚ) < 2 ^ 52 * 2 ^ e
    · refine ⟨e - 1, if_pos (short.2 less), ?_, ?_⟩
      · rw [times]
        exact (zpow_le_zpow_right₀ one_le_two (by push_cast; omega)).trans low
      · rw [times] at less ⊢
        exact less.trans_le (zpow_le_zpow_right₀ one_le_two (by push_cast; omega))
    · refine ⟨e, if_neg (mt short.1 less), not_lt.1 less, high.trans_le ?_⟩
      rw [times]
      exact zpow_le_zpow_right₀ one_le_two (by push_cast; omega)
  rw [hc]
  refine ⟨le_max_left _ _, most.trans_le ?_, ?_⟩
  · gcongr
    · exact one_le_two
    · exact le_max_right _ _
  · rcases le_total c leastExponent with h | h
    · exact .inl (max_eq_left h)
    · exact .inr (by rwa [max_eq_right h])

end Exponents

section Nearest

theorem value?_eq_some {x : Float} {v : ℚ} (h : value? x = some v) :
    ∃ negative m e, shape x = .finite negative m e ∧
      (if negative then -1 else 1) * (m : ℚ) * 2 ^ e = v := by
  cases hs : shape x with
  | finite negative m e =>
    exact ⟨negative, m, e, rfl, Option.some.inj ((value?_finite hs).symm.trans h)⟩
  | _ => simp [value?, Shape.value?, hs] at h

theorem leastExponent_le {x : Float} {negative : Bool} {m : Nat} {e : Int}
    (h : shape x = .finite negative m e) : leastExponent ≤ e := by
  unfold shape Shape.ofBits at h
  simp only at h
  split at h
  · split at h <;> cases h
  · split at h <;> cases h <;> omega

def overflow : ℚ := (2 ^ 53 - 1 / 2) * 2 ^ (971 : Int)

/-- The number has the sign given, and of all numbers none is closer to `q` but for the sign. Of two
that are as close it is the one with the even mantissa. From the overflow on infinity is nearest. -/
inductive Nearest (negative : Bool) (q : ℚ) (x : Float) : Prop
  | finite {m : Nat} {e : Int} : q < overflow → shape x = .finite negative m e →
      (∀ y v, value? y = some v → |(m : ℚ) * 2 ^ e - q| ≤ |v - q| ∧
        (|v - q| = |(m : ℚ) * 2 ^ e - q| → v = m * 2 ^ e ∨ Even m)) → Nearest negative q x
  | infinite : overflow ≤ q → shape x = .infinite negative → Nearest negative q x

theorem nearestBits_le (num den : Nat) : nearestBits num den ≤ (pow2 11 - 1) * pow2 52 := by
  unfold nearestBits
  split
  · exact Nat.zero_le _
  · exact min_le_left _ _

theorem shape_nearest (negative : Bool) (num den : Nat) : shape (nearest negative num den) =
    .ofBits ((if negative then pow2 63 else 0) + nearestBits num den) := by
  have bound := nearestBits_le num den
  simp only [pow2, Nat.pow_eq] at bound
  unfold nearest
  dsimp only
  rw [shape_ofBits, UInt64.toNat_ofNat']
  congr 1
  cases negative <;> simp <;> omega

theorem mul_two_zpow_le {e c : Int} (h : e < c) : (2 : ℚ) ^ 53 * 2 ^ e ≤ 2 ^ 52 * 2 ^ c := by
  have step : (2 : ℚ) ^ 53 * 2 ^ e = 2 ^ 52 * 2 ^ (e + 1) := by
    rw [zpow_add_one₀ two_ne_zero]
    ring
  rw [step]
  exact mul_le_mul_of_nonneg_left (zpow_le_zpow_right₀ one_le_two h) (by norm_num)

structure Rounds (e : Int) (y : ℚ) (r : Nat) : Prop where
  least : leastExponent ≤ e
  below : y < 2 ^ 53
  normal : e = leastExponent ∨ 2 ^ 52 ≤ y
  close : |(r : ℚ) - y| ≤ 1 / 2
  even : |(r : ℚ) - y| = 1 / 2 → Even r

namespace Rounds

variable {e : Int} {y : ℚ} {r : Nat}

theorem le (h : Rounds e y r) : r ≤ 2 ^ 53 := by
  have near := (abs_le.1 h.close).2
  have less := h.below
  have : (r : ℚ) < 2 ^ 53 + 1 := by linarith
  have : r < 2 ^ 53 + 1 := by exact_mod_cast this
  omega

theorem normal_mantissa (h : Rounds e y r) : e = leastExponent ∨ 2 ^ 52 ≤ r := by
  refine h.normal.imp_right fun normal => ?_
  have near := (abs_le.1 h.close).1
  have : (2 : ℚ) ^ 52 < r + 1 := by linarith
  have : 2 ^ 52 < r + 1 := by exact_mod_cast this
  omega

theorem grid (h : Rounds e y r) (j : Int) :
    |(r : ℚ) - y| ≤ |(j : ℚ) - y| ∧ (|(j : ℚ) - y| = |(r : ℚ) - y| → (j : ℚ) = r ∨ Even r) := by
  have close := h.close
  by_cases hj : j = r
  · subst hj
    exact ⟨by simp, fun _ => .inl (by simp)⟩
  · have apart : 1 ≤ |(j : ℚ) - r| := by exact_mod_cast Int.one_le_abs (sub_ne_zero.2 hj)
    have path : |(j : ℚ) - r| ≤ |(j : ℚ) - y| + |(r : ℚ) - y| := by
      rw [abs_sub_comm (r : ℚ)]
      exact abs_sub_le _ _ _
    exact ⟨by linarith, fun tie => .inr (h.even (by linarith))⟩

theorem lt_iff (h : Rounds e y r) : r < 2 ^ 53 ↔ y < 2 ^ 53 - 1 / 2 := by
  obtain ⟨low, high⟩ := abs_le.1 h.close
  constructor
  · intro less
    have most : (r : ℚ) ≤ 2 ^ 53 - 1 := by
      have : r + 1 ≤ 2 ^ 53 := less
      have : (r : ℚ) + 1 ≤ 2 ^ 53 := by exact_mod_cast this
      linarith
    refine lt_of_le_of_ne (by linarith) fun tie => ?_
    have last : (r : ℚ) = 2 ^ 53 - 1 := by linarith
    have even := h.even (by rw [last, tie]; norm_num)
    have odd : r = 2 ^ 53 - 1 := by
      have : (r : ℚ) + 1 = 2 ^ 53 := by linarith
      have : r + 1 = 2 ^ 53 := by exact_mod_cast this
      omega
    exact absurd (odd ▸ even) (by decide)
  · intro less
    have : (r : ℚ) < 2 ^ 53 := by linarith
    exact_mod_cast this

theorem overflow_iff (h : Rounds e y r) {k : Nat} (hk : (k : Int) + leastExponent = e) :
    k * pow2 52 + r < (pow2 11 - 1) * pow2 52 ↔ y * 2 ^ e < overflow := by
  simp only [pow2, Nat.pow_eq]
  have le := h.le
  have hk : (k : Int) - 1074 = e := hk
  have last : (0 : ℚ) < 2 ^ (971 : Int) := zpow_pos two_pos _
  rcases Int.lt_trichotomy e 971 with lower | rfl | higher
  · refine iff_of_true (by omega) ?_
    calc y * 2 ^ e
      _ < 2 ^ 53 * 2 ^ e := mul_lt_mul_of_pos_right h.below (zpow_pos two_pos _)
      _ ≤ 2 ^ 52 * 2 ^ (971 : Int) := mul_two_zpow_le lower
      _ ≤ overflow := mul_le_mul_of_nonneg_right (by norm_num) last.le
  · rw [overflow, mul_lt_mul_iff_left₀ last, ← h.lt_iff]
    omega
  · have ne : e ≠ leastExponent := by
      show e ≠ -1074
      omega
    have least := h.normal.resolve_left ne
    have normal := h.normal_mantissa.resolve_left ne
    refine iff_of_false (by omega) (not_lt.2 ?_)
    calc overflow
      _ ≤ 2 ^ 53 * 2 ^ (971 : Int) := mul_le_mul_of_nonneg_right (by norm_num) last.le
      _ ≤ 2 ^ 52 * 2 ^ e := mul_two_zpow_le higher
      _ ≤ y * 2 ^ e := mul_le_mul_of_nonneg_right least (zpow_pos two_pos _).le

theorem nearest (h : Rounds e y r) {x : Float} {v : ℚ} (hv : value? x = some v) :
    |(r : ℚ) * 2 ^ e - y * 2 ^ e| ≤ |v - y * 2 ^ e| ∧
      (|v - y * 2 ^ e| = |(r : ℚ) * 2 ^ e - y * 2 ^ e| → v = r * 2 ^ e ∨ Even r) := by
  have power : (0 : ℚ) < 2 ^ e := by positivity
  have scale (a : ℚ) : |a * 2 ^ e - y * 2 ^ e| = |a - y| * 2 ^ e := by
    rw [← sub_mul, abs_mul, abs_of_pos power]
  obtain ⟨negative, m, e', hs, rfl⟩ := value?_eq_some hv
  by_cases he : e ≤ e'
  · -- The number is on the grid of the exponent.
    obtain ⟨k, rfl⟩ : ∃ k : Nat, e' = k + e := ⟨(e' - e).toNat, by omega⟩
    have whole : (if negative then -1 else 1) * (m : ℚ) * 2 ^ ((k : Int) + e) =
        (((if negative then -1 else 1) * m * 2 ^ k : Int) : ℚ) * 2 ^ e := by
      rw [zpow_add₀ two_ne_zero, zpow_natCast]
      push_cast
      ring
    obtain ⟨close, tie⟩ := h.grid ((if negative then -1 else 1) * m * 2 ^ k)
    rw [whole, scale, scale]
    refine ⟨by gcongr, fun same => ?_⟩
    exact (tie (mul_right_cancel₀ power.ne' same)).imp_left fun same => by rw [same]
  · -- The grid of the number is finer, so it lies below all numbers of the exponent.
    have corner : ((2 ^ 52 : Int) : ℚ) = 2 ^ 52 := by norm_num
    have close : |(r : ℚ) - y| ≤ |2 ^ 52 - y| := corner ▸ (h.grid (2 ^ 52)).1
    have least := leastExponent_le hs
    have normal := h.normal.resolve_left (by omega)
    have apart : (if negative then -1 else 1) * (m : ℚ) * 2 ^ e' < 2 ^ 52 * 2 ^ e := by
      have bound : (m : ℚ) < 2 ^ 53 := by exact_mod_cast mantissa_lt hs
      have unit : (0 : ℚ) < 2 ^ e' := by positivity
      calc (if negative then -1 else 1) * (m : ℚ) * 2 ^ e'
        _ ≤ m * 2 ^ e' := by
          gcongr
          split <;> linarith
        _ < 2 ^ 53 * 2 ^ e' := by gcongr
        _ ≤ 2 ^ 52 * 2 ^ e := mul_two_zpow_le (not_le.1 he)
    have below : (2 : ℚ) ^ 52 * 2 ^ e ≤ y * 2 ^ e := by gcongr
    have less : |(r : ℚ) * 2 ^ e - y * 2 ^ e| <
        |(if negative then -1 else 1) * (m : ℚ) * 2 ^ e' - y * 2 ^ e| := by
      calc |(r : ℚ) * 2 ^ e - y * 2 ^ e|
        _ = |(r : ℚ) - y| * 2 ^ e := scale r
        _ ≤ |2 ^ 52 - y| * 2 ^ e := mul_le_mul_of_nonneg_right close power.le
        _ = y * 2 ^ e - 2 ^ 52 * 2 ^ e := by rw [abs_of_nonpos (by linarith)]; ring
        _ < y * 2 ^ e - (if negative then -1 else 1) * (m : ℚ) * 2 ^ e' := by linarith
        _ ≤ _ := by rw [abs_sub_comm]; exact le_abs_self _
    exact ⟨less.le, fun same => absurd same less.ne'⟩

end Rounds

theorem Rounds.of_shape {e : Int} {y : ℚ} {r k : Nat} (h : Rounds e y r)
    (hk : (k : Int) + leastExponent = e) {negative : Bool} {x : Float}
    (hs : shape x = .ofBits ((if negative then pow2 63 else 0) +
      min ((pow2 11 - 1) * pow2 52) (k * pow2 52 + r))) : Nearest negative (y * 2 ^ e) x := by
  by_cases below : k * pow2 52 + r < (pow2 11 - 1) * pow2 52
  · have normal : k = 0 ∨ pow2 52 ≤ r := h.normal_mantissa.imp_left fun least => by omega
    obtain ⟨m, e', bits, value, even⟩ := ofBits_rounded negative normal h.le below
    rw [min_eq_right below.le, bits] at hs
    refine .finite ((h.overflow_iff hk).1 below) hs fun z v hv => ?_
    obtain ⟨close, tie⟩ := h.nearest hv
    rw [value, hk]
    exact ⟨close, fun same => (tie same).imp_right even⟩
  · have infinite := ofBits_parts negative (pow2 11 - 1) 0 (by decide) (by decide)
    rw [if_pos rfl, if_pos rfl, Nat.add_zero] at infinite
    rw [min_eq_left (not_lt.1 below), infinite] at hs
    exact .infinite (not_lt.1 (mt (h.overflow_iff hk).2 below)) hs

theorem nearest_zero (negative : Bool) (den : Nat) {q : ℚ} (positive : 0 ≤ q)
    (small : q < 2 ^ (leastExponent - 1)) : Nearest negative q (nearest negative 0 den) := by
  have power : (0 : ℚ) < 2 ^ leastExponent := by positivity
  have half : q / 2 ^ leastExponent ≤ 1 / 2 := by
    rw [zpow_sub_one₀ two_ne_zero] at small
    rw [div_le_iff₀ power]
    linarith
  have rounds : Rounds leastExponent (q / 2 ^ leastExponent) 0 := {
    least := le_refl _
    below := by linarith
    normal := .inl rfl
    close := by
      rw [Nat.cast_zero, zero_sub, abs_neg, abs_of_nonneg (by positivity)]
      exact half
    even := fun _ => Even.zero }
  have bits : nearestBits 0 den = min ((pow2 11 - 1) * pow2 52) (0 * pow2 52 + 0) := by
    rw [Nat.zero_mul, Nat.add_zero, Nat.min_zero]
    exact if_pos rfl
  have shape := shape_nearest negative 0 den
  rw [bits] at shape
  have nearest := rounds.of_shape (k := 0) (by simp) shape
  rwa [div_mul_cancel₀ _ power.ne'] at nearest

theorem rounds {num den : Nat} (hn : 0 < num) (hd : 0 < den) :
    Rounds (exponentOf num den) (num / den / 2 ^ exponentOf num den)
      (roundHalfEven (scaled num den (exponentOf num den)).1
        (scaled num den (exponentOf num den)).2) := by
  obtain ⟨least, below, normal⟩ := exponentOf_spec hn hd
  have power : (0 : ℚ) < 2 ^ exponentOf num den := by positivity
  obtain ⟨close, even⟩ := roundHalfEven_close (scaled_pos hd (exponentOf num den))
    (scaled num den (exponentOf num den)).1
  rw [scaled_div] at close even
  exact {
    least, close, even
    below := (div_lt_iff₀ power).2 below
    normal := normal.imp_right (le_div_iff₀ power).2 }

theorem nearest_nearest (negative : Bool) (num : Nat) {den : Nat} (hd : 0 < den) :
    Nearest negative (num / den) (nearest negative num den) := by
  rcases Nat.eq_zero_or_pos num with rfl | hn
  · rw [Nat.cast_zero, zero_div]
    exact nearest_zero negative den le_rfl (zpow_pos two_pos _)
  · have h := rounds hn hd
    have bits : nearestBits num den = min ((pow2 11 - 1) * pow2 52)
        ((exponentOf num den - leastExponent).toNat * pow2 52 +
          roundHalfEven (scaled num den (exponentOf num den)).1
            (scaled num den (exponentOf num den)).2) := if_neg hn.ne'
    have exponent := Int.toNat_of_nonneg (sub_nonneg.2 h.least)
    have nearest := h.of_shape (by omega) (bits ▸ shape_nearest negative num den)
    rwa [div_mul_cancel₀ _ (zpow_pos two_pos _).ne'] at nearest

end Nearest

section Uniqueness

variable {x y : Float} {negative negative' : Bool} {m m' : Nat} {e e' : Int}

theorem le_greatestExponent (h : shape x = .finite negative m e) : e ≤ 971 := by
  unfold shape Shape.ofBits at h
  have below := Nat.mod_lt (x.toBits.toNat / pow2 52) (Nat.two_pow_pos 11)
  simp only [pow2, Nat.pow_eq] at h below
  split at h
  · split at h <;> cases h
  · split at h <;> cases h <;> (simp only [leastExponent]; omega)

theorem exists_value {k r : Nat} (hk : k = 0 ∨ pow2 52 ≤ r) (hr : r ≤ pow2 53)
    (below : k * pow2 52 + r < (pow2 11 - 1) * pow2 52) :
    ∃ z, value? z = some ((r : ℚ) * 2 ^ ((k : Int) + leastExponent)) := by
  obtain ⟨m, e, bits, value, -⟩ := ofBits_rounded false hk hr below
  have stored : (UInt64.ofNat (k * pow2 52 + r)).toNat = k * pow2 52 + r := by
    simp only [pow2, Nat.pow_eq] at below ⊢
    rw [UInt64.toNat_ofNat']
    omega
  refine ⟨Float.ofBits (.ofNat (k * pow2 52 + r)), ?_⟩
  rw [if_neg Bool.false_ne_true, Nat.zero_add, ← stored, ← shape_ofBits] at bits
  rw [value?_finite bits, if_neg Bool.false_ne_true, one_mul, value]

theorem exists_value_above (hs : shape x = .finite negative m e) {r : Nat} (hm : m ≤ r)
    (hr : r < pow2 53) : ∃ z, value? z = some ((r : ℚ) * 2 ^ e) := by
  have least := leastExponent_le hs
  have greatest := le_greatestExponent hs
  obtain ⟨k, rfl⟩ : ∃ k : Nat, e = k + leastExponent := ⟨(e - leastExponent).toNat, by omega⟩
  have exponent : leastExponent = -1074 := rfl
  refine exists_value ?_ hr.le ?_
  · by_cases hk : k = 0
    · exact .inl hk
    · exact .inr (Nat.le_trans (le_mantissa hs (by omega)) hm)
  · simp only [pow2, Nat.pow_eq] at hr ⊢
    omega

theorem magnitude_lt (hs : shape x = .finite negative m e)
    (hs' : shape y = .finite negative' m' e') (h : e < e') : (m : ℚ) * 2 ^ e < m' * 2 ^ e' := by
  have small : (m : ℚ) < 2 ^ 53 := by exact_mod_cast mantissa_lt hs
  have large : (2 : ℚ) ^ 52 ≤ m' := by
    have normal : e' ≠ leastExponent := ((leastExponent_le hs).trans_lt h).ne'
    exact_mod_cast le_mantissa hs' normal
  calc (m : ℚ) * 2 ^ e
    _ < 2 ^ 53 * 2 ^ e := by gcongr
    _ ≤ 2 ^ 52 * 2 ^ e' := mul_two_zpow_le h
    _ ≤ m' * 2 ^ e' := by gcongr

theorem magnitude_inj (hs : shape x = .finite negative m e)
    (hs' : shape y = .finite negative' m' e') (same : (m : ℚ) * 2 ^ e = m' * 2 ^ e') :
    m = m' ∧ e = e' := by
  rcases lt_trichotomy e e' with less | rfl | more
  · exact absurd same (magnitude_lt hs hs' less).ne
  · refine ⟨?_, rfl⟩
    exact_mod_cast mul_right_cancel₀ (zpow_pos two_pos e).ne' same
  · exact absurd same (magnitude_lt hs' hs more).ne'

theorem exists_between (hs : shape x = .finite negative m e)
    (hs' : shape y = .finite negative' m' e') (even : Even m) (even' : Even m')
    (less : (m : ℚ) * 2 ^ e < m' * 2 ^ e') :
    ∃ z v, value? z = some v ∧ m * 2 ^ e < v ∧ v < m' * 2 ^ e' := by
  have unit : (0 : ℚ) < 2 ^ e := zpow_pos two_pos e
  have he : e ≤ e' := by
    by_contra more
    exact absurd less (magnitude_lt hs' hs (not_le.1 more)).not_gt
  obtain ⟨j, rfl⟩ : ∃ j : Nat, e' = j + e := ⟨(e' - e).toNat, by omega⟩
  have grid : (m' : ℚ) * 2 ^ ((j : Int) + e) = (m' * 2 ^ j : Nat) * 2 ^ e := by
    rw [zpow_add₀ two_ne_zero, zpow_natCast]
    push_cast
    ring
  rw [grid] at less ⊢
  -- Two even mantissas on one grid are two steps apart.
  have room : m + 1 < m' * 2 ^ j := by
    have step : m < m' * 2 ^ j := by exact_mod_cast lt_of_mul_lt_mul_right less unit.le
    obtain ⟨a, ha⟩ := even
    obtain ⟨b, hb⟩ := even'.mul_right (2 ^ j)
    omega
  have bound : m + 1 < pow2 53 := by
    have small := mantissa_lt hs
    obtain ⟨a, ha⟩ := even
    simp only [pow2, Nat.pow_eq] at small ⊢
    omega
  obtain ⟨z, hz⟩ := exists_value_above hs (Nat.le_succ m) bound
  refine ⟨z, _, hz, ?_, ?_⟩
  · gcongr
    exact Nat.lt_succ_self m
  · gcongr

theorem not_magnitude_lt {q : ℚ} (hs : shape x = .finite negative m e)
    (hs' : shape y = .finite negative' m' e') (even : Even m) (even' : Even m')
    (halfway : |(m' : ℚ) * 2 ^ e' - q| = |m * 2 ^ e - q|)
    (least : ∀ z v, value? z = some v → |(m : ℚ) * 2 ^ e - q| ≤ |v - q|) :
    ¬ (m : ℚ) * 2 ^ e < m' * 2 ^ e' := by
  intro less
  obtain ⟨z, v, hz, above, below⟩ := exists_between hs hs' even even' less
  have middle : q - m * 2 ^ e = m' * 2 ^ e' - q := by
    rcases abs_eq_abs.1 halfway with same | opposite
    · linarith
    · linarith
  have before : 0 < q - m * 2 ^ e := by linarith
  have closer : |v - q| < |(m : ℚ) * 2 ^ e - q| := by
    rw [abs_sub_comm ((m : ℚ) * 2 ^ e), abs_of_pos before, abs_lt]
    constructor <;> linarith
  exact absurd (least z v hz) (not_le.2 closer)

theorem Nearest.unique {q : ℚ} (hx : Nearest negative q x) (hy : Nearest negative q y) :
    shape x = shape y := by
  cases hx with
  | infinite beyond hs =>
    cases hy with
    | infinite _ hs' => rw [hs, hs']
    | finite under => exact absurd beyond (not_le.2 under)
  | @finite m e under hs least =>
    cases hy with
    | infinite beyond => exact absurd beyond (not_le.2 under)
    | @finite m' e' _ hs' least' =>
      have small := mantissa_lt hs
      have small' := mantissa_lt hs'
      obtain ⟨z, hz⟩ := exists_value_above hs le_rfl small
      obtain ⟨z', hz'⟩ := exists_value_above hs' le_rfl small'
      obtain ⟨close, tie⟩ := least z' _ hz'
      obtain ⟨close', tie'⟩ := least' z _ hz
      have halfway := le_antisymm close' close
      by_cases same : (m : ℚ) * 2 ^ e = m' * 2 ^ e'
      · obtain ⟨rfl, rfl⟩ := magnitude_inj hs hs' same
        rw [hs, hs']
      · have even := (tie halfway).resolve_left (Ne.symm same)
        have even' := (tie' halfway.symm).resolve_left same
        rcases lt_or_gt_of_ne same with less | more
        · exact absurd less
            (not_magnitude_lt hs hs' even even' halfway fun z v h => (least z v h).1)
        · exact absurd more
            (not_magnitude_lt hs' hs even' even halfway.symm fun z v h => (least' z v h).1)

end Uniqueness

section Decimals

theorem shape_infinity (negative : Bool) : shape (infinity negative) = .infinite negative := by
  unfold infinity
  rw [shape_ofBits]
  cases negative <;> decide

theorem two_pow_le_ten_pow (b : Nat) : 2 ^ (b + 1) ≤ 10 ^ (b / 3 + 1) :=
  calc 2 ^ (b + 1)
    _ ≤ 2 ^ (3 * (b / 3 + 1)) := Nat.pow_le_pow_right two_pos (by omega)
    _ = 8 ^ (b / 3 + 1) := Nat.pow_mul ..
    _ ≤ 10 ^ (b / 3 + 1) := Nat.pow_le_pow_left (by decide) _

theorem ten_pow_le_two_pow (b : Nat) : 10 ^ (b * 3 / 10) ≤ 2 ^ b := by
  refine (Nat.pow_le_pow_iff_left (by decide : 10 ≠ 0)).1 ?_
  calc (10 ^ (b * 3 / 10)) ^ 10
    _ = 10 ^ (b * 3 / 10 * 10) := (Nat.pow_mul ..).symm
    _ ≤ 10 ^ (3 * b) := Nat.pow_le_pow_right (by decide) (by omega)
    _ = 1000 ^ b := Nat.pow_mul ..
    _ ≤ 1024 ^ b := Nat.pow_le_pow_left (by decide) b
    _ = (2 ^ b) ^ 10 := by rw [← Nat.pow_mul, Nat.mul_comm, Nat.pow_mul]

theorem ten_zpow_le {e : Int} (h : e ≤ -400) : (10 : ℚ) ^ e < 2 ^ (leastExponent - 1) := by
  obtain ⟨k, rfl⟩ : ∃ k : Nat, e = -k := ⟨(-e).toNat, by omega⟩
  calc (10 : ℚ) ^ (-(k : Int))
    _ ≤ 8 ^ (-(k : Int)) := by
      rw [zpow_neg, zpow_neg, zpow_natCast, zpow_natCast]
      gcongr
      norm_num
    _ = 2 ^ (3 * -(k : Int)) := by
      rw [zpow_mul]
      norm_num
    _ < 2 ^ (leastExponent - 1) := by
      refine zpow_lt_zpow_right₀ one_lt_two ?_
      show 3 * -(k : Int) < -1074 - 1
      omega

theorem overflow_le_ten_zpow {e : Int} (h : 400 < e) : overflow ≤ 10 ^ e := by
  calc overflow
    _ ≤ 2 ^ 53 * 2 ^ (971 : Int) :=
      mul_le_mul_of_nonneg_right (by norm_num) (zpow_pos two_pos _).le
    _ = 2 ^ (1024 : Int) := by
      rw [← zpow_natCast, ← zpow_add₀ two_ne_zero]
      rfl
    _ ≤ 2 ^ (3 * e) := zpow_le_zpow_right₀ one_le_two (by omega)
    _ = 8 ^ e := by
      rw [zpow_mul]
      norm_num
    _ ≤ 10 ^ e := zpow_le_zpow_left₀ (by omega) (by norm_num) (by norm_num)

theorem ofDecimal_nearest (negative : Bool) (digits : Nat) (exponent : Int) :
    Nearest negative (digits * 10 ^ exponent) (ofDecimal negative digits exponent) := by
  have ten : (0 : ℚ) < 10 ^ exponent := zpow_pos (by norm_num) _
  have shift (k : Nat) : (10 : ℚ) ^ k * 10 ^ exponent = 10 ^ ((k : Int) + exponent) := by
    rw [zpow_add₀ (by norm_num), zpow_natCast]
  unfold ofDecimal
  dsimp only
  split
  · rename_i low
    simp only [Bool.or_eq_true, decide_eq_true_eq] at low
    refine nearest_zero negative 1 (by positivity) ?_
    rcases low with rfl | low
    · rw [Nat.cast_zero, zero_mul]
      exact zpow_pos two_pos _
    · have less : (digits : ℚ) ≤ 10 ^ (digits.log2 / 3 + 1) := by
        exact_mod_cast Nat.lt_log2_self.le.trans (two_pow_le_ten_pow _)
      calc (digits : ℚ) * 10 ^ exponent
        _ ≤ 10 ^ (digits.log2 / 3 + 1) * 10 ^ exponent := by gcongr
        _ = 10 ^ (((digits.log2 / 3 + 1 : Nat) : Int) + exponent) := shift _
        _ < 2 ^ (leastExponent - 1) := ten_zpow_le (by omega)
  · rename_i low
    simp only [Bool.or_eq_true, decide_eq_true_eq, not_or] at low
    split
    · rename_i high
      have more : (10 : ℚ) ^ (digits.log2 * 3 / 10) ≤ digits := by
        exact_mod_cast (ten_pow_le_two_pow _).trans (Nat.log2_self_le low.1)
      refine .infinite ?_ (shape_infinity negative)
      calc overflow
        _ ≤ 10 ^ (((digits.log2 * 3 / 10 : Nat) : Int) + exponent) :=
          overflow_le_ten_zpow (by omega)
        _ = 10 ^ (digits.log2 * 3 / 10) * 10 ^ exponent := (shift _).symm
        _ ≤ digits * 10 ^ exponent := by gcongr
    · have ratio : (digits : ℚ) * 10 ^ exponent =
          (digits * pow10 exponent.toNat : Nat) / (pow10 (-exponent).toNat : Nat) := by
        rcases Int.le_total 0 exponent with he | he
        · obtain ⟨k, rfl⟩ := Int.eq_ofNat_of_zero_le he
          simp [pow10]
        · obtain ⟨k, rfl⟩ : ∃ k : Nat, exponent = -k := ⟨(-exponent).toNat, by omega⟩
          simp [pow10, div_eq_mul_inv]
      rw [ratio]
      exact nearest_nearest negative _ (Nat.pow_pos (by decide))

end Decimals

end CanvasScript.Number
