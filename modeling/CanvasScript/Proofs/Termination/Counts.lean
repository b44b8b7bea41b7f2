import CanvasScript.Number.Numeral

namespace CanvasScript.Number

open Float.Model.UnpackedFloat (unpackSign unpackExponent unpackMantissa unpack)

def Shape.ofUnpacked : Float.Model.UnpackedFloat → Shape
  | .notANumber => .nan
  | .infinity s => .infinite (s.toBitVec = 1#1)
  | .zero s => .finite (s.toBitVec = 1#1) 0 leastExponent
  | .finite s m e _ => .finite (s.toBitVec = 1#1) m e

namespace Shape

variable (sign : Float.Model.UnpackedFloat.Sign)

theorem ofUnpacked_infinity : ofUnpacked (.infinity sign) = .infinite (sign.toBitVec = 1#1) := rfl

theorem ofUnpacked_zero :
    ofUnpacked (.zero sign) = .finite (sign.toBitVec = 1#1) 0 leastExponent := rfl

theorem ofUnpacked_finite {m : Nat} {e : Int} (h : 0 < m) :
    ofUnpacked (.finite sign m e h) = .finite (sign.toBitVec = 1#1) m e := rfl

end Shape

section Bits

variable (b : BitVec 64)

theorem toNat_unpackSign :
    (@unpackSign .binary64 b).toNat = b.toNat / pow2 63 % 2 :=
  calc (@unpackSign .binary64 b).toNat
    _ = (b.extractLsb 63 63).toNat := rfl
    _ = b.toNat / pow2 63 % 2 := by rw [BitVec.extractLsb_toNat, Nat.shiftRight_eq_div_pow]

theorem toNat_unpackExponent :
    (@unpackExponent .binary64 b).toNat = b.toNat / pow2 52 % pow2 11 :=
  calc (@unpackExponent .binary64 b).toNat
    _ = (b.extractLsb 62 52).toNat := rfl
    _ = b.toNat / pow2 52 % pow2 11 := by
      rw [BitVec.extractLsb_toNat, Nat.shiftRight_eq_div_pow]

theorem toNat_unpackMantissa :
    (@unpackMantissa .binary64 b).toNat = b.toNat % pow2 52 :=
  calc (@unpackMantissa .binary64 b).toNat
    _ = (b.extractLsb 51 0).toNat := rfl
    _ = b.toNat % pow2 52 := by rw [BitVec.extractLsb_toNat, Nat.shiftRight_zero]

theorem toNat_one_append (m : BitVec 52) : (1#1 ++ m).toNat = pow2 52 + m.toNat := by
  rw [BitVec.toNat_append, ← Nat.shiftLeft_add_eq_or_of_lt m.isLt]
  rfl

theorem toBitVec_ofBitVec (s : BitVec 1) :
    (Float.Model.UnpackedFloat.Sign.ofBitVec s).toBitVec = s := by
  revert s
  decide

theorem Shape.ofBits_toNat : ofBits b.toNat = ofUnpacked (unpack .binary64 b) := by
  have sign : (@unpackSign .binary64 b = 1#1) = (b.toNat / pow2 63 % 2 = 1) := by
    rw [← BitVec.toNat_inj, toNat_unpackSign]
    rfl
  have stored : @unpackMantissa .binary64 b = 0#_ ↔ b.toNat % pow2 52 = 0 := by
    rw [← BitVec.toNat_inj, toNat_unpackMantissa]
    rfl
  have least : @unpackExponent .binary64 b = 0#_ ↔ b.toNat / pow2 52 % pow2 11 = 0 := by
    rw [← BitVec.toNat_inj, toNat_unpackExponent]
    rfl
  have greatest : @unpackExponent .binary64 b = -1#_ ↔
      b.toNat / pow2 52 % pow2 11 = pow2 11 - 1 := by
    rw [← BitVec.toNat_inj, toNat_unpackExponent]
    rfl
  have bias : ((Float.Model.Format.exponentBias .binary64 : Nat) : Int) = 1023 := rfl
  unfold ofBits unpack
  dsimp only
  by_cases hg : b.toNat / pow2 52 % pow2 11 = pow2 11 - 1
  · rw [if_pos hg, if_pos (greatest.2 hg)]
    by_cases hs : b.toNat % pow2 52 = 0
    · rw [if_pos hs, if_pos (stored.2 hs), ofUnpacked_infinity, toBitVec_ofBitVec]
      simp only [sign]
    · rw [if_neg hs, if_neg (mt stored.1 hs)]
      rfl
  · rw [if_neg hg, if_neg (mt greatest.1 hg)]
    by_cases hl : b.toNat / pow2 52 % pow2 11 = 0
    · rw [if_pos hl, if_pos (least.2 hl)]
      by_cases hs : b.toNat % pow2 52 = 0
      · rw [dif_pos (stored.2 hs), ofUnpacked_zero, toBitVec_ofBitVec, hs]
        simp only [sign]
      · rw [dif_neg (mt stored.1 hs), ofUnpacked_finite, toBitVec_ofBitVec, toNat_unpackExponent,
          toNat_unpackMantissa, hl]
        simp only [sign]
        rfl
    · rw [if_neg hl, if_neg (mt least.1 hl), ofUnpacked_finite, toBitVec_ofBitVec,
        toNat_one_append, toNat_unpackExponent, toNat_unpackMantissa]
      simp only [sign, bias, leastExponent, Shape.finite.injEq, true_and]
      omega

end Bits

theorem shape_eq (x : Float) : shape x = .ofUnpacked x.toModel.unpack :=
  Shape.ofBits_toNat _

theorem mantissa_lt {x : Float} {negative : Bool} {m : Nat} {e : Int}
    (h : shape x = .finite negative m e) : m < pow2 53 := by
  have stored := Nat.mod_lt x.toBits.toNat (Nat.two_pow_pos 52)
  unfold shape Shape.ofBits at h
  simp only at h
  split at h
  · split at h <;> cases h
  · split at h <;> cases h <;> simp only [pow2, Nat.pow_eq] at * <;> omega

theorem unpack_limit :
    (ofNat (pow2 53)).toModel.unpack = .finite .positive (pow2 52) 1 (by decide) := by
  rfl

theorem isNaN_eq (x : Float) : x.isNaN = x.toModel.unpack.isNaN := rfl

theorem le_iff (x y : Float) : x ≤ y ↔ x.toModel.unpack.le y.toModel.unpack = true :=
  decide_eq_true_iff

theorem ceil_le (m : Nat) {d : Nat} (hd : 0 < d) : (m + d - 1) / d ≤ m := by
  have lt : m + d - 1 < (m + 1) * d := by
    have := Nat.le_mul_of_pos_right m hd
    rw [Nat.succ_mul]
    omega
  exact Nat.le_of_lt_succ (Nat.div_lt_of_lt_mul (Nat.mul_comm _ _ ▸ lt))

theorem of_le_limit {m : Nat} {e : Int} {hm : 0 < m}
    (h : (Float.Model.UnpackedFloat.finite .positive m e hm).le
      (.finite .positive (pow2 52) 1 (by decide)) = true) : e < 1 ∨ e = 1 ∧ m ≤ pow2 52 := by
  replace h : ((compare e 1).then (compare m (pow2 52))).isLE = true := h
  rcases Int.lt_trichotomy e 1 with lt | rfl | gt
  · exact .inl lt
  · refine .inr ⟨rfl, ?_⟩
    simpa [Std.isLE_compare] using h
  · rw [Std.compare_eq_gt.2 gt] at h
    cases h

def InReach (x : Float) : Prop := x.isNaN = true ∨ x ≤ ofNat (pow2 53)

theorem InReach.countBelow_le {x : Float} (h : InReach x) : countBelow x ≤ pow2 53 := by
  have hm := @mantissa_lt x
  rw [InReach, isNaN_eq, le_iff, unpack_limit] at h
  unfold countBelow
  rw [shape_eq] at hm ⊢
  generalize x.toModel.unpack = u at h hm
  cases u with
  | notANumber => exact Nat.zero_le _
  | infinity sign =>
    cases sign with
    | negative => exact Nat.zero_le _
    | positive => exact absurd h (by rintro (h | h) <;> cases h)
  | zero sign =>
    simp only [Shape.ofUnpacked_zero]
    split
    · exact Nat.zero_le _
    · rw [if_neg (by decide : ¬ 0 ≤ leastExponent)]
      generalize (-leastExponent).toNat = k
      exact Nat.le_trans (ceil_le 0 (Nat.two_pow_pos k)) (Nat.zero_le _)
  | finite sign m e hp =>
    cases sign with
    | negative => exact Nat.zero_le _
    | positive =>
      have small : m < pow2 53 := hm rfl
      show (if 0 ≤ e then m * pow2 (min e.toNat 64)
        else (m + pow2 (-e).toNat - 1) / pow2 (-e).toNat) ≤ pow2 53
      split
      · rcases of_le_limit (h.resolve_left Bool.false_ne_true) with lt | ⟨rfl, hl⟩
        · obtain rfl : e = 0 := by omega
          simpa using Nat.le_of_lt small
        · simpa using Nat.mul_le_mul_right 2 hl
      · exact Nat.le_trans (ceil_le m (Nat.two_pow_pos _)) (Nat.le_of_lt small)

end CanvasScript.Number
