import CanvasScript.Console
import CanvasScript.Proofs.Rounding

namespace CanvasScript.Number

open Float.Model (UnpackedFloat)
open Float.Model.UnpackedFloat (unpackSign unpackExponent unpackMantissa unpack pack packComponents)

variable {x : Float} {negative : Bool} {m : Nat} {e : Int}

theorem unpack_positive (b : BitVec (Float.Model.Format.numBits .binary64)) :
    unpack .binary64 (packComponents .binary64 .positive (unpackExponent b) (unpackMantissa b)) =
      (unpack .binary64 b).abs := by
  simp only [unpack, Float.Model.UnpackedFloat.unpackSign_packComponents,
    Float.Model.UnpackedFloat.unpackExponent_packComponents,
    Float.Model.UnpackedFloat.unpackMantissa_packComponents,
    Float.Model.UnpackedFloat.Sign.ofBitVec_toBitVec]
  split
  · split <;> rfl
  · split
    · split <;> rfl
    · rfl

theorem unpack_abs (x : Float) : x.abs.toModel.unpack = x.toModel.unpack.abs := by
  have packed : x.abs.toModel.unpack = unpack .binary64 (pack .binary64 x.toModel.unpack.abs) := rfl
  have cleared : x.toModel.unpack.abs = _ := (unpack_positive x.toModel.toBits.toBitVec).symm
  rw [packed, cleared]
  by_cases nan : unpack .binary64 (packComponents .binary64 .positive
      (unpackExponent x.toModel.toBits.toBitVec) (unpackMantissa x.toModel.toBits.toBitVec)) =
      .notANumber
  · rw [nan]
    rfl
  · rw [pack_unpack nan]

theorem unpack_wholeLimit :
    (9007199254740992.0 : Float).toModel.unpack = .finite .positive (pow2 52) 1 (by decide) := rfl

theorem lt_iff_unpacked (x y : Float) :
    x < y ↔ x.toModel.unpack.lt y.toModel.unpack = true :=
  decide_eq_true_iff

theorem abs_lt_wholeLimit_iff (h : shape x = .finite negative m e) :
    x.abs < 9007199254740992.0 ↔ e ≤ 0 := by
  have large := le_mantissa h
  rw [lt_iff_unpacked, unpack_abs, unpack_wholeLimit]
  rw [shape_eq] at h
  generalize x.toModel.unpack = u at h
  cases u with
  | notANumber => cases h
  | infinity s => cases h
  | zero s =>
    rw [Shape.ofUnpacked_zero] at h
    cases h
    exact iff_of_true rfl (by decide)
  | finite s n f hn =>
    rw [Shape.ofUnpacked_finite] at h
    cases h
    have order :
        (UnpackedFloat.finite s m e hn).abs.lt (.finite .positive (pow2 52) 1 (by decide)) =
        (some ((compare e 1).then (compare m (pow2 52))) == some .lt) := rfl
    rw [order, beq_iff_eq, Option.some.injEq, Ordering.then_eq_lt, Std.compare_eq_lt,
      Std.compare_eq_iff_eq, Std.compare_eq_lt]
    constructor
    · rintro (lt | ⟨rfl, small⟩)
      · omega
      · exact absurd (large (by decide)) (Nat.not_le.2 small)
    · intro le
      exact .inl (by omega)

theorem signed_abs (negative : Bool) (m : Nat) (e : Int) :
    |(if negative then -1 else 1) * (m : ℚ) * 2 ^ e| = m * 2 ^ e := by
  have unit : |(if negative then -1 else 1 : ℚ)| = 1 := by cases negative <;> simp
  rw [abs_mul, abs_mul, unit, one_mul, Nat.abs_cast, abs_of_pos (by positivity)]

theorem magnitude_lt_wholeLimit_iff (h : shape x = .finite negative m e) :
    (m : ℚ) * 2 ^ e < 2 ^ 53 ↔ e ≤ 0 := by
  have small : (m : ℚ) < 2 ^ 53 := by exact_mod_cast mantissa_lt h
  constructor
  · intro lt
    by_contra positive
    have large : (2 : ℚ) ^ 52 ≤ m := by
      exact_mod_cast le_mantissa h (by simp only [leastExponent]; omega)
    have scale : (2 : ℚ) ^ (1 : Int) ≤ 2 ^ e := zpow_le_zpow_right₀ (by norm_num) (by omega)
    have above : (2 : ℚ) ^ 52 * 2 ^ (1 : Int) ≤ m * 2 ^ e := by gcongr
    norm_num at above lt
    linarith
  · intro le
    have scale : (2 : ℚ) ^ e ≤ 1 := zpow_le_one_of_nonpos₀ (by norm_num) le
    calc (m : ℚ) * 2 ^ e
      _ ≤ m * 1 := by gcongr
      _ < 2 ^ 53 := by linarith

section Exponent

variable {k : Nat} (h : shape x = .finite negative m (-(k : Int)))
include h

theorem isWhole_finite : isWhole x = true ↔ m % 2 ^ k = 0 := by
  rw [isWhole, h]
  cases k with
  | zero => simp [Nat.mod_one]
  | succ k =>
    have below : ¬ 0 ≤ -((k + 1 : Nat) : Int) := by omega
    have places : (- -((k + 1 : Nat) : Int)).toNat = k + 1 := by omega
    simp only [below, places, decide_false, Bool.false_or, decide_eq_true_iff]
    exact Iff.rfl

theorem toInt_finite : toInt x = (if negative then -1 else 1) * ((m / 2 ^ k : Nat) : Int) := by
  have small : m / 2 ^ k ≤ pow2 63 := by
    have less : m < 2 ^ 53 := mantissa_lt h
    have quotient := Nat.div_le_self m (2 ^ k)
    simp only [pow2, Nat.pow_eq]
    omega
  have size : (if 0 ≤ -(k : Int) then m * pow2 (min (-(k : Int)).toNat 64)
      else m / pow2 (- -(k : Int)).toNat) = m / 2 ^ k := by
    cases k with
    | zero => simp
    | succ k =>
      have below : ¬ 0 ≤ -((k + 1 : Nat) : Int) := by omega
      have places : (- -((k + 1 : Nat) : Int)).toNat = k + 1 := by omega
      rw [if_neg below, places]
      rfl
  rw [toInt, h]
  dsimp only
  rw [size, Nat.min_eq_left small]
  cases negative <;> simp

theorem value?_toInt (whole : m % 2 ^ k = 0) : value? x = some (toInt x : ℚ) := by
  have product : m / 2 ^ k * 2 ^ k = m := Nat.div_mul_cancel (Nat.dvd_of_mod_eq_zero whole)
  have unit : (2 : ℚ) ^ k ≠ 0 := by positivity
  rw [value?_finite h, toInt_finite h, ← product, Nat.mul_div_cancel _ (by positivity), zpow_neg,
    zpow_natCast]
  generalize m / 2 ^ k = n
  push_cast
  rw [mul_assoc, mul_assoc, mul_inv_cancel₀ unit, mul_one]

theorem whole_of_value? {n : Int} (hn : value? x = some (n : ℚ)) : m % 2 ^ k = 0 := by
  have value := Option.some.inj ((value?_finite h).symm.trans hn)
  have magnitude : (m : ℚ) * 2 ^ (-(k : Int)) = |(n : ℚ)| := by rw [← value, signed_abs]
  have unit : (2 : ℚ) ^ k ≠ 0 := by positivity
  rw [zpow_neg, zpow_natCast, ← div_eq_mul_inv, div_eq_iff unit, ← Int.cast_abs,
    Int.abs_eq_natAbs] at magnitude
  have product : m = n.natAbs * 2 ^ k := by exact_mod_cast magnitude
  rw [product, Nat.mul_mod_left]

end Exponent

theorem isFinite_eq (x : Float) : x.isFinite = (value? x).isSome := by
  have unpacked : x.isFinite = x.toModel.unpack.isFinite := rfl
  rw [unpacked, value?, shape_eq]
  cases x.toModel.unpack <;> rfl

end CanvasScript.Number

namespace CanvasScript.Console

open Number (value?)

inductive NumeralOf (x : Float) : Json → Prop
  | whole {n : Int} : value? x = some (n : ℚ) → |n| < 2 ^ 53 → NumeralOf x (.int n)
  | real {q : ℚ} : value? x = some q → (∀ n : Int, q = n → 2 ^ 53 ≤ |n|) → NumeralOf x (.real x)
  | null : value? x = none → NumeralOf x .null

theorem NumeralOf.unique {x : Float} {j j' : Json} (h : NumeralOf x j) (h' : NumeralOf x j') :
    j = j' := by
  cases h with
  | whole hn less =>
    cases h' with
    | whole hn' _ => rw [hn, Option.some.injEq, Int.cast_inj] at hn'; rw [hn']
    | real hq far =>
      exact absurd (far _ (Option.some.inj (hq.symm.trans hn))) (not_le.2 less)
    | null none => rw [hn] at none; cases none
  | real hq far =>
    cases h' with
    | whole hn' less =>
      exact absurd (far _ (Option.some.inj (hq.symm.trans hn'))) (not_le.2 less)
    | real _ _ => rfl
    | null none => rw [hq] at none; cases none
  | null none =>
    cases h' with
    | whole hn _ => rw [hn] at none; cases none
    | real hq _ => rw [hq] at none; cases none
    | null _ => rfl

theorem numberJson_spec (x : Float) : NumeralOf x (numberJson x) := by
  have finite := Number.isFinite_eq x
  cases hx : value? x with
  | none =>
    have notWhole : Number.isWhole x = false := by
      rw [value?] at hx
      rw [Number.isWhole]
      cases hs : Number.shape x with
      | finite negative m e => rw [hs] at hx; cases hx
      | _ => rfl
    rw [hx, Option.isSome_none] at finite
    have written : numberJson x = .null := by simp [numberJson, notWhole, finite]
    exact written ▸ .null hx
  | some q =>
    obtain ⟨negative, m, e, hs, hq⟩ := Number.value?_eq_some hx
    have magnitude : |q| = m * 2 ^ e := by rw [← hq, Number.signed_abs]
    have order := Number.abs_lt_wholeLimit_iff hs
    have limit := Number.magnitude_lt_wholeLimit_iff hs
    rw [hx, Option.isSome_some] at finite
    by_cases whole : Number.isWhole x = true ∧ e ≤ 0
    · obtain ⟨k, rfl⟩ : ∃ k : Nat, e = -k := ⟨(-e).toNat, by omega⟩
      have written : numberJson x = .int (Number.toInt x) := by
        simp [numberJson, whole.1, order.2 whole.2]
      have value := Number.value?_toInt hs ((Number.isWhole_finite hs).1 whole.1)
      have same : q = Number.toInt x := Option.some.inj (hx.symm.trans value)
      have less : |(Number.toInt x : ℚ)| < 2 ^ 53 := by
        rw [← same, magnitude]
        exact limit.2 whole.2
      exact written ▸ .whole value (by exact_mod_cast less)
    · have written : numberJson x = .real x := by
        rw [not_and, ← order] at whole
        have other : ¬ (Number.isWhole x && decide (x.abs < 9007199254740992.0)) = true := by
          simpa using whole
        rw [numberJson, if_neg other, if_pos finite]
      refine written ▸ .real hx fun n same => ?_
      by_contra! less
      have small : |q| < 2 ^ 53 := by
        rw [same]
        exact_mod_cast less
      have le : e ≤ 0 := limit.1 (magnitude ▸ small)
      obtain ⟨k, rfl⟩ : ∃ k : Nat, e = -k := ⟨(-e).toNat, by omega⟩
      exact whole ⟨(Number.isWhole_finite hs).2 (Number.whole_of_value? hs (same ▸ hx)), le⟩

end CanvasScript.Console
