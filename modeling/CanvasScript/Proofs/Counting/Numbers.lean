import CanvasScript.Proofs.Sums
import CanvasScript.Proofs.Termination.Counts

namespace CanvasScript.Number

open Float.Model (UnpackedFloat)
open Float.Model.UnpackedFloat.Sign (toBitVec)

variable {x y : Float} {a b : ℚ} {negative negative' : Bool} {m m' n : Nat} {e e' : Int}

section Order

theorem magnitude_lt_iff (hs : shape x = .finite negative m e)
    (hs' : shape y = .finite negative' m' e') :
    (m : ℚ) * 2 ^ e < m' * 2 ^ e' ↔ e < e' ∨ e = e' ∧ m < m' := by
  constructor
  · intro less
    rcases lt_trichotomy e e' with lt | rfl | gt
    · exact .inl lt
    · refine .inr ⟨rfl, ?_⟩
      exact_mod_cast lt_of_mul_lt_mul_right less (zpow_pos two_pos e).le
    · exact absurd less (magnitude_lt hs' hs gt).not_gt
  · rintro (lt | ⟨rfl, less⟩)
    · exact magnitude_lt hs hs' lt
    · have unit : (0 : ℚ) < 2 ^ e := zpow_pos two_pos e
      gcongr

theorem positive_lt_iff (hm : 0 < m) (hm' : 0 < m') :
    (UnpackedFloat.finite .positive m e hm).lt (.finite .positive m' e' hm') = true ↔
      e < e' ∨ e = e' ∧ m < m' := by
  have compared : (UnpackedFloat.finite .positive m e hm).lt (.finite .positive m' e' hm') =
      (some ((compare e e').then (compare m m')) == some .lt) := rfl
  rw [compared, beq_iff_eq, Option.some.injEq, Ordering.then_eq_lt, Std.compare_eq_lt,
    Std.compare_eq_iff_eq, Std.compare_eq_lt]

theorem negative_lt_iff (hm : 0 < m) (hm' : 0 < m') :
    (UnpackedFloat.finite .negative m e hm).lt (.finite .negative m' e' hm') = true ↔
      e' < e ∨ e' = e ∧ m' < m := by
  have compared : (UnpackedFloat.finite .negative m e hm).lt (.finite .negative m' e' hm') =
      (some ((compare e e').then (compare m m')).swap == some .lt) := rfl
  rw [compared, beq_iff_eq, Option.some.injEq, Ordering.swap_eq_lt, Ordering.then_eq_gt,
    Std.compare_eq_gt, Std.compare_eq_iff_eq, Std.compare_eq_gt, eq_comm]

theorem lt_iff_value (hx : value? x = some a) (hy : value? y = some b) : x < y ↔ a < b := by
  obtain ⟨s, m, e, hs, rfl⟩ := value?_eq_some hx
  obtain ⟨s', m', e', hs', rfl⟩ := value?_eq_some hy
  have order := magnitude_lt_iff hs hs'
  have converse := magnitude_lt_iff hs' hs
  rw [lt_iff_unpacked]
  rw [shape_eq] at hs hs'
  generalize x.toModel.unpack = u at hs
  generalize y.toModel.unpack = v at hs'
  cases u with
  | notANumber | infinity => cases hs
  | zero sign =>
    cases hs
    cases v with
    | notANumber | infinity => cases hs'
    | zero sign' =>
      cases hs'
      exact iff_of_false Bool.false_ne_true (by simp)
    | finite sign' m' e' positive =>
      cases hs'
      have size : (0 : ℚ) < m' * 2 ^ e' := by positivity
      cases sign' with
      | positive => exact iff_of_true rfl (by simpa [toBitVec] using size)
      | negative => exact iff_of_false Bool.false_ne_true (by simpa [toBitVec] using size.le)
  | finite sign m e positive =>
    cases hs
    have size : (0 : ℚ) < m * 2 ^ e := by positivity
    cases v with
    | notANumber | infinity => cases hs'
    | zero sign' =>
      cases hs'
      cases sign with
      | positive => exact iff_of_false Bool.false_ne_true (by simpa [toBitVec] using size.le)
      | negative => exact iff_of_true rfl (by simpa [toBitVec] using size)
    | finite sign' m' e' positive' =>
      cases hs'
      have size' : (0 : ℚ) < m' * 2 ^ e' := by positivity
      cases sign with
      | positive =>
        cases sign' with
        | positive =>
          rw [positive_lt_iff, ← order]
          simp [toBitVec]
        | negative =>
          refine iff_of_false Bool.false_ne_true ?_
          simp [toBitVec]
          linarith
      | negative =>
        cases sign' with
        | positive =>
          refine iff_of_true rfl ?_
          simp [toBitVec]
          linarith
        | negative =>
          rw [negative_lt_iff, ← converse]
          simp [toBitVec]

theorem not_lt_least (hx : value? x = some a) (hy : shape y = .infinite true) : ¬x < y := by
  obtain ⟨negative, m, e, hs, -⟩ := value?_eq_some hx
  rw [lt_iff_unpacked]
  rw [shape_eq] at hs hy
  generalize x.toModel.unpack = u at hs
  generalize y.toModel.unpack = v at hy
  cases v with
  | notANumber | zero | finite => cases hy
  | infinity sign =>
    cases sign with
    | positive => cases hy
    | negative =>
      cases u with
      | notANumber | infinity => cases hs
      | zero | finite => exact Bool.false_ne_true

theorem not_lt_nan (hx : value? x = some a) (hy : y.isNaN = true) : ¬x < y := by
  obtain ⟨negative, m, e, hs, -⟩ := value?_eq_some hx
  rw [lt_iff_unpacked]
  rw [shape_eq] at hs
  rw [isNaN_eq] at hy
  generalize x.toModel.unpack = u at hs
  generalize y.toModel.unpack = v at hy
  cases v with
  | infinity | zero | finite => cases hy
  | notANumber =>
    cases u with
    | notANumber | infinity => cases hs
    | zero | finite => exact Bool.false_ne_true

theorem not_greatest_lt (hx : shape x = .infinite false) (y : Float) : ¬ x < y := by
  rw [lt_iff_unpacked]
  rw [shape_eq] at hx
  generalize x.toModel.unpack = u at hx
  generalize y.toModel.unpack = v
  cases u with
  | notANumber | zero | finite => cases hx
  | infinity sign =>
    cases sign with
    | negative => cases hx
    | positive =>
      cases v with
      | infinity sign' => cases sign' <;> exact Bool.false_ne_true
      | notANumber | zero | finite => exact Bool.false_ne_true

theorem lt_greatest (hx : value? x = some a) (hy : shape y = .infinite false) : x < y := by
  obtain ⟨negative, m, e, hs, -⟩ := value?_eq_some hx
  rw [lt_iff_unpacked]
  rw [shape_eq] at hs hy
  generalize x.toModel.unpack = u at hs
  generalize y.toModel.unpack = v at hy
  cases v with
  | notANumber | zero | finite => cases hy
  | infinity sign =>
    cases sign with
    | negative => cases hy
    | positive =>
      cases u with
      | notANumber | infinity => cases hs
      | zero | finite => rfl

theorem least_lt (hx : shape x = .infinite true) (hy : value? y = some b) : x < y := by
  obtain ⟨negative, m, e, hs, -⟩ := value?_eq_some hy
  rw [lt_iff_unpacked]
  rw [shape_eq] at hs hx
  generalize x.toModel.unpack = u at hx
  generalize y.toModel.unpack = v at hs
  cases u with
  | notANumber | zero | finite => cases hx
  | infinity sign =>
    cases sign with
    | positive => cases hx
    | negative =>
      cases v with
      | notANumber | infinity => cases hs
      | zero | finite => rfl

theorem isNaN_iff_shape : x.isNaN = true ↔ shape x = .nan := by
  rw [isNaN_eq, shape_eq]
  cases x.toModel.unpack with
  | notANumber => exact iff_of_true rfl rfl
  | infinity | zero | finite => exact iff_of_false Bool.false_ne_true nofun

end Order

section Counts

theorem ceil_div_two_pow (m k : Nat) :
    ⌈(m : ℚ) * 2 ^ (-(k : Int))⌉₊ = (m + pow2 k - 1) / pow2 k := by
  have unit : (0 : ℚ) < 2 ^ k := by positivity
  have least := Nat.two_pow_pos k
  simp only [pow2, Nat.pow_eq]
  apply eq_of_forall_ge_iff
  intro n
  have scaled : (m : ℚ) * (2 ^ k)⁻¹ ≤ n ↔ m ≤ 2 ^ k * n := by
    rw [← div_eq_mul_inv, div_le_iff₀ unit, mul_comm]
    norm_cast
  rw [Nat.ceil_le, zpow_neg, zpow_natCast, scaled, Nat.div_le_iff_le_mul_add_pred least]
  omega

theorem exists_value_scaled {n j : Nat} (hj : j ≤ 1074) (low : pow2 52 ≤ n * 2 ^ j)
    (high : n * 2 ^ j ≤ pow2 53) : ∃ z, value? z = some (n : ℚ) := by
  have below : (1074 - j) * pow2 52 + n * 2 ^ j < (pow2 11 - 1) * pow2 52 := by
    simp only [pow2, Nat.pow_eq] at high ⊢
    omega
  obtain ⟨z, hz⟩ := exists_value (.inr low) high below
  refine ⟨z, ?_⟩
  have exponent : ((1074 - j : Nat) : Int) + leastExponent = -j := by
    simp only [leastExponent]
    omega
  have unit : (2 : ℚ) ^ j ≠ 0 := by positivity
  rw [hz, exponent, zpow_neg, zpow_natCast]
  push_cast
  rw [mul_assoc, mul_inv_cancel₀ unit, mul_one]

theorem exists_value_of_le {n : Nat} (h : n ≤ 2 ^ 53) : ∃ z, value? z = some (n : ℚ) := by
  have limit : pow2 53 = 2 ^ 53 := rfl
  rcases Nat.eq_zero_or_pos n with rfl | positive
  · have zero := exists_value (k := 0) (r := 0) (.inl rfl) (Nat.zero_le _) (by simp)
    simpa using zero
  rcases Nat.lt_or_ge n (2 ^ 53) with less | more
  · have bits : n.log2 ≤ 52 := by
      have := (Nat.log2_lt positive.ne').2 less
      omega
    have lower := Nat.log2_self_le positive.ne'
    have upper := Nat.lt_log2_self (n := n)
    obtain ⟨j, hj⟩ := Nat.exists_eq_add_of_le bits
    refine exists_value_scaled (j := j) (by omega) ?_ ?_
    · calc pow2 52 = 2 ^ n.log2 * 2 ^ j := by rw [← Nat.pow_add, ← hj]
        _ ≤ n * 2 ^ j := Nat.mul_le_mul_right _ lower
    · calc n * 2 ^ j ≤ 2 ^ (n.log2 + 1) * 2 ^ j := Nat.mul_le_mul_right _ upper.le
        _ = pow2 53 := by rw [← Nat.pow_add, limit]; congr 1; omega
  · rw [← limit] at h more
    refine exists_value_scaled (j := 0) (Nat.zero_le _) ?_ ?_
    · rw [pow_zero, mul_one]
      exact Nat.le_trans (by decide) more
    · rwa [pow_zero, mul_one]

theorem value?_nearest_whole (negative : Bool) (h : n ≤ 2 ^ 53) :
    value? (nearest negative n 1) = some ((if negative then -1 else 1) * (n : ℚ)) := by
  have nearest := nearest_nearest negative n Nat.one_pos
  rw [Nat.cast_one, div_one] at nearest
  obtain ⟨z, hz⟩ := exists_value_of_le h
  cases nearest with
  | infinite beyond =>
    have small : (n : ℚ) ≤ 2 ^ 53 := by exact_mod_cast h
    have large : (2 : ℚ) ^ 53 < overflow := by
      have scale : (2 : ℚ) ^ (1 : Int) ≤ 2 ^ (971 : Int) :=
        zpow_le_zpow_right₀ one_le_two (by norm_num)
      rw [zpow_one] at scale
      calc (2 : ℚ) ^ 53 < (2 ^ 53 - 1 / 2) * 2 := by norm_num
        _ ≤ overflow := mul_le_mul_of_nonneg_left scale (by norm_num)
    exact absurd beyond (not_le.2 (lt_of_le_of_lt small large))
  | @finite m e _ hs least =>
    have close := (least z n hz).1
    rw [sub_self, abs_zero] at close
    have same : (m : ℚ) * 2 ^ e = n := by
      have := abs_nonpos_iff.1 close
      linarith
    rw [value?_finite hs, mul_assoc, same]

theorem value?_ofNat (h : n ≤ 2 ^ 53) : value? (ofNat n) = some (n : ℚ) := by
  have value := value?_nearest_whole false h
  rwa [if_neg Bool.false_ne_true, one_mul] at value

inductive CountsTo (x : Float) : Nat → Prop
  | nan : x.isNaN = true → CountsTo x 0
  | least : shape x = .infinite true → CountsTo x 0
  | finite {q : ℚ} : value? x = some q → CountsTo x ⌈q⌉₊

theorem InReach.exponent_le (h : InReach x) (hs : shape x = .finite false m e) : e ≤ 1 := by
  rw [InReach, isNaN_eq, le_iff, unpack_limit] at h
  rw [shape_eq] at hs
  generalize x.toModel.unpack = u at h hs
  cases u with
  | notANumber | infinity => cases hs
  | zero sign =>
    rw [Shape.ofUnpacked_zero, Shape.finite.injEq] at hs
    obtain ⟨-, -, rfl⟩ := hs
    decide
  | finite sign m e positive =>
    rw [Shape.ofUnpacked_finite, Shape.finite.injEq] at hs
    obtain ⟨plus, rfl, rfl⟩ := hs
    cases sign with
    | negative => cases plus
    | positive =>
      have limited := of_le_limit (h.resolve_left Bool.false_ne_true)
      omega

theorem InReach.ne_infinite (h : InReach x) : shape x ≠ .infinite false := by
  intro hs
  rw [InReach, isNaN_eq, le_iff, unpack_limit] at h
  rw [shape_eq] at hs
  generalize x.toModel.unpack = u at h hs
  cases u with
  | notANumber | zero | finite => cases hs
  | infinity sign =>
    cases sign with
    | negative => cases hs
    | positive => rcases h with h | h <;> cases h

theorem countBelow_finite (h : InReach x) (hs : shape x = .finite negative m e) :
    countBelow x = ⌈(if negative then -1 else 1) * (m : ℚ) * 2 ^ e⌉₊ := by
  rw [countBelow, hs]
  cases negative with
  | true =>
    have size : (0 : ℚ) ≤ m * 2 ^ e := by positivity
    have least : (-1 : ℚ) * m * 2 ^ e ≤ 0 := by linarith
    simpa using (Nat.ceil_eq_zero.2 least).symm
  | false =>
    simp only [Bool.false_eq_true, if_false, one_mul]
    have small := h.exponent_le hs
    split
    · rename_i he
      obtain ⟨k, rfl⟩ := Int.eq_ofNat_of_zero_le he
      have bound : k ≤ 64 := by omega
      have whole : (m : ℚ) * 2 ^ (k : Int) = (m * 2 ^ k : Nat) := by
        rw [zpow_natCast]
        push_cast
        rfl
      rw [Int.toNat_natCast, Nat.min_eq_left bound, whole, Nat.ceil_natCast]
      rfl
    · rename_i he
      obtain ⟨k, rfl⟩ : ∃ k : Nat, e = -k := ⟨(-e).toNat, by omega⟩
      rw [neg_neg, Int.toNat_natCast, ceil_div_two_pow]

theorem InReach.countsTo (h : InReach x) : CountsTo x (countBelow x) := by
  cases hs : shape x with
  | nan =>
    have none : countBelow x = 0 := by rw [countBelow, hs]
    rw [none]
    refine .nan ?_
    rw [isNaN_eq]
    rw [shape_eq] at hs
    generalize x.toModel.unpack = u at hs
    cases u with
    | notANumber => rfl
    | infinity | zero | finite => cases hs
  | infinite negative =>
    cases negative with
    | false => exact absurd hs h.ne_infinite
    | true =>
      have none : countBelow x = 0 := by
        rw [countBelow, hs]
        rfl
      rw [none]
      exact .least hs
  | finite negative m e =>
    rw [countBelow_finite h hs]
    exact .finite (value?_finite hs)

theorem CountsTo.ofNat_lt_iff {k : Nat} (h : CountsTo x n) (hk : k ≤ 2 ^ 53) :
    ofNat k < x ↔ k < n := by
  have value := value?_ofNat hk
  cases h with
  | nan nan => exact iff_of_false (not_lt_nan value nan) (Nat.not_lt_zero k)
  | least hs => exact iff_of_false (not_lt_least value hs) (Nat.not_lt_zero k)
  | finite hq => rw [lt_iff_value value hq, Nat.lt_ceil]

end Counts

section Addition

theorem ofNat_add {i j : Nat} (h : i + j ≤ 2 ^ 53) : ofNat i + ofNat j = ofNat (i + j) := by
  have first : value? (ofNat i) = some (i : ℚ) := value?_ofNat (by omega)
  have second : value? (ofNat j) = some (j : ℚ) := value?_ofNat (by omega)
  have sum : value? (ofNat (i + j)) = some ((i : ℚ) + j) := by
    rw [value?_ofNat h, Nat.cast_add]
  rcases Nat.eq_zero_or_pos (i + j) with zero | positive
  · obtain ⟨rfl, rfl⟩ := Nat.add_eq_zero_iff.1 zero
    rfl
  · refine add_eq first second sum ?_
    exact_mod_cast positive.ne'

end Addition

structure Counter (x : Float) (count : Nat) : Prop where
  countsTo : CountsTo x count
  value : ∀ k ≤ count, value? (ofNat k) = some (k : ℚ)
  below : ∀ k ≤ count, ofNat k < x ↔ k < count
  next : ∀ k < count, ofNat k + ofNat 1 = ofNat (k + 1)

theorem InReach.counter (h : InReach x) : Counter x (countBelow x) := by
  have reach : countBelow x ≤ 2 ^ 53 := h.countBelow_le
  constructor
  · exact h.countsTo
  · intro k hk
    exact value?_ofNat (hk.trans reach)
  · intro k hk
    exact h.countsTo.ofNat_lt_iff (hk.trans reach)
  · intro k hk
    exact ofNat_add (hk.trans_le reach)

theorem CountsTo.eq_ceil {q : ℚ} (h : CountsTo x n) (value : value? x = some q) : n = ⌈q⌉₊ := by
  cases h with
  | finite value' =>
    cases value.symm.trans value'
    rfl
  | nan nan =>
    obtain ⟨negative, m, e, hs, -⟩ := value?_eq_some value
    rw [isNaN_eq] at nan
    rw [shape_eq] at hs
    generalize x.toModel.unpack = u at nan hs
    cases u with
    | notANumber => cases hs
    | infinity | zero | finite => cases nan
  | least hs =>
    obtain ⟨negative, m, e, hs', -⟩ := value?_eq_some value
    cases hs.symm.trans hs'

end CanvasScript.Number
