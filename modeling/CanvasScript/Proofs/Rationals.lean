import CanvasScript.Proofs.WholeNumbers
import Mathlib

namespace CanvasScript.Number

def Shape.value? : Shape → Option ℚ
  | .finite negative m e => some ((if negative then -1 else 1) * m * 2 ^ e)
  | _ => none

def value? (x : Float) : Option ℚ := (shape x).value?

theorem value?_finite {x : Float} {negative : Bool} {m : Nat} {e : Int}
    (h : shape x = .finite negative m e) :
    value? x = some ((if negative then -1 else 1) * (m : ℚ) * 2 ^ e) := by
  rw [value?, h, Shape.value?]

theorem signed_div_two_pow {negative : Bool} {m k n : Nat} :
    (if negative then -1 else 1) * (m : ℚ) * 2 ^ (-(k : Int)) = n ↔
      n * 2 ^ k = m ∧ (n = 0 ∨ negative = false) := by
  have unit : (2 : ℚ) ^ k ≠ 0 := by positivity
  rw [zpow_neg, zpow_natCast, ← div_eq_mul_inv, div_eq_iff unit]
  cases negative with
  | false =>
    simp only [Bool.false_eq_true, if_false, one_mul, or_true, and_true]
    exact eq_comm.trans (by norm_cast)
  | true =>
    simp only [if_true, Bool.true_eq_false, or_false]
    constructor
    · intro h
      have sum : n * 2 ^ k + m = 0 := by
        have : (n : ℚ) * 2 ^ k + m = 0 := by linarith
        exact_mod_cast this
      have none : n * 2 ^ k = 0 := by omega
      exact ⟨by omega, (Nat.mul_eq_zero.1 none).resolve_right (by positivity)⟩
    · rintro ⟨rfl, rfl⟩
      simp

theorem le_of_signed_mul_two_pow {negative : Bool} {m k n : Nat}
    (h : (if negative then -1 else 1) * (m : ℚ) * 2 ^ (k : Int) = n) : m * 2 ^ k ≤ n := by
  rw [zpow_natCast] at h
  cases negative with
  | false =>
    have same : m * 2 ^ k = n := by
      simp only [Bool.false_eq_true, if_false, one_mul] at h
      exact_mod_cast h
    exact Nat.le_of_eq same
  | true =>
    have sum : n + m * 2 ^ k = 0 := by
      simp only [if_true] at h
      have : (n : ℚ) + m * 2 ^ k = 0 := by linarith
      exact_mod_cast this
    omega

theorem toNat?_eq_some_iff {bound n : Nat} {x : Float} (hb : bound ≤ pow2 52) :
    toNat? bound x = some n ↔ value? x = some (n : ℚ) ∧ n < bound := by
  cases hs : shape x with
  | nan => simp [toNat?, value?, Shape.value?, hs]
  | infinite negative => simp [toNat?, value?, Shape.value?, hs]
  | finite negative m e =>
    rw [value?_finite hs, Option.some.injEq]
    by_cases he : 0 ≤ e
    · obtain ⟨k, rfl⟩ := Int.eq_ofNat_of_zero_le he
      have large : bound ≤ m := Nat.le_trans hb (le_mantissa hs (by simp [leastExponent]))
      rw [toNat?_eq_none hs large]
      refine iff_of_false (Option.some_ne_none n).symm ?_
      rintro ⟨value, less⟩
      have more : m ≤ m * 2 ^ k := Nat.le_mul_of_pos_right m (Nat.two_pow_pos k)
      have least := le_of_signed_mul_two_pow value
      omega
    · obtain ⟨k, rfl⟩ : ∃ k : Nat, e = -k := ⟨(-e).toNat, by omega⟩
      rw [toNat?_finite hs (by omega), signed_div_two_pow, and_assoc]

end CanvasScript.Number
