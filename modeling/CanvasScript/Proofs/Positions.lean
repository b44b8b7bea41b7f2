import CanvasScript.Place
import CanvasScript.Proofs.Counting.Numbers

namespace CanvasScript

namespace Number

open Float.Model (UnpackedFloat)
open Float.Model.UnpackedFloat (unpackSign unpack pack packComponents)

variable {x y : Float} {a b : ℚ} {negative : Bool} {m n : Nat} {e : Int}

section Signs

theorem unpackSign_packComponents {sign : UnpackedFloat.Sign} {exponent : BitVec 11}
    {mantissa : BitVec 52} :
    unpackSign (packComponents .binary64 sign exponent mantissa) = sign.toBitVec := by
  refine BitVec.toNat_inj.1 ?_
  have low := mantissa.isLt
  have mid := exponent.isLt
  have high := sign.toBitVec.isLt
  rw [toNat_unpackSign, packComponents, toNat_append, toNat_append]
  simp only [pow2, Nat.pow_eq]
  show ((sign.toBitVec.toNat * 2 ^ 11 + exponent.toNat) * 2 ^ 52 + mantissa.toNat) / 2 ^ 63 % 2 = _
  omega

theorem toCount_ofModel {u : UnpackedFloat} {exponent : BitVec 11} {mantissa : BitVec 52}
    (h : pack .binary64 u = packComponents .binary64 .negative exponent mantissa) :
    toCount (Float.ofModel (.pack u)) = 0 := by
  have packed : shape (Float.ofModel (.pack u)) = .ofBits (pack .binary64 u).toNat := rfl
  have minus : UnpackedFloat.Sign.ofBitVec (UnpackedFloat.Sign.toBitVec .negative) = .negative :=
    rfl
  rw [toCount, packed, h, Shape.ofBits_toNat]
  generalize hv : unpack _ _ = v
  unfold unpack at hv
  dsimp only at hv
  rw [unpackSign_packComponents, minus] at hv
  split at hv
  · split at hv <;> (subst hv; rfl)
  · split at hv
    · split at hv <;> (subst hv; rfl)
    · subst hv
      rfl

theorem toCount_round (m : Nat) (e : Int) :
    toCount (Float.ofModel (.pack (UnpackedFloat.round .binary64 .negative m e))) = 0 := by
  unfold UnpackedFloat.round UnpackedFloat.roundWithAccuracy
  dsimp only
  split
  · exact toCount_ofModel rfl
  · generalize hu : UnpackedFloat.finite _ _ _ _ = u
    have packed : ∃ exponent mantissa,
        pack .binary64 u = packComponents .binary64 .negative exponent mantissa := by
      rw [← hu, pack]
      dsimp only
      split
      · exact ⟨_, _, rfl⟩
      · split <;> exact ⟨_, _, rfl⟩
    obtain ⟨exponent, mantissa, packed⟩ := packed
    exact toCount_ofModel packed

theorem toCount_of_nonpos (hx : value? x = some a) (ha : a ≤ 0) : toCount x = 0 := by
  obtain ⟨negative, m, e, hs, rfl⟩ := value?_eq_some hx
  rw [toCount, hs]
  cases negative with
  | true => rfl
  | false =>
    have zero : m = 0 := by
      have unit : (0 : ℚ) < 2 ^ e := by positivity
      rw [if_neg Bool.false_ne_true, one_mul] at ha
      exact Nat.le_zero.1 (by exact_mod_cast nonpos_of_mul_nonpos_left ha unit)
    rw [zero]
    simp

theorem toCount_add_least (hx : value? x = some a) (hy : shape y = .infinite true) :
    toCount (x + y) = 0 := by
  have least : y.toModel.unpack = .infinity .negative := by
    rw [shape_eq] at hy
    exact Shape.ofUnpacked_injective hy
  rw [add_eq_ofModel, least]
  obtain ⟨s, unpacked, -⟩ | ⟨s, m, e, hm, unpacked, -⟩ := unpack_cases hx <;> rw [unpacked] <;>
    exact toCount_ofModel rfl

theorem toCount_add (hx : value? x = some a) (hy : value? y = some b) (h : a + b ≤ 0) :
    toCount (x + y) = 0 := by
  rw [add_eq_ofModel]
  obtain ⟨s, zero, rfl⟩ | ⟨s, m, e, hm, unpacked, value⟩ := unpack_cases hx
  · obtain ⟨s', zero', rfl⟩ | ⟨s', m', e', hm', unpacked', value'⟩ := unpack_cases hy
    · rw [zero, zero']
      cases s <;> cases s' <;> decide +kernel
    · have kept : UnpackedFloat.add .binary64 (.zero s) (.finite s' m' e' hm') =
          .finite s' m' e' hm' := rfl
      rw [zero, unpacked', kept, ofModel_pack unpacked' nofun]
      exact toCount_of_nonpos hy (by linarith)
  · obtain ⟨s', zero', rfl⟩ | ⟨s', m', e', hm', unpacked', value'⟩ := unpack_cases hy
    · have kept : UnpackedFloat.add .binary64 (.finite s m e hm) (.zero s') =
          .finite s m e hm := rfl
      rw [unpacked, zero', kept, ofModel_pack unpacked nofun]
      exact toCount_of_nonpos hx (by linarith)
    · rw [unpacked, unpacked']
      have low : (0 : ℚ) < 2 ^ min e e' := by positivity
      have total := congrArg₂ (· + ·) (aligned (s := s) (m := m) (min_le_left e e'))
        (aligned (s := s') (m := m') (min_le_right e e'))
      rw [← add_mul, ← Int.cast_add, value, value'] at total
      show toCount (Float.ofModel (.pack (UnpackedFloat.normalize .binary64 _ _ .positive))) = 0
      generalize s.apply _ + s'.apply _ = sum at total ⊢
      have negative : sum ≤ 0 := by
        exact_mod_cast nonpos_of_mul_nonpos_left (total.trans_le h) low
      -- The sum may be rounded, but never across zero.
      unfold UnpackedFloat.normalize
      rcases negative.lt_or_eq with less | rfl
      · rw [Std.compare_eq_lt.2 less]
        exact toCount_round _ _
      · exact (by decide +kernel : toCount (Float.ofModel (.pack (.zero .positive))) = 0)

end Signs

section Wholes

theorem min_scaled {k bound : Nat} (hb : bound ≤ 2 ^ 64) :
    min (m * pow2 (min k 64)) bound = min (m * 2 ^ k) bound := by
  rcases Nat.eq_zero_or_pos m with rfl | positive
  · rw [Nat.zero_mul, Nat.zero_mul]
  rcases le_total k 64 with small | large
  · rw [Nat.min_eq_left small]
    rfl
  · have reach : 2 ^ 64 ≤ m * pow2 64 := Nat.le_mul_of_pos_left _ positive
    have beyond : m * pow2 64 ≤ m * 2 ^ k :=
      Nat.mul_le_mul_left m (Nat.pow_le_pow_right two_pos large)
    rw [Nat.min_eq_right large, Nat.min_eq_right (hb.trans reach),
      Nat.min_eq_right (hb.trans (reach.trans beyond))]

theorem floor_mul (m k : Nat) : ⌊(m : ℚ) * 2 ^ (k : Int)⌋₊ = m * 2 ^ k := by
  rw [zpow_natCast]
  exact_mod_cast Nat.floor_natCast (m * 2 ^ k)

theorem floor_div (m k : Nat) : ⌊(m : ℚ) * 2 ^ (-(k : Int))⌋₊ = m / 2 ^ k := by
  rw [zpow_neg, zpow_natCast, ← div_eq_mul_inv]
  have quotient := Nat.floor_div_eq_div (K := ℚ) m (2 ^ k)
  rwa [Nat.cast_pow, Nat.cast_ofNat] at quotient

theorem min_floor (m : Nat) (e : Int) {bound : Nat} (hb : bound ≤ 2 ^ 64) :
    min (if 0 ≤ e then m * pow2 (min e.toNat 64) else m / pow2 (-e).toNat) bound =
      min ⌊(m : ℚ) * 2 ^ e⌋₊ bound := by
  rcases le_or_gt 0 e with he | he
  · obtain ⟨k, rfl⟩ := Int.eq_ofNat_of_zero_le he
    rw [if_pos he, Int.toNat_natCast, floor_mul, min_scaled hb]
  · obtain ⟨k, rfl⟩ : ∃ k : Nat, e = -k := ⟨(-e).toNat, by omega⟩
    rw [if_neg (not_le.2 he), neg_neg, Int.toNat_natCast, floor_div]
    rfl

theorem toInt_floor (hs : shape x = .finite negative m e) :
    toInt x = (if negative then -1 else 1) * (min ⌊(m : ℚ) * 2 ^ e⌋₊ (2 ^ 63) : Nat) := by
  have cut := min_floor m e (show pow2 63 ≤ 2 ^ 64 by decide)
  rw [toInt, hs]
  dsimp only
  rw [cut]
  cases negative <;> simp [pow2]

theorem toCount_floor (hs : shape x = .finite negative m e) :
    toCount x = if negative then 0 else min ⌊(m : ℚ) * 2 ^ e⌋₊ (2 ^ 64 - 1) := by
  have cut := min_floor m e (show pow2 64 - 1 ≤ 2 ^ 64 by decide)
  rw [toCount, hs]
  dsimp only
  rw [cut]
  rfl

theorem value?_truncate (hs : shape x = .finite negative m e) :
    value? (truncate x) = some ((if negative then -1 else 1) * (⌊(m : ℚ) * 2 ^ e⌋₊ : ℚ)) := by
  rw [truncate, hs]
  dsimp only
  rcases le_or_gt 0 e with he | he
  · obtain ⟨k, rfl⟩ := Int.eq_ofNat_of_zero_le he
    rw [if_pos he, value?_finite hs, floor_mul, zpow_natCast, mul_assoc]
    push_cast
    rfl
  · obtain ⟨k, rfl⟩ : ∃ k : Nat, e = -k := ⟨(-e).toNat, by omega⟩
    have small : m / 2 ^ k ≤ 2 ^ 53 := (Nat.div_le_self m _).trans (mantissa_lt hs).le
    rw [if_neg (not_le.2 he), neg_neg, Int.toNat_natCast, floor_div]
    exact value?_nearest_whole negative small

theorem signed_natAbs {n : Int} (hn : value? x = some (n : ℚ))
    (hs : shape x = .finite negative m e) :
    (m : ℚ) * 2 ^ e = n.natAbs ∧ (if negative then -1 else 1) * (n.natAbs : Int) = n := by
  have value := Option.some.inj ((value?_finite hs).symm.trans hn)
  have size : (m : ℚ) * 2 ^ e = n.natAbs := by
    rw [← signed_abs negative, value, ← Int.cast_abs, Int.abs_eq_natAbs, Int.cast_natCast]
  refine ⟨size, ?_⟩
  rw [mul_assoc, size] at value
  have sign : (((if negative then -1 else 1 : Int)) : ℚ) = if negative then -1 else 1 := by
    cases negative <;> simp
  apply Int.cast_injective (α := ℚ)
  rw [Int.cast_mul, sign, Int.cast_natCast, value]

theorem toInt_of_value? {n : Int} (hn : value? x = some (n : ℚ)) (bound : n.natAbs ≤ 2 ^ 63) :
    toInt x = n := by
  obtain ⟨negative, m, e, hs, -⟩ := value?_eq_some hn
  obtain ⟨size, signed⟩ := signed_natAbs hn hs
  rw [toInt_floor hs, size, Nat.floor_natCast, Nat.min_eq_left bound, signed]

theorem toCount_of_value? {n : Nat} (hn : value? x = some (n : ℚ)) (bound : n < 2 ^ 64) :
    toCount x = n := by
  obtain ⟨negative, m, e, hs, -⟩ := value?_eq_some hn
  obtain ⟨size, signed⟩ := signed_natAbs (n := n) (by exact_mod_cast hn) hs
  rw [Int.natAbs_natCast] at size signed
  rw [toCount_floor hs, size, Nat.floor_natCast, Nat.min_eq_left (by omega)]
  cases negative with
  | false => rfl
  | true =>
    rw [if_pos rfl] at signed ⊢
    omega

inductive Whole (x : Float) : Prop
  | infinite (negative : Bool) : shape (toInteger x) = .infinite negative →
      toInt x = (if negative then -1 else 1) * 2 ^ 63 → Whole x
  | finite (n : Int) : value? (toInteger x) = some (n : ℚ) →
      toInt x = max (-2 ^ 63) (min n (2 ^ 63)) → Whole x

theorem whole (x : Float) : Whole x := by
  cases hs : shape x with
  | nan =>
    have zero : value? (toInteger x) = some ((0 : Int) : ℚ) := by
      rw [toInteger, if_pos (isNaN_iff_shape.2 hs)]
      exact value?_ofNat (n := 0) (Nat.zero_le _)
    refine .finite 0 zero ?_
    rw [toInt, hs]
    rfl
  | infinite negative =>
    have same : toInteger x = x := by
      rw [toInteger, if_neg (mt isNaN_iff_shape.1 (by simp [hs])), truncate, hs]
    refine .infinite negative (by rw [same, hs]) ?_
    rw [toInt, hs]
    cases negative <;> rfl
  | finite negative m e =>
    have same : toInteger x = truncate x := by
      rw [toInteger, if_neg (mt isNaN_iff_shape.1 (by simp [hs]))]
    refine .finite ((if negative then -1 else 1) * (⌊(m : ℚ) * 2 ^ e⌋₊ : Int)) ?_ ?_
    · rw [same, value?_truncate hs]
      cases negative <;> simp
    · rw [toInt_floor hs]
      cases negative with
      | false =>
        rw [if_neg Bool.false_ne_true]
        omega
      | true =>
        rw [if_pos rfl]
        omega

theorem value?_zero : value? (ofNat 0) = some (0 : ℚ) := by
  exact_mod_cast value?_ofNat (n := 0) (Nat.zero_le _)

end Wholes

section Clamping

def greater (x y : Float) : Float := if x.isNaN || x < y then y else x

def lesser (x y : Float) : Float := if x.isNaN || y < x then y else x

theorem isNaN_eq_false (hx : value? x = some a) : x.isNaN = false := by
  obtain ⟨negative, m, e, hs, -⟩ := value?_eq_some hx
  refine Bool.eq_false_of_not_eq_true (mt isNaN_iff_shape.1 ?_)
  rw [hs]
  exact Shape.noConfusion

theorem greater_of_not_lt (hx : value? x = some a) (h : ¬ x < y) : greater x y = x := by
  rw [greater, isNaN_eq_false hx, Bool.false_or, if_neg (by simpa using h)]

theorem lesser_of_lt (h : y < x) : lesser x y = y := by
  rw [lesser, if_pos (by simp [h])]

theorem lesser_of_not_lt (hx : value? x = some a) (h : ¬ y < x) : lesser x y = x := by
  rw [lesser, isNaN_eq_false hx, Bool.false_or, if_neg (by simpa using h)]

theorem toCount_greater_zero (hx : toCount x = 0) : toCount (greater x (ofNat 0)) = 0 := by
  unfold greater
  split
  · exact (by decide +kernel : toCount (ofNat 0) = 0)
  · exact hx

end Clamping

end Number

namespace Method

open Number

variable {h : Heap} {length default : Nat}

def roundedIndex (h : Heap) (v : Value) (length default : Nat) : Nat :=
  match v with
  | .undefined => default
  | v =>
    let n := toInteger (v.toNumber h)
    if n < ofNat 0 then toCount (greater (ofNat length + n) (ofNat 0))
    else toCount (lesser n (ofNat length))

theorem toCount_greater (bound : length ≤ 2 ^ 53) {x : Float} {n : Int}
    (hx : value? x = some (n : ℚ)) (hn : n < 0) :
    toCount (greater (ofNat length + x) (ofNat 0)) = ((length : Int) + n).toNat := by
  have size : value? (ofNat length) = some (length : ℚ) := value?_ofNat bound
  rcases le_or_gt ((length : Int) + n) 0 with before | inside
  · have sum : (length : ℚ) + n ≤ 0 := by exact_mod_cast before
    rw [toCount_greater_zero (toCount_add size hx sum), Int.toNat_eq_zero.2 before]
  · obtain ⟨k, hk⟩ := Int.eq_ofNat_of_zero_le inside.le
    have total : (length : ℚ) + n = k := by exact_mod_cast hk
    have rest : value? (ofNat k) = some (k : ℚ) := value?_ofNat (by omega)
    have sum : ofNat length + x = ofNat k :=
      add_eq size hx (total ▸ rest) (by rw [total]; exact_mod_cast (by omega : k ≠ 0))
    have above : ¬ ofNat k < ofNat 0 := by
      rw [lt_iff_value rest value?_zero]
      exact (Nat.cast_nonneg k).not_gt
    rw [sum, greater_of_not_lt rest above, toCount_of_value? rest (by omega), hk,
      Int.toNat_natCast]

theorem toCount_lesser (bound : length ≤ 2 ^ 53) {x : Float} {n : Nat}
    (hx : value? x = some (n : ℚ)) : toCount (lesser x (ofNat length)) = min n length := by
  have size : value? (ofNat length) = some (length : ℚ) := value?_ofNat bound
  have order : ofNat length < x ↔ length < n := by
    rw [lt_iff_value size hx]
    exact Nat.cast_lt
  rcases lt_or_ge length n with beyond | inside
  · rw [lesser_of_lt (order.2 beyond), toCount_of_value? size (by omega),
      Nat.min_eq_right beyond.le]
  · rw [lesser_of_not_lt hx (mt order.1 inside.not_gt), toCount_of_value? hx (by omega),
      Nat.min_eq_left inside]

theorem clamped (bound : length ≤ 2 ^ 53) (x : Float) :
    (if toInteger x < ofNat 0 then toCount (greater (ofNat length + toInteger x) (ofNat 0))
      else toCount (lesser (toInteger x) (ofNat length))) =
    if toInt x < 0 then ((length : Int) + toInt x).toNat else min (toInt x).toNat length := by
  have size : value? (ofNat length) = some (length : ℚ) := value?_ofNat bound
  cases whole x with
  | infinite negative hs cut =>
    rw [cut]
    cases negative with
    | false =>
      rw [if_neg (not_greatest_lt hs _), lesser_of_lt (lt_greatest size hs),
        toCount_of_value? size (by omega), if_neg (by decide), if_neg Bool.false_ne_true]
      omega
    | true =>
      rw [if_pos (least_lt hs value?_zero), toCount_greater_zero (toCount_add_least size hs),
        if_pos rfl, if_pos (by decide)]
      omega
  | finite n value cut =>
    have order : toInteger x < ofNat 0 ↔ n < 0 := by
      rw [lt_iff_value value value?_zero]
      exact Int.cast_lt_zero
    rw [cut]
    rcases lt_or_ge n 0 with negative | positive
    · rw [if_pos (order.2 negative), if_pos (by omega), toCount_greater bound value negative]
      omega
    · obtain ⟨k, rfl⟩ := Int.eq_ofNat_of_zero_le positive
      rw [if_neg (mt order.1 positive.not_gt), if_neg (by omega),
        toCount_lesser bound (n := k) (by exact_mod_cast value)]
      omega

theorem roundedIndex_eq (bound : length ≤ 2 ^ 53) (v : Value) :
    roundedIndex h v length default = relativeIndex h v length default := by
  cases v with
  | undefined => rfl
  | _ => exact clamped bound _

end Method

namespace Value

variable {h : Heap} {x : Float} {n : Nat}

def IsPosition (h : Heap) (v : Value) (n : Nat) : Prop :=
  v ≠ .undefined ∧ Number.toInt (v.toNumber h) = n

theorem isPosition_of_value? (hx : Number.value? x = some (n : ℚ)) (hn : n ≤ 2 ^ 63) :
    (number x).IsPosition h n :=
  ⟨nofun, Number.toInt_of_value? (n := n) (by exact_mod_cast hx) (by simpa using hn)⟩

theorem isPosition_ofNat (hn : n ≤ 2 ^ 53) : (number (Number.ofNat n)).IsPosition h n :=
  isPosition_of_value? (Number.value?_ofNat hn) (hn.trans (by decide))

theorem value?_of_elementIndex? (hx : (number x).elementIndex? = some n) :
    Number.value? x = some (n : ℚ) ∧ n < 4294967295 :=
  (Number.toNat?_eq_some_iff (by decide)).1 hx

theorem isPosition_of_elementIndex? (hx : (number x).elementIndex? = some n) :
    (number x).IsPosition h n := by
  obtain ⟨value, less⟩ := value?_of_elementIndex? hx
  exact isPosition_of_value? value (less.le.trans (by decide))

theorem isPosition_add_one (hx : (number x).elementIndex? = some n) :
    (add h (number x) (number (Number.ofNat 1))).IsPosition h (n + 1) := by
  obtain ⟨value, less⟩ := value?_of_elementIndex? hx
  have one : Number.value? (Number.ofNat 1) = some (1 : ℚ) := by
    exact_mod_cast Number.value?_ofNat (n := 1) (by decide)
  have next : Number.value? (Number.ofNat (n + 1)) = some ((n : ℚ) + 1) := by
    exact_mod_cast Number.value?_ofNat (n := n + 1) (by omega)
  have sum : add h (number x) (number (Number.ofNat 1)) = number (Number.ofNat (n + 1)) :=
    congrArg number (Number.add_eq value one next (by positivity))
  rw [sum]
  exact isPosition_ofNat (by omega)

end Value

end CanvasScript
