import CanvasScript.Proofs.Documents.Numerals

namespace CanvasScript.Number

open Float.Model (UnpackedFloat)
open Float.Model.UnpackedFloat (ExtendedMantissa unpack pack)

variable {x y z : Float} {a b : ℚ} {negative : Bool} {m n : Nat} {e : Int}

section Shapes

theorem Shape.ofUnpacked_injective {u v : UnpackedFloat} (h : ofUnpacked u = ofUnpacked v) :
    u = v := by
  have sign {s s' : UnpackedFloat.Sign}
      (h : decide (s.toBitVec = 1#1) = decide (s'.toBitVec = 1#1)) : s = s' := by
    cases s <;> cases s' <;> first | rfl | cases h
  cases u with
  | notANumber => cases v <;> first | rfl | cases h
  | infinity s =>
    cases v with
    | infinity s' => rw [sign (Shape.infinite.inj h)]
    | _ => cases h
  | zero s =>
    cases v with
    | zero s' => rw [sign (Shape.finite.inj h).1]
    | finite s' m e positive =>
      obtain ⟨-, rfl, -⟩ := Shape.finite.inj h
      exact absurd positive (Nat.lt_irrefl 0)
    | _ => cases h
  | finite s m e positive =>
    cases v with
    | zero s' =>
      obtain ⟨-, rfl, -⟩ := Shape.finite.inj h
      exact absurd positive (Nat.lt_irrefl 0)
    | finite s' m' e' positive' =>
      obtain ⟨same, rfl, rfl⟩ := Shape.finite.inj h
      cases sign same
      rfl
    | _ => cases h

theorem ofModel_pack {u : UnpackedFloat} (h : x.toModel.unpack = u) (hn : u ≠ .notANumber) :
    Float.ofModel (.pack u) = x := by
  subst h
  have same : pack .binary64 (unpack .binary64 x.toModel.toBits.toBitVec) =
      x.toModel.toBits.toBitVec := pack_unpack hn
  have bits : (Float.Model.pack x.toModel.unpack).toBits = x.toModel.toBits :=
    congrArg UInt64.ofBitVec same
  have ext {a b : Float.Model} (h : a.toBits = b.toBits) : a = b := by
    cases a
    cases b
    cases h
    rfl
  rw [ext bits]

theorem eq_of_shape (h : shape x = shape y) : x = y := by
  rw [shape_eq, shape_eq] at h
  have same := Shape.ofUnpacked_injective h
  by_cases nan : x.toModel.unpack = .notANumber
  · have hx : x.isNaN = true := by rw [isNaN_eq, nan]; rfl
    have hy : y.isNaN = true := by rw [isNaN_eq, ← same, nan]; rfl
    rw [Float.isNaN_eq_decide_eq_nan, decide_eq_true_iff] at hx hy
    rw [hx, hy]
  · rw [← ofModel_pack rfl nan, same, ofModel_pack rfl (same ▸ nan)]

theorem unpack_cases (hx : value? x = some a) :
    (∃ s, x.toModel.unpack = .zero s ∧ a = 0) ∨
      ∃ (s : UnpackedFloat.Sign) (m : Nat) (e : Int) (hm : 0 < m),
        x.toModel.unpack = .finite s m e hm ∧ ((s.apply m : Int) : ℚ) * 2 ^ e = a := by
  obtain ⟨negative, m, e, hs, rfl⟩ := value?_eq_some hx
  rw [shape_eq] at hs
  generalize x.toModel.unpack = u at hs
  cases u with
  | notANumber | infinity => cases hs
  | zero s =>
    cases hs
    exact .inl ⟨s, rfl, by simp⟩
  | finite s m e hm =>
    cases hs
    refine .inr ⟨s, m, e, hm, rfl, ?_⟩
    cases s <;> simp [UnpackedFloat.Sign.toBitVec, UnpackedFloat.Sign.apply]

theorem eq_of_value? (hx : value? x = some a) (hy : value? y = some a) (ha : a ≠ 0) : x = y := by
  obtain ⟨s, m, e, hs, hv⟩ := value?_eq_some hx
  obtain ⟨s', m', e', hs', hv'⟩ := value?_eq_some hy
  have magnitude : (m : ℚ) * 2 ^ e = m' * 2 ^ e' := by
    rw [← signed_abs s, ← signed_abs s', hv, hv']
  obtain ⟨rfl, rfl⟩ := magnitude_inj hs hs' magnitude
  have size : (0 : ℚ) ≤ m * 2 ^ e := by positivity
  refine eq_of_shape (hs.trans (Eq.trans ?_ hs'.symm))
  congr 1
  cases s <;> cases s' <;> simp at hv hv' ⊢ <;> exact ha (by linarith)

end Shapes

section Rounding

theorem log2_mul_two_pow (hm : 0 < m) (j : Nat) : (m * 2 ^ j).log2 = m.log2 + j := by
  induction j with
  | zero => rw [pow_zero, mul_one, add_zero]
  | succ j ih =>
    have double : m * 2 ^ (j + 1) = 2 * (m * 2 ^ j) := by ring
    rw [double, Nat.log2_two_mul (by positivity), ih, add_assoc]

theorem eq_mul_two_pow {lo : Int} (same : (n : ℚ) * 2 ^ lo = m * 2 ^ e) (le : lo ≤ e) :
    ∃ j : Nat, e = lo + j ∧ n = m * 2 ^ j := by
  obtain ⟨j, rfl⟩ : ∃ j : Nat, e = lo + j := ⟨(e - lo).toNat, by omega⟩
  refine ⟨j, rfl, ?_⟩
  have unit : (2 : ℚ) ^ lo ≠ 0 := by positivity
  rw [zpow_add₀ two_ne_zero, zpow_natCast, mul_left_comm, mul_comm, mul_right_inj' unit] at same
  exact_mod_cast same

theorem totalExponent_eq {lo : Int} (hm : 0 < m) (hn : 0 < n)
    (same : (n : ℚ) * 2 ^ lo = m * 2 ^ e) :
    Float.Model.totalExponent n lo = Float.Model.totalExponent m e := by
  unfold Float.Model.totalExponent
  rcases le_total lo e with le | le
  · obtain ⟨j, rfl, rfl⟩ := eq_mul_two_pow same le
    rw [log2_mul_two_pow hm]
    push_cast
    ring
  · obtain ⟨j, rfl, rfl⟩ := eq_mul_two_pow same.symm le
    rw [log2_mul_two_pow hn]
    push_cast
    ring

theorem targetExponent_eq (hs : shape x = .finite negative m e) (hm : 0 < m) :
    Float.Model.Format.targetExponent .binary64 (Float.Model.totalExponent m e) = e := by
  show max ((m.log2 : Int) + 1 + e - (53 : Nat)) (-1074) = e
  have small : m.log2 < 53 := (Nat.log2_lt hm.ne').2 (mantissa_lt hs)
  have least : -1074 ≤ e := leastExponent_le hs
  by_cases lowest : e = leastExponent
  · have exponent : e = -1074 := lowest
    omega
  · have large : 52 ≤ m.log2 := (Nat.le_log2 hm.ne').2 (le_mantissa hs lowest)
    omega

theorem shiftRight_exact (m j : Nat) :
    (⟨m * 2 ^ j, false, false⟩ : ExtendedMantissa) >>> j = ⟨m, false, false⟩ := by
  show j.repeat ExtendedMantissa.shiftRightOne _ = _
  induction j generalizing m with
  | zero => simp [Nat.repeat]
  | succ j ih =>
    have halved : m * 2 ^ (j + 1) = (m * 2) * 2 ^ j := by ring
    rw [Nat.repeat, halved, ih, ExtendedMantissa.shiftRightOne]
    simp

theorem roundWithAccuracy_exact (sign : UnpackedFloat.Sign) (hm : 0 < m)
    (target : Float.Model.Format.targetExponent .binary64 (Float.Model.totalExponent m e) = e)
    (j : Nat) : UnpackedFloat.roundWithAccuracy .binary64 sign (m * 2 ^ j) (e - j) .exact =
      .finite sign m e hm := by
  have first : Float.Model.Format.targetExponent .binary64
      (Float.Model.totalExponent (m * 2 ^ j) (e - j)) = e := by
    have unit : (2 : ℚ) ^ e = 2 ^ j * 2 ^ (e - j) := by
      rw [← zpow_natCast, ← zpow_add₀ two_ne_zero]
      congr 1
      omega
    rw [totalExponent_eq hm (by positivity) (by rw [unit]; push_cast; ring), target]
  have dropped : (e - (e - j)).toNat = j := by omega
  have back : e - j + (j : Int) = e := by omega
  have exact : (ExtendedMantissa.mk m false false).roundedMantissa = m := rfl
  have still : (⟨m, false, false⟩ : ExtendedMantissa) >>> 0 = ⟨m, false, false⟩ := rfl
  simp only [UnpackedFloat.roundWithAccuracy, UnpackedFloat.shiftToTargetExponent, first,
    UnpackedFloat.shiftToExponent, dropped, ExtendedMantissa.ofMantissaAndAccuracy,
    shiftRight_exact, back, exact, target, sub_self, Int.toNat_zero, still, Nat.cast_zero, add_zero]
  rw [dif_neg hm.ne']

theorem round_exact {sign : UnpackedFloat.Sign} {lo : Int} (hs : shape x = .finite negative m e)
    (hm : 0 < m) (hn : 0 < n) (same : (n : ℚ) * 2 ^ lo = m * 2 ^ e) :
    UnpackedFloat.round .binary64 sign n lo = .finite sign m e hm := by
  have target := targetExponent_eq hs hm
  unfold UnpackedFloat.round UnpackedFloat.decreaseExponent
  rw [totalExponent_eq hm hn same, target]
  dsimp only
  rw [Nat.shiftLeft_eq]
  rcases le_total lo e with le | le
  -- The mantissa has zeros to lose, or the zeros that it lacks are put behind it first.
  · obtain ⟨j, rfl, rfl⟩ := eq_mul_two_pow same le
    have still : (lo - (lo + j)).toNat = 0 := by omega
    have exponent : lo - (0 : Nat) = lo + j - j := by omega
    rw [still, pow_zero, mul_one, exponent]
    exact roundWithAccuracy_exact sign hm target j
  · obtain ⟨j, rfl, rfl⟩ := eq_mul_two_pow same.symm le
    have shift : (e + j - e).toNat = j := by omega
    have exponent : e + j - j = e - (0 : Nat) := by omega
    have exact := roundWithAccuracy_exact sign hm target 0
    rw [pow_zero, mul_one] at exact
    rw [shift, exponent]
    exact exact

end Rounding

section Sums

theorem add_eq_ofModel (x y : Float) : x + y =
    Float.ofModel (.pack (UnpackedFloat.add .binary64 x.toModel.unpack y.toModel.unpack)) := rfl

theorem aligned {s : UnpackedFloat.Sign} {lo : Int} (le : lo ≤ e) :
    ((s.apply (m <<< (e - lo).toNat : Nat) : Int) : ℚ) * 2 ^ lo = (s.apply m : Int) * 2 ^ e := by
  obtain ⟨j, rfl⟩ : ∃ j : Nat, e = lo + j := ⟨(e - lo).toNat, by omega⟩
  have shift : (lo + j - lo).toNat = j := by omega
  rw [shift, Nat.shiftLeft_eq, zpow_add₀ two_ne_zero, zpow_natCast]
  cases s <;> (simp only [UnpackedFloat.Sign.apply]; push_cast; ring)

theorem normalize_exact {total lo : Int} {zeroSign : UnpackedFloat.Sign}
    (hz : value? z = some a) (ha : a ≠ 0) (same : (total : ℚ) * 2 ^ lo = a) :
    UnpackedFloat.normalize .binary64 total lo zeroSign = z.toModel.unpack := by
  obtain ⟨s, zero, value⟩ | ⟨s, m, e, hm, unpacked, value⟩ := unpack_cases hz
  · exact absurd value ha
  · have hs : shape z = .finite (s.toBitVec = 1#1) m e := by rw [shape_eq, unpacked]; rfl
    have low : (0 : ℚ) < 2 ^ lo := by positivity
    have high : (0 : ℚ) < m * 2 ^ e := by positivity
    rw [unpacked, UnpackedFloat.normalize]
    cases s with
    | positive =>
      have total_eq : (total : ℚ) * 2 ^ lo = m * 2 ^ e := same.trans (value.symm.trans (by rfl))
      have positive : 0 < total := by
        exact_mod_cast pos_of_mul_pos_left (total_eq ▸ high) low.le
      obtain ⟨n, rfl⟩ := Int.eq_ofNat_of_zero_le positive.le
      rw [Std.compare_eq_gt.2 positive]
      exact round_exact hs hm (by exact_mod_cast positive) (by exact_mod_cast total_eq)
    | negative =>
      have total_eq : (-total : ℚ) * 2 ^ lo = m * 2 ^ e := by
        rw [neg_mul, same, ← value]
        simp [UnpackedFloat.Sign.apply]
      have positive : 0 < -total := by
        exact_mod_cast pos_of_mul_pos_left (total_eq ▸ high) low.le
      obtain ⟨n, hn⟩ := Int.eq_ofNat_of_zero_le positive.le
      obtain rfl : total = -n := by omega
      rw [Std.compare_eq_lt.2 (by omega)]
      simp only [neg_neg, Int.toNat_natCast]
      refine round_exact hs hm (by omega) ?_
      rw [← total_eq]
      push_cast
      ring

theorem add_eq (hx : value? x = some a) (hy : value? y = some b) (hz : value? z = some (a + b))
    (ha : a + b ≠ 0) : x + y = z := by
  obtain ⟨s, zero, rfl⟩ | ⟨s, m, e, hm, unpacked, value⟩ := unpack_cases hx
  · rw [zero_add] at hz ha
    obtain ⟨s', zero', rfl⟩ | ⟨s', m', e', hm', unpacked', value'⟩ := unpack_cases hy
    · exact absurd rfl ha
    · rw [add_eq_ofModel, zero, unpacked', ← eq_of_value? hy hz ha]
      exact ofModel_pack unpacked' nofun
  · obtain ⟨s', zero', rfl⟩ | ⟨s', m', e', hm', unpacked', value'⟩ := unpack_cases hy
    · rw [add_zero] at hz ha
      rw [add_eq_ofModel, unpacked, zero', ← eq_of_value? hx hz ha]
      exact ofModel_pack unpacked nofun
    -- Both mantissas are moved to the lower exponent, where they are added without loss.
    · have finite : z.toModel.unpack ≠ .notANumber := by
        obtain ⟨s, unpacked, -⟩ | ⟨s, m, e, hm, unpacked, -⟩ := unpack_cases hz <;>
          rw [unpacked] <;> exact nofun
      rw [add_eq_ofModel, unpacked, unpacked']
      refine (congrArg (fun u => Float.ofModel (.pack u)) ?_).trans (ofModel_pack rfl finite)
      refine normalize_exact hz ha ?_
      rw [Int.cast_add, add_mul, aligned (min_le_left e e'), aligned (min_le_right e e'), value,
        value']

end Sums

end CanvasScript.Number
