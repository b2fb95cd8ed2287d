/-
Decimals are read as the nearest double. `nearest` settles what is far outside the doubles
by its magnitude and leaves the rest to the conversion of the library, which multiplies or
divides two doubles where both are exact and two large mantissas elsewhere. On each of the
ways the result is the rounding of the decimal (`nearest_rounds`).
-/
import LiveScreen.Decimal.Literal
import LiveScreen.Proofs.Decimal.Doubles

namespace LiveScreen.Decimal

open Float.Model Float.Model.UnpackedFloat

/-! ## Exact doubles -/

/-- A double is its own rounding. -/
theorem rounds_of_fits (s : Sign) {n : ℕ} {t : ℤ} (h : Fits n t) : Rounds (n * 2 ^ t) s (ofUnits s n t) := by
  have hpow : (0 : ℚ) < 2 ^ t := by positivity
  refine ⟨t, n, ⟨h.min_le, ?_, ?_⟩, ?_, rfl⟩
  · rw [zpow_add₀ two_ne_zero, mul_comm]
    exact mul_lt_mul_of_pos_left (by exact_mod_cast h.lt) hpow
  · refine h.full.imp_right fun hfull => ?_
    rw [zpow_add₀ two_ne_zero, mul_comm]
    exact mul_le_mul_of_nonneg_right (by exact_mod_cast hfull) hpow.le
  · rw [mul_div_cancel_right₀ _ hpow.ne']
    exact .self n

theorem Binary.value_eq (b : Binary) : b.value = (b.toFraction.1 : ℚ) / b.toFraction.2 := by
  have hexp : b.exponent = (b.exponent.toNat : ℤ) - ((-b.exponent).toNat : ℤ) := by omega
  rw [value, toFraction]
  simp only [Nat.pow_eq]
  conv_lhs => rw [hexp]
  rw [zpow_sub₀ two_ne_zero, zpow_natCast, zpow_natCast]
  push_cast
  ring

/-- The double for a power of ten up to the 22nd. -/
def powerOfTen (k : Fin 23) : Float :=
  have h : k.val < Float.exactlyRepresentablePowersOfTen.size := k.isLt
  Float.exactlyRepresentablePowersOfTen[k.val]

/-- The powers of ten up to the 22nd are doubles. -/
theorem value_powerOfTen (k : Fin 23) : (powerOfTen k).isFinite = true ∧ signOf (powerOfTen k) = .positive ∧
    (Binary.ofFloat (powerOfTen k)).value = 10 ^ k.val := by
  have hall : ∀ k : Fin 23, (powerOfTen k).isFinite = true ∧ isNegative (powerOfTen k) = false ∧
      (Binary.ofFloat (powerOfTen k)).toFraction.1 = 10 ^ k.val * (Binary.ofFloat (powerOfTen k)).toFraction.2 ∧
      (Binary.ofFloat (powerOfTen k)).toFraction.2 ≠ 0 := by
    decide +kernel
  obtain ⟨hfinite, hsign, hfraction, hne⟩ := hall k
  refine ⟨hfinite, by rw [signOf, if_neg (by rw [hsign]; decide)], ?_⟩
  rw [Binary.value_eq, div_eq_iff (by exact_mod_cast hne)]
  exact_mod_cast hfraction

/-- A natural number of at most 53 bits is a double. -/
theorem unpacked_toFloat {m : ℕ} (hpos : 0 < m) (hlt : m < 2 ^ 53) :
    ∃ n t, Fits n t ∧ (n * 2 ^ t : ℚ) = m ∧ unpacked m.toUInt64.toFloat = ofUnits .positive n t := by
  have hlog : m.log2 < 53 := (Nat.log2_lt hpos.ne').2 hlt
  have hlower : 2 ^ m.log2 ≤ m := Nat.log2_self_le hpos.ne'
  have hupper : m < 2 ^ (m.log2 + 1) := Nat.lt_log2_self
  have hsplit : (52 - m.log2) + m.log2 = 52 := by omega
  have hfits : Fits (m * 2 ^ (52 - m.log2)) (m.log2 - 52) := by
    refine ⟨?_, by omega, by omega, .inr ?_⟩
    · calc m * 2 ^ (52 - m.log2) < 2 ^ (m.log2 + 1) * 2 ^ (52 - m.log2) :=
            Nat.mul_lt_mul_of_pos_right hupper (by positivity)
        _ = 2 ^ 53 := by rw [← Nat.pow_add]; congr 1; omega
    · calc 2 ^ 52 = 2 ^ m.log2 * 2 ^ (52 - m.log2) := by rw [← Nat.pow_add]; congr 1; omega
        _ ≤ m * 2 ^ (52 - m.log2) := Nat.mul_le_mul_right _ hlower
  have hvalue : ((m * 2 ^ (52 - m.log2) : ℕ) * 2 ^ ((m.log2 : ℤ) - 52) : ℚ) = m := by
    have hexp : (m.log2 : ℤ) - 52 = -((52 - m.log2 : ℕ) : ℤ) := by omega
    rw [hexp, zpow_neg, zpow_natCast]
    push_cast
    field_simp
  refine ⟨_, _, hfits, hvalue, ?_⟩
  have hround : UnpackedFloat.ofUInt64 .binary64 m.toUInt64 =
      roundWithAccuracy .binary64 .positive (m * 2 ^ (52 - m.log2)) (m.log2 - 52) .exact := by
    have hnat : m.toUInt64.toNat = m := Nat.mod_eq_of_lt (hlt.trans (by decide))
    have hcompare : compare (m : ℤ) 0 = .gt := compare_gt_iff_gt.2 (by exact_mod_cast hpos)
    have hshift : (0 - max ((m.log2 : ℤ) + 1 + 0 - 53) (-1074)).toNat = 52 - m.log2 := by omega
    have hexp : (0 : ℤ) - ((52 - m.log2 : ℕ) : ℤ) = m.log2 - 52 := by omega
    rw [UnpackedFloat.ofUInt64, UnpackedFloat.ofNat, UnpackedFloat.ofInt, hnat, UnpackedFloat.normalize, hcompare]
    simp only [UnpackedFloat.round, decreaseExponent, targetExponent_eq, totalExponent, Int.toNat_natCast, hshift, hexp,
      Nat.shiftLeft_eq]
  have hself : Rounds (m : ℚ) .positive (ofUnits .positive (m * 2 ^ (52 - m.log2)) (m.log2 - 52)) :=
    hvalue ▸ rounds_of_fits .positive hfits
  have hresult : Rounds (m : ℚ) .positive (UnpackedFloat.ofUInt64 .binary64 m.toUInt64) := by
    rw [hround]
    refine rounds_roundWithAccuracy _ (hfits.full.imp_left Int.le_of_eq) ?_
    rw [← hvalue, mul_div_cancel_right₀ _ (by positivity)]
    exact .ofExact _
  have hfloat : m.toUInt64.toFloat = ofUnpacked (UnpackedFloat.ofUInt64 .binary64 m.toUInt64) := rfl
  rw [hfloat, hresult.unique hself, unpacked_ofUnpacked (.ofUnits _ hfits)]

/-! ## The ways to read a decimal -/

/-- Small mantissas and powers of ten are doubles, and the decimal is their product or quotient. -/
theorem rounds_ofScientific_small {m k : ℕ} (negative : Bool) (hpos : 0 < m) (hlt : m < 2 ^ 53) (hk : k ≤ 22) :
    ∃ f, Rounds (if negative then m / 10 ^ k else m * 10 ^ k) .positive f ∧
      Float.ofScientific m negative k = ofUnpacked f := by
  obtain ⟨n, t, hfits, hvalue, hunpacked⟩ := unpacked_toFloat hpos hlt
  obtain ⟨hfinite, hsign, hpower⟩ := value_powerOfTen ⟨k, Nat.lt_succ_of_le hk⟩
  obtain ⟨hfits', hunpacked'⟩ := unpacked_of_finite hfinite
  rw [hsign] at hunpacked'
  rw [Float.ofScientific, dif_pos ⟨hlt, hk⟩]
  rw [Binary.value] at hpower
  generalize hp : powerOfTen ⟨k, Nat.lt_succ_of_le hk⟩ = p at *
  cases negative with
  | false =>
    have hrounds := rounds_mul_ofUnits .positive .positive hfits hfits'
    rw [hvalue, hpower] at hrounds
    refine ⟨_, hrounds, ?_⟩
    change m.toUInt64.toFloat * powerOfTen ⟨k, Nat.lt_succ_of_le hk⟩ = _
    rw [hp, float_mul_eq, hunpacked, hunpacked']
  | true =>
    have hn : 0 < n := by
      refine Nat.pos_of_ne_zero fun hzero => ?_
      rw [hzero, Nat.cast_zero, zero_mul] at hvalue
      exact hpos.ne (by exact_mod_cast hvalue)
    have hmantissa : 0 < (Binary.ofFloat p).mantissa := by
      refine Nat.pos_of_ne_zero fun hzero => ?_
      rw [hzero, Nat.cast_zero, zero_mul] at hpower
      exact (pow_pos (by norm_num : (0 : ℚ) < 10) k).ne hpower
    have hrounds : Rounds (n * 2 ^ t / ((Binary.ofFloat p).mantissa * 2 ^ (Binary.ofFloat p).exponent)) .positive _ :=
      rounds_div .positive .positive hn hmantissa
    rw [hvalue, hpower] at hrounds
    refine ⟨_, hrounds, ?_⟩
    change m.toUInt64.toFloat / powerOfTen ⟨k, Nat.lt_succ_of_le hk⟩ = _
    rw [hp, float_div_eq, hunpacked, hunpacked', ofUnits_of_lt _ _ hn hfits.lt, ofUnits_of_lt _ _ hmantissa hfits'.lt]

/-- The conversion of large mantissas multiplies or divides without rounding first. -/
theorem exists_rounds_large {m : ℕ} (hpos : 0 < m) (e : ℤ) :
    ∃ f, Rounds (m * 10 ^ e) .positive f ∧ (e ≤ 2048 → -(2048 + m.log2 : ℤ) ≤ e →
      UnpackedFloat.ofScientific .binary64 m e = f) := by
  have hten : ∀ k : ℕ, 0 < 10 ^ k := fun k => by positivity
  have hbits : (2 ^ Format.binary64.exponentBits : ℤ) = 2048 := rfl
  by_cases he : 0 ≤ e
  · have hshift : 0 < m <<< 53 := by
      rw [Nat.shiftLeft_eq]
      positivity
    have hfull : 2 ^ 52 ≤ m <<< 53 * 10 ^ e.toNat := by
      rw [Nat.shiftLeft_eq]
      calc 2 ^ 52 ≤ 1 * 2 ^ 53 * 1 := by decide
        _ ≤ m * 2 ^ 53 * 10 ^ e.toNat := Nat.mul_le_mul (Nat.mul_le_mul_right _ hpos) (hten _)
    have hrounds : Rounds ((m <<< 53 : ℕ) * 2 ^ (-53 : ℤ) * ((10 ^ e.toNat : ℕ) * 2 ^ (0 : ℤ))) .positive _ :=
      rounds_mul .positive .positive hshift (hten e.toNat) (.inr hfull)
    have hvalue : ((m <<< 53 : ℕ) * 2 ^ (-53 : ℤ) * ((10 ^ e.toNat : ℕ) * 2 ^ (0 : ℤ)) : ℚ) = m * 10 ^ e := by
      have hpow : (10 : ℚ) ^ e = 10 ^ e.toNat := by rw [← zpow_natCast, Int.toNat_of_nonneg he]
      rw [hpow, Nat.shiftLeft_eq]
      push_cast
      norm_num
      ring
    rw [hvalue] at hrounds
    refine ⟨_, hrounds, fun hle hge => ?_⟩
    rw [UnpackedFloat.ofScientific, dif_neg hpos.ne', if_neg (by omega), if_neg (by omega), if_pos he]
    rfl
  · have hrounds : Rounds (m * 2 ^ (0 : ℤ) / ((10 ^ (-e).toNat : ℕ) * 2 ^ (0 : ℤ))) .positive _ :=
      rounds_div .positive .positive hpos (hten (-e).toNat)
    have hvalue : (m * 2 ^ (0 : ℤ) / ((10 ^ (-e).toNat : ℕ) * 2 ^ (0 : ℤ)) : ℚ) = m * 10 ^ e := by
      have hpow : (10 : ℚ) ^ e = (10 ^ (-e).toNat)⁻¹ := by
        rw [← zpow_natCast, Int.toNat_of_nonneg (by omega), zpow_neg, inv_inv]
      rw [hpow]
      push_cast
      norm_num
      ring
    rw [hvalue] at hrounds
    refine ⟨_, hrounds, fun hle hge => ?_⟩
    rw [UnpackedFloat.ofScientific, dif_neg hpos.ne', if_neg (by omega), if_neg (by omega), if_neg he]

/-! ## Magnitudes -/

theorem digitCount_of_pos {m : ℕ} (hpos : 0 < m) : digitCount m = (Nat.toDigits 10 m).length := if_neg hpos.ne'

theorem lt_pow_digitCount {m : ℕ} (hpos : 0 < m) : m < 10 ^ digitCount m := by
  rw [digitCount_of_pos hpos]
  exact (Nat.length_toDigits_le_iff (by decide) Nat.length_toDigits_pos).1 le_rfl

theorem pow_digitCount_le {m : ℕ} (hpos : 0 < m) : 10 ^ (digitCount m - 1) ≤ m := by
  rw [digitCount_of_pos hpos]
  by_contra hlt
  obtain hone | hmore := (Nat.succ_le_of_lt (Nat.length_toDigits_pos (b := 10) (n := m))).eq_or_lt
  · rw [← hone] at hlt
    exact hlt hpos
  · have := (Nat.length_toDigits_le_iff (by decide) (by omega)).2 (not_le.1 hlt)
    omega

/-- A decimal lies between the powers of ten that its magnitude names. -/
theorem magnitude_bounds {m : ℕ} (hpos : 0 < m) (e : ℤ) :
    (10 : ℚ) ^ (digitCount m + e - 1) ≤ m * 10 ^ e ∧ (m : ℚ) * 10 ^ e < 10 ^ (digitCount m + e) := by
  have hcount : 0 < digitCount m := by
    rw [digitCount_of_pos hpos]
    exact Nat.length_toDigits_pos
  have hlower : (10 : ℚ) ^ ((digitCount m - 1 : ℕ) : ℤ) ≤ m := by exact_mod_cast pow_digitCount_le hpos
  have hupper : (m : ℚ) < 10 ^ (digitCount m : ℤ) := by exact_mod_cast lt_pow_digitCount hpos
  have hexp : (digitCount m : ℤ) + e - 1 = ((digitCount m - 1 : ℕ) : ℤ) + e := by omega
  rw [hexp, zpow_add₀ (by norm_num), zpow_add₀ (by norm_num)]
  exact ⟨mul_le_mul_of_nonneg_right hlower (by positivity), mul_lt_mul_of_pos_right hupper (by positivity)⟩

theorem two_pow_le_ten_pow {k : ℤ} (hk : 0 ≤ k) : (2 : ℚ) ^ (3 * k) ≤ 10 ^ k := by
  obtain ⟨n, rfl⟩ := Int.eq_ofNat_of_zero_le hk
  rw [zpow_mul, zpow_natCast]
  exact_mod_cast Nat.pow_le_pow_left (by decide) n

theorem ten_pow_le_two_pow {k : ℤ} (hk : k ≤ 0) : (10 : ℚ) ^ k ≤ 2 ^ (3 * k) := by
  have h := two_pow_le_ten_pow (Int.neg_nonneg.2 hk)
  rw [mul_neg, zpow_neg, zpow_neg] at h
  exact (inv_le_inv₀ (by positivity) (by positivity)).1 h

theorem scaled_natAbs (x : ℚ) (e : ℤ) :
    (if decide (e < 0) = true then x / 10 ^ e.natAbs else x * 10 ^ e.natAbs) = x * 10 ^ e := by
  by_cases he : e < 0
  · rw [if_pos (decide_eq_true he), div_eq_mul_inv, ← zpow_natCast, ← zpow_neg, Int.ofNat_natAbs_of_nonpos he.le,
      neg_neg]
  · rw [if_neg (by simpa using he), ← zpow_natCast, Int.natAbs_of_nonneg (not_lt.1 he)]

/-- What is far below the least double is read as zero. -/
theorem rounds_tiny {x : ℚ} (hx : 0 ≤ x) (hlt : x < 2 ^ (-1075 : ℤ)) (s : Sign) : Rounds x s (.zero s) := by
  have hhalf : x / 2 ^ (-1074 : ℤ) < 1 / 2 := by
    rw [div_lt_iff₀ (by positivity)]
    refine hlt.trans_eq ?_
    rw [show (-1074 : ℤ) = -1075 + 1 from rfl, zpow_add₀ two_ne_zero]
    generalize (2 : ℚ) ^ (-1075 : ℤ) = unit
    ring
  have hnonneg : 0 ≤ x / 2 ^ (-1074 : ℤ) := by positivity
  refine ⟨-1074, 0, ⟨le_rfl, hlt.trans ?_, .inl rfl⟩, ⟨?_, ?_, fun _ => rfl, fun _ => rfl⟩, rfl⟩
  · exact zpow_lt_zpow_right₀ one_lt_two (by decide)
  · rw [Nat.cast_zero]
    linarith
  · rw [Nat.cast_zero]
    linarith

/-- A decimal is read as the double nearest to it. -/
theorem nearest_rounds (m : ℕ) (e : ℤ) : ∃ f, Rounds (m * 10 ^ e) .positive f ∧ nearest m e = ofUnpacked f := by
  obtain rfl | hpos := Nat.eq_zero_or_pos m
  · refine ⟨.zero .positive, by simpa using rounds_zero _, ?_⟩
    rw [nearest, if_pos (.inl rfl)]
    rfl
  obtain ⟨f, hf, hlarge⟩ := exists_rounds_large hpos e
  obtain ⟨hlower, hupper⟩ := magnitude_bounds hpos e
  rw [nearest]
  by_cases htiny : (digitCount m : ℤ) + e < -400
  · rw [if_pos (.inr htiny)]
    refine ⟨.zero .positive, rounds_tiny (by positivity) (hupper.trans_le ?_) _, rfl⟩
    calc (10 : ℚ) ^ (digitCount m + e) ≤ 2 ^ (3 * (digitCount m + e)) := ten_pow_le_two_pow (by omega)
      _ ≤ 2 ^ (-1075 : ℤ) := zpow_le_zpow_right₀ one_le_two (by omega)
  rw [if_neg (not_or.2 ⟨hpos.ne', htiny⟩)]
  by_cases hhuge : 400 < (digitCount m : ℤ) + e
  · rw [if_pos hhuge]
    refine ⟨f, hf, ?_⟩
    have hbound : overflowBound ≤ m * 10 ^ e := calc
      overflowBound ≤ 2 ^ (3 * (digitCount m + e - 1)) := overflowBound_le_two_pow (by omega)
      _ ≤ 10 ^ (digitCount m + e - 1) := two_pow_le_ten_pow (by omega)
      _ ≤ m * 10 ^ e := hlower
    have hresult := ofUnpacked_of_rounds hf
    rw [if_neg (not_lt.2 hbound)] at hresult
    rw [hresult]
    rfl
  rw [if_neg hhuge]
  by_cases hsmall : m < 2 ^ 53 ∧ e.natAbs ≤ 22
  · obtain ⟨g, hg, hresult⟩ := rounds_ofScientific_small (decide (e < 0)) hpos hsmall.1 hsmall.2
    refine ⟨g, ?_, hresult⟩
    rwa [scaled_natAbs] at hg
  · have hscale : (if decide (e < 0) = true then Int.negOfNat e.natAbs else Int.ofNat e.natAbs) = e := by
      by_cases he : e < 0
      · rw [if_pos (decide_eq_true he), Int.negOfNat_eq, Int.ofNat_eq_natCast, Int.ofNat_natAbs_of_nonpos he.le,
          neg_neg]
      · rw [if_neg (by simpa using he)]
        exact Int.natAbs_of_nonneg (not_lt.1 he)
    have hdigits : digitCount m - 1 ≤ m.log2 :=
      (Nat.le_log2 hpos.ne').2 ((Nat.pow_le_pow_left (by decide) _).trans (pow_digitCount_le hpos))
    refine ⟨f, hf, ?_⟩
    rw [Float.ofScientific, dif_neg hsmall]
    dsimp only
    rw [hscale, ← hlarge (by omega) (by omega)]
    rfl

end LiveScreen.Decimal
