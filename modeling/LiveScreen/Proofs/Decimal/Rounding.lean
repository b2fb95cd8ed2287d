/-
Rounding to a double. The arithmetic of doubles ends in `roundWithAccuracy`, which shifts
a mantissa to the exponent of its binade, rounds it with the bits that were shifted out
and shifts once more if that carried. Here the bits stand for rational numbers
(`Represents`), and what comes out is the double nearest to the number that went in, of
two equally near the even one (`Rounds`, `rounds_roundWithAccuracy`). A number has one
rounding, so that a result is known as soon as one double is seen to be nearest
(`Rounds.unique`).
-/
import Mathlib

namespace LiveScreen.Decimal

open Float.Model Float.Model.UnpackedFloat

/-! ## Rounding to natural numbers -/

/-- A natural number is nearest to a number, and even if another one is equally near. -/
structure RoundsTo (x : ℚ) (n : ℕ) : Prop where
  lower : n - 1 / 2 ≤ x
  upper : x ≤ n + 1 / 2
  lower_tie : x = n - 1 / 2 → n % 2 = 0
  upper_tie : x = n + 1 / 2 → n % 2 = 0

namespace RoundsTo

variable {x : ℚ} {n m : ℕ}

theorem le_of_le {y : ℚ} (h : RoundsTo x n) (h' : RoundsTo y m) (hxy : x ≤ y) : n ≤ m := by
  by_contra hlt
  have hstep : (m : ℚ) + 1 ≤ n := by exact_mod_cast not_le.1 hlt
  have hn := h.lower
  have hm := h'.upper
  -- both ends of the gap are the middle between two neighbours, of which one is odd
  have hx : x = n - 1 / 2 := by linarith
  have hy : y = m + 1 / 2 := by linarith
  have hnext : (n : ℚ) = m + 1 := by linarith
  have : n = m + 1 := by exact_mod_cast hnext
  have := h.lower_tie hx
  have := h'.upper_tie hy
  omega

theorem unique (h : RoundsTo x n) (h' : RoundsTo x m) : n = m :=
  Nat.le_antisymm (h.le_of_le h' le_rfl) (h'.le_of_le h le_rfl)

theorem self (n : ℕ) : RoundsTo n n where
  lower := by linarith
  upper := by linarith
  lower_tie h := by linarith
  upper_tie h := by linarith

end RoundsTo

/-! ## Mantissas with residual bits -/

/-- What a mantissa and its round bit amount to. -/
def halves (em : ExtendedMantissa) : ℚ := em.mantissa + if em.roundBit then 1 / 2 else 0

theorem halves_of_false (m : ℕ) (s : Bool) : halves ⟨m, false, s⟩ = m := add_zero _

theorem halves_of_true (m : ℕ) (s : Bool) : halves ⟨m, true, s⟩ = m + 1 / 2 := rfl

/-- A mantissa with its residual bits stands for a number. -/
structure Represents (em : ExtendedMantissa) (x : ℚ) : Prop where
  lower : halves em ≤ x
  upper : x < halves em + 1 / 2
  exact_iff : em.stickyBit = false ↔ x = halves em

namespace Represents

variable {em : ExtendedMantissa} {x : ℚ}

theorem mantissa_le (h : Represents em x) : em.mantissa ≤ x := by
  have hlower := h.lower
  rw [halves] at hlower
  split at hlower <;> linarith

theorem lt_mantissa (h : Represents em x) : x < em.mantissa + 1 := by
  have hupper := h.upper
  rw [halves] at hupper
  split at hupper <;> linarith

theorem shiftRightOne (h : Represents em x) : Represents em.shiftRightOne (x / 2) := by
  have hle := h.mantissa_le
  have hlt := h.lt_mantissa
  obtain ⟨m, roundBit, stickyBit⟩ := em
  have hhalves : halves (ExtendedMantissa.shiftRightOne ⟨m, roundBit, stickyBit⟩) = m / 2 := by
    have hdiv : (m : ℚ) = 2 * (m / 2 : ℕ) + (m % 2 : ℕ) := by exact_mod_cast (Nat.div_add_mod m 2).symm
    obtain hmod | hmod := Nat.mod_two_eq_zero_or_one m <;>
      simp only [halves, ExtendedMantissa.shiftRightOne, hmod] at hdiv ⊢ <;> norm_num at hdiv ⊢ <;> linarith
  refine ⟨by rw [hhalves]; linarith, by rw [hhalves]; linarith, ?_⟩
  have hexact := h.exact_iff
  have hlower := h.lower
  rw [hhalves, ExtendedMantissa.shiftRightOne, Bool.or_eq_false_iff, div_left_inj' two_ne_zero]
  cases roundBit with
  | false =>
    rw [halves_of_false] at hexact
    simpa using hexact
  | true =>
    rw [halves_of_true] at hlower
    exact iff_of_false (fun hx => Bool.noConfusion hx.1) fun hx => by linarith

theorem shiftRight (h : Represents em x) (n : ℕ) : Represents (em >>> n) (x / 2 ^ n) := by
  change Represents (n.repeat ExtendedMantissa.shiftRightOne em) _
  induction n with
  | zero => simpa [Nat.repeat] using h
  | succ n ih => simpa only [Nat.repeat, pow_succ, div_mul_eq_div_div] using ih.shiftRightOne

theorem ofExact (m : ℕ) : Represents (.ofMantissaAndAccuracy m .exact) m := by
  constructor <;> simp [halves, ExtendedMantissa.ofMantissaAndAccuracy]

/-- A fraction of a unit is compared with half a unit. -/
theorem ofFraction (m : ℕ) {num den : ℕ} (h : num < den) :
    Represents (.ofMantissaAndAccuracy m (accuracyOfFraction num den)) (m + num / den) := by
  have hden : (0 : ℚ) < den := by exact_mod_cast Nat.zero_lt_of_lt h
  have hlt : (num : ℚ) / den < 1 := (div_lt_one hden).2 (by exact_mod_cast h)
  rw [accuracyOfFraction]
  by_cases hzero : num = 0
  · simpa [hzero] using ofExact m
  have hpos : (0 : ℚ) < num / den := div_pos (by exact_mod_cast Nat.pos_of_ne_zero hzero) hden
  rw [if_neg hzero]
  cases hcompare : compare (2 * num) den with
  | lt =>
    have hhalf : (num : ℚ) / den < 1 / 2 := by
      rw [div_lt_div_iff₀ hden two_pos]
      exact_mod_cast by linarith [Nat.compare_eq_lt.1 hcompare]
    have hhalves : halves (.ofMantissaAndAccuracy m (.inexact .lt)) = m := add_zero _
    exact ⟨by linarith, by linarith, iff_of_false (by rintro ⟨⟩) (by rw [hhalves]; linarith)⟩
  | eq =>
    have hhalf : (num : ℚ) / den = 1 / 2 := by
      rw [div_eq_div_iff hden.ne' two_ne_zero]
      exact_mod_cast by linarith [Nat.compare_eq_eq.1 hcompare]
    have hhalves : halves (.ofMantissaAndAccuracy m (.inexact .eq)) = m + 1 / 2 := rfl
    exact ⟨by linarith, by linarith, iff_of_true rfl (by rw [hhalves, hhalf])⟩
  | gt =>
    have hhalf : 1 / 2 < (num : ℚ) / den := by
      rw [div_lt_div_iff₀ two_pos hden]
      exact_mod_cast by linarith [Nat.compare_eq_gt.1 hcompare]
    have hhalves : halves (.ofMantissaAndAccuracy m (.inexact .gt)) = m + 1 / 2 := rfl
    exact ⟨by linarith, by linarith, iff_of_false (by rintro ⟨⟩) (by rw [hhalves]; linarith)⟩

theorem rounded (h : Represents em x) : RoundsTo x em.roundedMantissa := by
  obtain ⟨m, roundBit, stickyBit⟩ := em
  obtain ⟨hlower, hupper, hexact⟩ := h
  cases roundBit <;> cases stickyBit <;>
    simp only [halves_of_false, halves_of_true, true_iff, false_iff, reduceCtorEq] at hlower hupper hexact
  · rw [hexact]
    exact .self m
  · have : (m : ℚ) < x := lt_of_le_of_ne hlower (Ne.symm hexact)
    have hround : ExtendedMantissa.roundedMantissa ⟨m, false, true⟩ = m := rfl
    rw [hround]
    constructor <;> intros <;> linarith
  · have hround : ExtendedMantissa.roundedMantissa ⟨m, true, false⟩ = m + m % 2 := rfl
    rw [hround]
    obtain hmod | hmod := Nat.mod_two_eq_zero_or_one m
    · rw [hmod, add_zero]
      constructor <;> intros <;> first | assumption | linarith
    · rw [hmod]
      constructor <;> push_cast <;> intros <;> first | omega | linarith
  · have : (m : ℚ) + 1 / 2 < x := lt_of_le_of_ne hlower (Ne.symm hexact)
    have hround : ExtendedMantissa.roundedMantissa ⟨m, true, true⟩ = m + 1 := rfl
    rw [hround]
    constructor <;> push_cast <;> intros <;> linarith

end Represents

/-! ## Binades -/

theorem targetExponent_eq (k : ℤ) : Format.binary64.targetExponent k = max (k - 53) (-1074) := rfl

/-- The doubles next to a number are multiples of a power of two, and take 53 bits unless it is the least. -/
structure InBinade (t : ℤ) (x : ℚ) : Prop where
  min_le : -1074 ≤ t
  upper : x < 2 ^ (t + 53)
  lower : t = -1074 ∨ 2 ^ (t + 52) ≤ x

namespace InBinade

variable {t u : ℤ} {x y : ℚ}

theorem le_of_le (h : InBinade t x) (h' : InBinade u y) (hxy : x ≤ y) : t ≤ u := by
  obtain rfl | hlower := h.lower
  · exact h'.min_le
  · have hlt : (2 : ℚ) ^ (t + 52) < 2 ^ (u + 53) := hlower.trans_lt (hxy.trans_lt h'.upper)
    have := (zpow_lt_zpow_iff_right₀ one_lt_two).1 hlt
    omega

theorem unique (h : InBinade t x) (h' : InBinade u x) : t = u :=
  le_antisymm (h.le_of_le h' le_rfl) (h'.le_of_le h le_rfl)

/-- The exponent for a mantissa, if that has enough bits, is the one for the number it is cut off from. -/
theorem target {m : ℕ} {e : ℤ} (enough : e ≤ Format.binary64.targetExponent (totalExponent m e))
    (lower : m * 2 ^ e ≤ x) (upper : x < (m + 1) * 2 ^ e) :
    InBinade (Format.binary64.targetExponent (totalExponent m e)) x := by
  have htwo : (0 : ℚ) < 2 ^ e := by positivity
  rw [targetExponent_eq, totalExponent] at enough ⊢
  have hlt : ((m + 1 : ℕ) : ℚ) ≤ 2 ^ ((m.log2 : ℤ) + 1) := by
    exact_mod_cast Nat.lt_log2_self
  refine ⟨le_max_right _ _, ?_, ?_⟩
  · calc x < (m + 1) * 2 ^ e := upper
      _ ≤ 2 ^ ((m.log2 : ℤ) + 1) * 2 ^ e := by
        push_cast at hlt
        exact mul_le_mul_of_nonneg_right hlt htwo.le
      _ = 2 ^ ((m.log2 : ℤ) + 1 + e) := (zpow_add₀ two_ne_zero _ _).symm
      _ ≤ 2 ^ (max ((m.log2 : ℤ) + 1 + e - 53) (-1074) + 53) := by
        refine zpow_le_zpow_right₀ one_le_two ?_
        omega
  · obtain hm | hm := Nat.eq_zero_or_pos m
    · left
      simp only [hm, Nat.log2_zero] at enough ⊢
      omega
    · refine or_iff_not_imp_left.2 fun hmin => ?_
      have hle : (2 : ℚ) ^ (m.log2 : ℤ) ≤ m := by exact_mod_cast Nat.log2_self_le hm.ne'
      calc (2 : ℚ) ^ (max ((m.log2 : ℤ) + 1 + e - 53) (-1074) + 52) = 2 ^ ((m.log2 : ℤ) + e) := by
            congr 1
            omega
        _ = 2 ^ (m.log2 : ℤ) * 2 ^ e := zpow_add₀ two_ne_zero _ _
        _ ≤ m * 2 ^ e := mul_le_mul_of_nonneg_right hle htwo.le
        _ ≤ x := lower

/-- A number is nearest to at most as many units as a binade has. -/
theorem rounded_le (h : InBinade t x) {n : ℕ} (hn : RoundsTo (x / 2 ^ t) n) : n ≤ 2 ^ 53 := by
  refine hn.le_of_le (.self (2 ^ 53)) ?_
  rw [div_le_iff₀ (by positivity)]
  have := h.upper
  rw [zpow_add₀ two_ne_zero] at this
  push_cast
  norm_num at this ⊢
  linarith

end InBinade

/-! ## Rounding to doubles -/

/-- The double of so many units. A full binade is where the next one begins. -/
def ofUnits (s : Sign) (n : ℕ) (t : ℤ) : UnpackedFloat :=
  if hn : n = 0 then .zero s
  else if n = 2 ^ 53 then .finite s (2 ^ 52) (t + 1) (by decide)
  else .finite s n t (Nat.pos_of_ne_zero hn)

/-- A double is the rounding of a number with a sign. -/
def Rounds (x : ℚ) (s : Sign) (f : UnpackedFloat) : Prop :=
  ∃ t n, InBinade t x ∧ RoundsTo (x / 2 ^ t) n ∧ f = ofUnits s n t

theorem Rounds.unique {x : ℚ} {s : Sign} {f f' : UnpackedFloat} (h : Rounds x s f) (h' : Rounds x s f') : f = f' := by
  obtain ⟨t, n, ht, hn, rfl⟩ := h
  obtain ⟨t', n', ht', hn', rfl⟩ := h'
  obtain rfl := ht.unique ht'
  rw [hn.unique hn']

/-- After rounding there is at most one place left to shift. -/
theorem shift_rounded {n : ℕ} {t : ℤ} (hn : n ≤ 2 ^ 53) (ht : -1074 ≤ t) :
    shiftToTargetExponent .binary64 n t .exact =
      if n = 2 ^ 53 then (⟨2 ^ 52, false, false⟩, t + 1) else (⟨n, false, false⟩, t) := by
  rw [shiftToTargetExponent, shiftToExponent, targetExponent_eq, totalExponent]
  split
  · next hfull =>
    have hshift : (max (((n.log2 : ℤ) + 1 + t) - 53) (-1074) - t).toNat = 1 := by
      rw [hfull, Nat.log2_two_pow]
      omega
    rw [hshift, hfull]
    rfl
  · next hfull =>
    have hlog : n.log2 ≤ 52 := by
      obtain hzero | hpos := Nat.eq_zero_or_pos n
      · simp [hzero]
      · exact Nat.lt_succ_iff.1 ((Nat.log2_lt hpos.ne').2 (by omega))
    have hshift : (max (((n.log2 : ℤ) + 1 + t) - 53) (-1074) - t).toNat = 0 := by omega
    rw [hshift]
    simp [HShiftRight.hShiftRight, Nat.repeat, ExtendedMantissa.ofMantissaAndAccuracy]

theorem mantissa_ofMantissaAndAccuracy (m : ℕ) (acc : Accuracy) :
    (ExtendedMantissa.ofMantissaAndAccuracy m acc).mantissa = m := by
  cases acc with
  | exact => rfl
  | inexact o => cases o <;> rfl

/-- A mantissa has enough bits if it fills a binade or its unit is at most the least there is. -/
theorem le_targetExponent {m : ℕ} {e : ℤ} (enough : e ≤ -1074 ∨ 2 ^ 52 ≤ m) :
    e ≤ Format.binary64.targetExponent (totalExponent m e) := by
  rw [targetExponent_eq, totalExponent]
  obtain hmin | hfull := enough
  · omega
  · have : 52 ≤ m.log2 := (Nat.le_log2 (by omega)).2 hfull
    omega

/-- What the arithmetic of doubles ends in is the rounding of the number that its arguments stand for. -/
theorem rounds_roundWithAccuracy {m : ℕ} {e : ℤ} {acc : Accuracy} {x : ℚ} (s : Sign)
    (enough : e ≤ -1074 ∨ 2 ^ 52 ≤ m) (h : Represents (.ofMantissaAndAccuracy m acc) (x / 2 ^ e)) :
    Rounds x s (roundWithAccuracy .binary64 s m e acc) := by
  replace enough := le_targetExponent enough
  have htwo : (0 : ℚ) < 2 ^ e := by positivity
  have hbinade : InBinade (Format.binary64.targetExponent (totalExponent m e)) x := by
    refine .target enough ?_ ?_
    · rw [← le_div_iff₀ htwo, ← mantissa_ofMantissaAndAccuracy m acc]
      exact h.mantissa_le
    · rw [← div_lt_iff₀ htwo, ← mantissa_ofMantissaAndAccuracy m acc]
      exact h.lt_mantissa
  generalize ht : Format.binary64.targetExponent (totalExponent m e) = t at enough hbinade
  have hk : e + ((t - e).toNat : ℤ) = t := by omega
  have hrounds := (h.shiftRight (t - e).toNat).rounded
  rw [div_div, ← zpow_natCast, ← zpow_add₀ two_ne_zero, hk] at hrounds
  refine ⟨t, _, hbinade, hrounds, ?_⟩
  have hshift : shiftToTargetExponent .binary64 m e acc =
      (ExtendedMantissa.ofMantissaAndAccuracy m acc >>> (t - e).toNat, t) := by
    rw [shiftToTargetExponent, shiftToExponent, ht, hk]
  generalize ExtendedMantissa.ofMantissaAndAccuracy m acc >>> (t - e).toNat = em at hrounds hshift
  have hsecond := shift_rounded (hbinade.rounded_le hrounds) hbinade.min_le
  by_cases hfull : em.roundedMantissa = 2 ^ 53
  · rw [if_pos hfull] at hsecond
    simp only [roundWithAccuracy, hshift, hsecond, ofUnits]
    rw [dif_neg (by decide), dif_neg (by omega), if_pos hfull]
  · rw [if_neg hfull] at hsecond
    simp only [roundWithAccuracy, hshift, hsecond, ofUnits, if_neg hfull]

theorem rounds_zero (s : Sign) : Rounds 0 s (.zero s) :=
  ⟨-1074, 0, ⟨le_rfl, by positivity, .inl rfl⟩, by simpa using RoundsTo.self 0, rfl⟩

theorem rounds_mul {m₁ m₂ : ℕ} {e₁ e₂ : ℤ} (s₁ s₂ : Sign) (h₁ : 0 < m₁) (h₂ : 0 < m₂)
    (enough : e₁ + e₂ ≤ -1074 ∨ 2 ^ 52 ≤ m₁ * m₂) :
    Rounds (m₁ * 2 ^ e₁ * (m₂ * 2 ^ e₂)) (s₁ * s₂) (mul .binary64 (.finite s₁ m₁ e₁ h₁) (.finite s₂ m₂ e₂ h₂)) := by
  refine rounds_roundWithAccuracy _ enough ?_
  have hvalue : (m₁ * 2 ^ e₁ * (m₂ * 2 ^ e₂) : ℚ) / 2 ^ (e₁ + e₂) = (m₁ * m₂ : ℕ) := by
    rw [zpow_add₀ two_ne_zero]
    push_cast
    field_simp
  rw [hvalue]
  exact .ofExact _

/-- The quotient of a mantissa that was shifted far enough fills a binade. -/
theorem two_pow_le_div {m₁ m₂ k : ℕ} (h₁ : 0 < m₁) (h₂ : 0 < m₂) (hk : m₂.log2 + 53 ≤ m₁.log2 + k) :
    2 ^ 52 ≤ m₁ * 2 ^ k / m₂ := by
  rw [Nat.le_div_iff_mul_le h₂]
  calc 2 ^ 52 * m₂ ≤ 2 ^ 52 * 2 ^ (m₂.log2 + 1) := Nat.mul_le_mul_left _ Nat.lt_log2_self.le
    _ = 2 ^ (m₂.log2 + 53) := by rw [← Nat.pow_add, Nat.add_comm 52, Nat.add_assoc]
    _ ≤ 2 ^ (m₁.log2 + k) := Nat.pow_le_pow_right two_pos hk
    _ = 2 ^ m₁.log2 * 2 ^ k := Nat.pow_add ..
    _ ≤ m₁ * 2 ^ k := Nat.mul_le_mul_right _ (Nat.log2_self_le h₁.ne')

/-- A quotient is computed with at least as many bits as a double has, and with what is left over. -/
theorem rounds_div {m₁ m₂ : ℕ} {e₁ e₂ : ℤ} (s₁ s₂ : Sign) (h₁ : 0 < m₁) (h₂ : 0 < m₂) :
    Rounds (m₁ * 2 ^ e₁ / (m₂ * 2 ^ e₂)) (s₁ / s₂) (div .binary64 (.finite s₁ m₁ e₁ h₁) (.finite s₂ m₂ e₂ h₂)) := by
  generalize ht : min (e₁ - e₂) (Format.binary64.targetExponent (totalExponent m₁ e₁ - totalExponent m₂ e₂)) = t
  have hdiv : div .binary64 (.finite s₁ m₁ e₁ h₁) (.finite s₂ m₂ e₂ h₂) =
      roundWithAccuracy .binary64 (s₁ / s₂) (m₁ * 2 ^ (e₁ - e₂ - t).toNat / m₂) t
        (accuracyOfFraction (m₁ * 2 ^ (e₁ - e₂ - t).toNat % m₂) m₂) := by
    rw [← ht, ← Nat.shiftLeft_eq]
    rfl
  rw [targetExponent_eq, totalExponent, totalExponent] at ht
  have hk : e₁ - e₂ = t + ((e₁ - e₂ - t).toNat : ℤ) := by omega
  rw [hdiv]
  generalize (e₁ - e₂ - t).toNat = k at hk
  refine rounds_roundWithAccuracy _ ?_ ?_
  · refine or_iff_not_imp_left.2 fun hmin => two_pow_le_div h₁ h₂ ?_
    omega
  · have hm₂ : (m₂ : ℚ) ≠ 0 := by exact_mod_cast h₂.ne'
    have hsplit : ((m₁ * 2 ^ k : ℕ) : ℚ) = m₂ * (m₁ * 2 ^ k / m₂ : ℕ) + (m₁ * 2 ^ k % m₂ : ℕ) := by
      exact_mod_cast (Nat.div_add_mod _ _).symm
    have hvalue : (m₁ * 2 ^ e₁ / (m₂ * 2 ^ e₂) : ℚ) / 2 ^ t =
        (m₁ * 2 ^ k / m₂ : ℕ) + (m₁ * 2 ^ k % m₂ : ℕ) / m₂ := by
      calc (m₁ * 2 ^ e₁ / (m₂ * 2 ^ e₂) : ℚ) / 2 ^ t = m₁ * 2 ^ (e₁ - e₂) / 2 ^ t / m₂ := by
            rw [zpow_sub₀ two_ne_zero]
            field_simp
        _ = (m₁ * 2 ^ k : ℕ) / m₂ := by
            rw [hk, zpow_add₀ two_ne_zero, zpow_natCast]
            push_cast
            field_simp
        _ = (m₁ * 2 ^ k / m₂ : ℕ) + (m₁ * 2 ^ k % m₂ : ℕ) / m₂ := by
            rw [hsplit]
            field_simp
    rw [hvalue]
    exact .ofFraction _ (Nat.mod_lt _ h₂)

end LiveScreen.Decimal
