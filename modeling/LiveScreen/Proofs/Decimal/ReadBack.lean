/-
The text of a number reads as the number. The digits that are written lie among the numbers
that round to the double (`covers_shortest`): those of a grid are tried for it, and the
exact value does. Between two halves of a unit there is one double, so that reading, which
rounds, gives the double back (`rounds_of_readsBack`, `read?_text`).
-/
import LiveScreen.Decimal.Notation
import LiveScreen.Proofs.Decimal.Literals
import LiveScreen.Proofs.Decimal.Nearest

namespace LiveScreen.Decimal

open Float.Model Float.Model.UnpackedFloat

/-! ## Decimals and doubles as numbers -/

/-- The number that a decimal is. -/
def Dec.value (d : Dec) : ℚ := d.digits * 10 ^ d.exponent

theorem zpow_mul_toNat {b : ℚ} (hb : b ≠ 0) (i : ℤ) : b ^ i * b ^ (-i).toNat = b ^ i.toNat := by
  rw [← zpow_natCast, ← zpow_natCast, ← zpow_add₀ hb]
  congr 1
  omega

section CompareScaled

variable (a : ℕ) (i : ℤ) (n : ℕ) (j : ℤ)

/-- Both sides of a comparison, cleared of the denominators. -/
theorem scaled_sides :
    ((a * Nat.pow 10 i.toNat * Nat.pow 2 (-j).toNat : ℕ) : ℚ) = a * 10 ^ i * (10 ^ (-i).toNat * 2 ^ (-j).toNat) ∧
      ((n * Nat.pow 2 j.toNat * Nat.pow 10 (-i).toNat : ℕ) : ℚ) = n * 2 ^ j * (10 ^ (-i).toNat * 2 ^ (-j).toNat) := by
  simp only [Nat.pow_eq]
  push_cast
  rw [← zpow_mul_toNat (by norm_num : (10 : ℚ) ≠ 0) i, ← zpow_mul_toNat (two_ne_zero (α := ℚ)) j]
  constructor <;> ring

theorem compareScaled_lt : compareScaled a i n j = .lt ↔ (a * 10 ^ i : ℚ) < n * 2 ^ j := by
  obtain ⟨hleft, hright⟩ := scaled_sides a i n j
  rw [compareScaled, Nat.compare_eq_lt, ← Nat.cast_lt (α := ℚ), hleft, hright]
  exact mul_lt_mul_iff_left₀ (by positivity)

theorem compareScaled_eq : compareScaled a i n j = .eq ↔ (a * 10 ^ i : ℚ) = n * 2 ^ j := by
  obtain ⟨hleft, hright⟩ := scaled_sides a i n j
  rw [compareScaled, Nat.compare_eq_eq, ← Nat.cast_inj (R := ℚ), hleft, hright]
  exact mul_left_inj' (by positivity)

theorem compareScaled_gt : compareScaled a i n j = .gt ↔ (n * 2 ^ j : ℚ) < a * 10 ^ i := by
  obtain ⟨hleft, hright⟩ := scaled_sides a i n j
  rw [compareScaled, Nat.compare_eq_gt, ← Nat.cast_lt (α := ℚ), hleft, hright]
  exact mul_lt_mul_iff_left₀ (by positivity)

end CompareScaled

/-! ## What rounds to a double -/

/-- What is known of the mantissa and exponent of a finite double other than zero. -/
structure Binary.Sound (b : Binary) : Prop where
  pos : 0 < b.mantissa
  fits : Fits b.mantissa b.exponent
  narrow_iff : b.narrowBelow = true ↔ b.mantissa = 2 ^ 52 ∧ b.exponent ≠ -1074

/-- The numbers that round to a double: up to half a unit away, or a quarter where the next double below is half
as far, and those in the middle between two doubles if the mantissa is even. -/
structure Binary.Covers (b : Binary) (v : ℚ) : Prop where
  lower : (b.mantissa - if b.narrowBelow then 1 / 4 else 1 / 2) * 2 ^ b.exponent ≤ v
  upper : v ≤ (b.mantissa + 1 / 2) * 2 ^ b.exponent
  lower_tie : v = (b.mantissa - if b.narrowBelow then 1 / 4 else 1 / 2) * 2 ^ b.exponent → b.mantissa % 2 = 0
  upper_tie : v = (b.mantissa + 1 / 2) * 2 ^ b.exponent → b.mantissa % 2 = 0

theorem Binary.readsBack_iff {b : Binary} (h : b.Sound) (d : Dec) : b.readsBack d = true ↔ b.Covers d.value := by
  have hpos := h.pos
  have hquarter : (2 : ℚ) ^ (b.exponent - 2) = 2 ^ b.exponent / 4 := by
    rw [zpow_sub₀ two_ne_zero]
    norm_num
  have hlow : (((if b.narrowBelow then 4 * b.mantissa - 1 else 4 * b.mantissa - 2 : ℕ) : ℚ) * 2 ^ (b.exponent - 2)) =
      (b.mantissa - if b.narrowBelow then 1 / 4 else 1 / 2) * 2 ^ b.exponent := by
    rw [hquarter]
    split
    · rw [Nat.cast_sub (by omega)]
      push_cast
      ring
    · rw [Nat.cast_sub (by omega)]
      push_cast
      ring
  have hhigh : (((4 * b.mantissa + 2 : ℕ) : ℚ) * 2 ^ (b.exponent - 2)) = (b.mantissa + 1 / 2) * 2 ^ b.exponent := by
    rw [hquarter]
    push_cast
    ring
  rw [readsBack]
  simp only [Bool.and_eq_true, Bool.or_eq_true, decide_eq_true_eq, compareScaled_gt, compareScaled_lt, compareScaled_eq,
    hlow, hhigh]
  change _ ↔ b.Covers (d.digits * 10 ^ d.exponent)
  constructor
  · rintro ⟨hlower, hupper⟩
    refine ⟨hlower.elim le_of_lt fun h => h.2.ge, hupper.elim le_of_lt fun h => h.2.le, fun heq => ?_, fun heq => ?_⟩
    · exact hlower.elim (fun h => absurd heq h.ne') fun h => h.1
    · exact hupper.elim (fun h => absurd heq h.ne) fun h => h.1
  · rintro ⟨hlower, hupper, hlowerTie, hupperTie⟩
    exact ⟨hlower.lt_or_eq.imp_right fun h => ⟨hlowerTie h.symm, h.symm⟩,
      hupper.lt_or_eq.imp_right fun h => ⟨hupperTie h, h⟩⟩

section Rounding

variable {b : Binary} (hb : b.Sound) {w : ℚ} (h : b.Covers (w * 2 ^ b.exponent)) (s : Sign)
include hb h

/-- What a double covers in its own binade is rounded to the units of the double. -/
theorem Binary.Covers.rounds_within (hbinade : b.exponent = -1074 ∨ (2 : ℚ) ^ 52 ≤ w) :
    Rounds (w * 2 ^ b.exponent) s (ofUnits s b.mantissa b.exponent) := by
  have hpow : (0 : ℚ) < 2 ^ b.exponent := by positivity
  have hlt : (b.mantissa : ℚ) + 1 ≤ 2 ^ 53 := by exact_mod_cast hb.fits.lt
  obtain ⟨hlower, hupper, hlowerTie, hupperTie⟩ := h
  rw [mul_le_mul_iff_left₀ hpow] at hlower hupper
  rw [mul_left_inj' hpow.ne'] at hlowerTie hupperTie
  refine ⟨b.exponent, b.mantissa, ⟨hb.fits.min_le, ?_, ?_⟩, ?_, rfl⟩
  · rw [zpow_add₀ two_ne_zero, mul_comm]
    refine mul_lt_mul_of_pos_left ?_ hpow
    exact_mod_cast (by linarith : w < (2 : ℚ) ^ 53)
  · refine hbinade.imp_right fun hfull => ?_
    rw [zpow_add₀ two_ne_zero, mul_comm]
    exact mul_le_mul_of_nonneg_right (by exact_mod_cast hfull) hpow.le
  · rw [mul_div_cancel_right₀ _ hpow.ne']
    cases hnarrow : b.narrowBelow with
    | false =>
      simp only [hnarrow, Bool.false_eq_true, if_false] at hlower hlowerTie
      exact ⟨hlower, hupper, hlowerTie, hupperTie⟩
    | true =>
      simp only [hnarrow, if_true] at hlower
      exact ⟨by linarith, hupper, fun heq => by linarith, hupperTie⟩

/-- What a double covers below its binade is rounded to units of half the size. The double is the power of two
there, which is the last number of these units. -/
theorem Binary.Covers.rounds_below (hexponent : b.exponent ≠ -1074) (hbelow : w < 2 ^ 52) :
    Rounds (w * 2 ^ b.exponent) s (ofUnits s b.mantissa b.exponent) := by
  have hpow : (0 : ℚ) < 2 ^ b.exponent := by positivity
  have hmin := hb.fits.min_le
  have hlower := (mul_le_mul_iff_left₀ hpow).1 h.lower
  have hmantissa : b.mantissa = 2 ^ 52 := by
    have hfull := hb.fits.full.resolve_left hexponent
    by_contra hne
    have hmore : (2 : ℚ) ^ 52 + 1 ≤ b.mantissa := by exact_mod_cast lt_of_le_of_ne hfull (Ne.symm hne)
    split at hlower <;> linarith
  rw [if_pos (hb.narrow_iff.2 ⟨hmantissa, hexponent⟩), hmantissa] at hlower
  push_cast at hlower
  have hhalf : (2 : ℚ) ^ b.exponent = 2 * 2 ^ (b.exponent - 1) := by
    rw [zpow_sub₀ two_ne_zero]
    norm_num
    ring
  have hunits : ofUnits s b.mantissa b.exponent = ofUnits s (2 ^ 53) (b.exponent - 1) := by
    rw [ofUnits_full, hmantissa, Int.sub_add_cancel]
  have hvalue : w * 2 ^ b.exponent / 2 ^ (b.exponent - 1) = 2 * w := by
    have hne : (2 : ℚ) ^ (b.exponent - 1) ≠ 0 := by positivity
    rw [hhalf]
    field_simp
  rw [hunits]
  refine ⟨b.exponent - 1, 2 ^ 53, ⟨by omega, ?_, .inr ?_⟩, ?_, rfl⟩
  · rw [show b.exponent - 1 + 53 = 52 + b.exponent by omega, zpow_add₀ two_ne_zero]
    exact mul_lt_mul_of_pos_right (by exact_mod_cast hbelow) hpow
  · rw [show b.exponent - 1 + 52 = 51 + b.exponent by omega, zpow_add₀ two_ne_zero]
    refine mul_le_mul_of_nonneg_right ?_ hpow.le
    norm_num at hlower ⊢
    linarith
  · rw [hvalue]
    refine ⟨?_, ?_, fun _ => by decide, fun _ => by decide⟩
    · push_cast
      linarith
    · push_cast
      linarith

end Rounding

/-- What a double covers rounds to it. -/
theorem Binary.Covers.rounds {b : Binary} (hb : b.Sound) {v : ℚ} (h : b.Covers v) (s : Sign) :
    Rounds v s (ofUnits s b.mantissa b.exponent) := by
  have hpow : (2 : ℚ) ^ b.exponent ≠ 0 := by positivity
  obtain ⟨w, rfl⟩ : ∃ w, v = w * 2 ^ b.exponent := ⟨v / 2 ^ b.exponent, (div_mul_cancel₀ v hpow).symm⟩
  by_cases hbinade : b.exponent = -1074 ∨ (2 : ℚ) ^ 52 ≤ w
  · exact rounds_within hb h s hbinade
  · rw [not_or, not_le] at hbinade
    exact rounds_below hb h s hbinade.1 hbinade.2

/-! ## The digits that are written -/

theorem Dec.value_go : ∀ (fuel : ℕ) (d : Dec) (n : ℕ), n = d.digits → (trimZeros.go fuel d n).value = d.value
  | 0, _, _, _ => rfl
  | fuel + 1, d, n, hn => by
    rw [trimZeros.go]
    split
    · next hzero =>
      have hdigits : (n : ℚ) = 10 * (n / 10 : ℕ) := by
        exact_mod_cast (show n = 10 * (n / 10) by omega)
      rw [value_go fuel _ _ rfl, value, value, ← hn, hdigits, zpow_add₀ (by norm_num), zpow_one]
      ring
    · rfl

theorem Dec.value_trimZeros (d : Dec) : d.trimZeros.value = d.value := Dec.value_go d.digits d d.digits rfl

theorem Binary.value_exact (b : Binary) : b.exact.value = b.value := by
  rw [exact, Dec.value, value]
  simp only [Nat.pow_eq]
  push_cast
  obtain he | he := le_total 0 b.exponent
  · rw [min_eq_right he, zpow_zero, Int.toNat_of_nonpos (by omega : -b.exponent ≤ 0), pow_zero, ← zpow_natCast,
      Int.toNat_of_nonneg he]
    ring
  · have hten : (10 : ℚ) ^ b.exponent = 5 ^ b.exponent * 2 ^ b.exponent := by
      rw [← mul_zpow]
      norm_num
    have hfive : (5 : ℚ) ^ (-b.exponent).toNat * 5 ^ b.exponent = 1 := by
      rw [← zpow_natCast, Int.toNat_of_nonneg (by omega), ← zpow_add₀ (by norm_num), neg_add_cancel, zpow_zero]
    rw [min_eq_left he, Int.toNat_of_nonpos he, pow_zero, mul_one, hten, mul_assoc, ← mul_assoc (5 ^ _), hfive, one_mul]

theorem Binary.covers_value {b : Binary} : b.Covers b.value := by
  have hpow : (0 : ℚ) < 2 ^ b.exponent := by positivity
  have hgap : (0 : ℚ) < if b.narrowBelow then 1 / 4 else 1 / 2 := by split <;> norm_num
  rw [value]
  refine ⟨mul_le_mul_of_nonneg_right (by linarith) hpow.le, mul_le_mul_of_nonneg_right (by linarith) hpow.le,
    fun heq => ?_, fun heq => ?_⟩
  · have := mul_right_cancel₀ hpow.ne' heq
    linarith
  · have := mul_right_cancel₀ hpow.ne' heq
    linarith

/-- A decimal that is chosen on a grid reads back. -/
theorem Binary.readsBack_of_onGrid? {b : Binary} {exponent : ℤ} {d : Dec} (h : b.onGrid? exponent = some d) :
    b.readsBack d = true := by
  rw [onGrid?] at h
  dsimp only at h
  split at h
  · cases h
  · next hlow _ =>
    cases h
    exact hlow
  · next _ hhigh =>
    cases h
    exact hhigh
  · next hlow hhigh =>
    split at h <;> cases h
    · exact hlow
    · exact hhigh

/-- The digits of a double lie among the numbers that round to it. -/
theorem Binary.covers_shortest {b : Binary} (h : b.Sound) : b.Covers b.shortest.value := by
  rw [shortest, if_neg h.pos.ne']
  dsimp only
  split
  · next d hfound =>
    obtain ⟨n, -, hn⟩ := List.exists_of_findSome?_eq_some hfound
    rw [Dec.value_trimZeros]
    exact (readsBack_iff h d).1 (readsBack_of_onGrid? hn)
  · rw [Dec.value_trimZeros, value_exact]
    exact covers_value

theorem narrowBelow_ofBits (bits : UInt64) : (Binary.ofBits bits).narrowBelow = true ↔
    (Binary.ofBits bits).mantissa = 2 ^ 52 ∧ (Binary.ofBits bits).exponent ≠ -1074 := by
  rw [Binary.ofBits]
  split
  · simp
  · next hfield =>
    dsimp only
    rw [decide_eq_true_iff]
    have hpow : Nat.pow 2 52 = 2 ^ 52 := rfl
    omega

theorem sound_ofFloat {x : Float} (hx : x.isFinite = true) (hpos : 0 < (Binary.ofFloat x).mantissa) :
    (Binary.ofFloat x).Sound :=
  ⟨hpos, (unpacked_of_finite hx).1, narrowBelow_ofBits _⟩

/-- What the digits of a double are rounds to it, but for its sign. -/
theorem rounds_shortest {x : Float} (hx : x.isFinite = true) :
    Rounds (Binary.ofFloat x).shortest.value .positive
      (ofUnits .positive (Binary.ofFloat x).mantissa (Binary.ofFloat x).exponent) := by
  obtain hzero | hpos := Nat.eq_zero_or_pos (Binary.ofFloat x).mantissa
  · have hvalue : (Binary.ofFloat x).shortest.value = 0 := by
      rw [Binary.shortest, if_pos hzero, Dec.value, Nat.cast_zero, zero_mul]
    rw [hvalue, hzero]
    exact rounds_zero .positive
  · exact (Binary.covers_shortest (sound_ofFloat hx hpos)).rounds (sound_ofFloat hx hpos) .positive

/-! ## The text that is written -/

theorem digitsValue_eq (ds : List Char) : digitsValue ds = Nat.ofDigitChars 10 ds 0 := rfl

theorem isDigit_eq (c : Char) : isDigit c = c.isDigit := rfl

theorem allDigits_digitsOf (n : ℕ) : AllDigits (digitsOf n) := fun c hc => by
  rw [isDigit_eq]
  exact Nat.isDigit_of_mem_toDigits (by decide) (by decide) hc

theorem digitsValue_digitsOf (n : ℕ) : digitsValue (digitsOf n) = n := Nat.ofDigitChars_ten_toDigits

theorem digitsOf_ne_nil (n : ℕ) : digitsOf n ≠ [] := Nat.toDigits_ne_nil

theorem allDigits_zeros (k : ℕ) : AllDigits (List.replicate k '0') := fun c hc => by
  rw [(List.mem_replicate.1 hc).2]
  decide

theorem AllDigits.append {a b : List Char} (ha : AllDigits a) (hb : AllDigits b) : AllDigits (a ++ b) :=
  List.forall_mem_append.2 ⟨ha, hb⟩

theorem AllDigits.of_append {a b : List Char} (h : AllDigits (a ++ b)) : AllDigits a ∧ AllDigits b :=
  List.forall_mem_append.1 h

theorem digitsValue_zeros_append (k : ℕ) (ds : List Char) :
    digitsValue (List.replicate k '0' ++ ds) = digitsValue ds := by
  rw [digitsValue_eq, Nat.ofDigitChars_append, Nat.ofDigitChars_replicate_zero, Nat.mul_zero, digitsValue_eq]

theorem digitsValue_append_zeros (ds : List Char) (k : ℕ) :
    digitsValue (ds ++ List.replicate k '0') = 10 ^ k * digitsValue ds := by
  rw [digitsValue_eq, Nat.ofDigitChars_append, Nat.ofDigitChars_replicate_zero, digitsValue_eq]

/-- Digits with a point among them. -/
theorem DecimalText.of_point {ds decimals : List Char} (hne : ds ++ decimals ≠ []) (hds : AllDigits (ds ++ decimals)) :
    DecimalText (ds ++ '.' :: decimals) (digitsValue (ds ++ decimals)) (-decimals.length) := by
  have hne' : ds ≠ [] ∨ decimals ≠ [] := by simpa [Classical.or_iff_not_imp_left] using hne
  have htext := DecimalText.point hne' hds.of_append.1 hds.of_append.2 .absent
  rwa [List.append_nil, zero_sub] at htext

/-- A decimal that is written in full is the number. -/
theorem decimalText_inFull (d : Dec) : ∃ n e, DecimalText (inFull false d) n e ∧ (n * 10 ^ e : ℚ) = d.value := by
  have hds := allDigits_digitsOf d.digits
  have hne := digitsOf_ne_nil d.digits
  have hvalue := digitsValue_digitsOf d.digits
  rw [inFull]
  by_cases he : 0 ≤ d.exponent
  · have htext : DecimalText (digitsOf d.digits ++ List.replicate d.exponent.toNat '0' ++ []) _ _ :=
      .whole (by simp [hne]) (hds.append (allDigits_zeros _)) .absent
    refine ⟨_, _, by simpa only [he, if_true, if_false, Bool.false_eq_true] using htext, ?_⟩
    rw [digitsValue_append_zeros, hvalue, Dec.value, zpow_zero, mul_one, ← Int.toNat_of_nonneg he, zpow_natCast,
      Int.toNat_natCast]
    push_cast
    exact mul_comm _ _
  · obtain ⟨places, hplaces⟩ : ∃ places : ℕ, d.exponent = -places := ⟨d.exponent.natAbs, by omega⟩
    rw [if_neg he]
    dsimp only
    rw [Dec.value, hplaces, neg_neg, Int.toNat_natCast]
    generalize digitsOf d.digits = ds at hds hne hvalue
    by_cases hinside : places < ds.length
    · have hsplit := List.take_append_drop (ds.length - places) ds
      have hlength : (ds.drop (ds.length - places)).length = places := by
        rw [List.length_drop]
        omega
      have htext : DecimalText (ds.take (ds.length - places) ++ '.' :: ds.drop (ds.length - places)) _ _ :=
        .of_point (by rwa [hsplit]) (by rwa [hsplit])
      rw [if_pos hinside, List.append_assoc]
      refine ⟨_, _, htext, ?_⟩
      rw [hsplit, hvalue, hlength]
    · have hlength : (List.replicate (places - ds.length) '0' ++ ds).length = places := by
        rw [List.length_append, List.length_replicate]
        omega
      have htext : DecimalText (List.replicate 1 '0' ++ '.' :: (List.replicate (places - ds.length) '0' ++ ds)) _ _ :=
        .of_point (by simp) ((allDigits_zeros 1).append ((allDigits_zeros _).append hds))
      rw [if_neg hinside]
      refine ⟨_, _, htext, ?_⟩
      rw [hlength, digitsValue_zeros_append, digitsValue_zeros_append, hvalue]

theorem neg_ofUnits (m : ℕ) (e : ℤ) : (ofUnits .positive m e).neg = ofUnits .negative m e := by
  rw [ofUnits, ofUnits]
  split
  · rfl
  · split <;> rfl

theorem isNaN_of_finite {x : Float} (h : x.isFinite = true) : x.isNaN = false := by
  rw [isFinite_unpacked] at h
  change (unpacked x).isNaN = false
  cases hx : unpacked x <;> first | rfl | (rw [hx] at h; cases h)

theorem isInf_of_finite {x : Float} (h : x.isFinite = true) : x.isInf = false := by
  rw [isFinite_unpacked] at h
  change (unpacked x).isInf = false
  cases hx : unpacked x <;> first | rfl | (rw [hx] at h; cases h)

theorem text_of_finite {x : Float} (h : x.isFinite = true) : (Style.value.text x).toList =
    (if isNegative x then ['-'] else []) ++ inFull false (Binary.ofFloat x).shortest := by
  have hwrite : Style.value.write (Binary.ofFloat x).shortest = inFull false (Binary.ofFloat x).shortest :=
    if_pos (.inr rfl)
  rw [Style.text, if_neg (Bool.eq_false_iff.1 (isNaN_of_finite h)), if_neg (Bool.eq_false_iff.1 (isInf_of_finite h)),
    String.toList_ofList, hwrite]

/-- The text of a double reads as the double. -/
theorem read?_text {x : Float} (hx : x.isFinite = true) : read? (Style.value.text x).toList = some x := by
  obtain ⟨n, e, htext, hvalue⟩ := decimalText_inFull (Binary.ofFloat x).shortest
  obtain ⟨f, hrounds, hnearest⟩ := nearest_rounds n e
  obtain ⟨hfits, hunpacked⟩ := unpacked_of_finite hx
  have hself := ofUnpacked_unpacked x
  rw [hvalue] at hrounds
  rw [hrounds.unique (rounds_shortest hx)] at hnearest
  rw [hunpacked, signOf] at hself
  rw [text_of_finite hx, read?_eq_some]
  cases hsign : isNegative x with
  | false =>
    have hliteral := Literal.plain (.decimal htext)
    rwa [hnearest, show ofUnpacked _ = x by simpa [hsign] using hself] at hliteral
  | true =>
    have hliteral := Literal.minus (.decimal htext)
    rwa [hnearest, float_neg_eq, unpacked_ofUnpacked (.ofUnits _ hfits), neg_ofUnits,
      show ofUnpacked _ = x by simpa [hsign] using hself] at hliteral

end LiveScreen.Decimal
