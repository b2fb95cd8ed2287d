/-
Doubles as numbers. A finite double is a number of units of its binade
(`unpacked_of_finite`, with the mantissa and the exponent of `Binary.ofFloat`), and packing
and unpacking lose nothing (`unpacked_ofUnpacked`, `ofUnpacked_unpacked`). So the results
of operations are known from the roundings of exact numbers: a product of finite doubles
is the rounding of their exact product (`exists_rounds_mul`), and a rounding is finite as long as
the number is below the middle between the largest double and the power of two after it
(`ofUnpacked_of_rounds`).
-/
import LiveScreen.Decimal.Binary
import LiveScreen.Proofs.Decimal.Rounding

namespace LiveScreen.Decimal

open Float.Model Float.Model.UnpackedFloat

/-! ## The bits of a double -/

theorem toNat_unpackMantissa (b : BitVec Format.binary64.numBits) : (unpackMantissa b).toNat = b.toNat % 2 ^ 52 := by
  simp [unpackMantissa]

theorem toNat_unpackExponent (b : BitVec Format.binary64.numBits) :
    (unpackExponent b).toNat = b.toNat / 2 ^ 52 % 2 ^ 11 := by
  simp [unpackExponent, Nat.shiftRight_eq_div_pow]

theorem toNat_unpackSign (b : BitVec Format.binary64.numBits) : (unpackSign b).toNat = b.toNat / 2 ^ 63 := by
  have hlt : b.toNat < 2 ^ 64 := b.isLt
  simp [unpackSign, Nat.shiftRight_eq_div_pow]
  omega

theorem toNat_fraction (bits : UInt64) :
    (bits &&& 0xFFFFFFFFFFFFF).toNat = (@unpackMantissa .binary64 bits.toBitVec).toNat := by
  rw [toNat_unpackMantissa, UInt64.toNat_and]
  exact Nat.and_two_pow_sub_one_eq_mod _ 52

theorem toNat_field (bits : UInt64) :
    ((bits >>> 52) &&& 0x7FF).toNat = (@unpackExponent .binary64 bits.toBitVec).toNat := by
  rw [toNat_unpackExponent, UInt64.toNat_and, UInt64.toNat_shiftRight]
  exact (Nat.and_two_pow_sub_one_eq_mod _ 11).trans (by rw [Nat.shiftRight_eq_div_pow]; rfl)

/-! ## Finite doubles -/

/-- A mantissa and an exponent that a finite double can have. -/
structure Fits (m : ℕ) (e : ℤ) : Prop where
  lt : m < 2 ^ 53
  min_le : -1074 ≤ e
  le_max : e ≤ 971
  full : e = -1074 ∨ 2 ^ 52 ≤ m

theorem Fits.log2 {m : ℕ} {e : ℤ} (h : Fits m e) (hfull : 2 ^ 52 ≤ m) : m.log2 = 52 := by
  have hlower : 52 ≤ m.log2 := (Nat.le_log2 (by omega)).2 hfull
  have hupper : m.log2 < 53 := (Nat.log2_lt (by omega)).2 h.lt
  omega

/-- What unpacking a double can give. -/
inductive Canonical : UnpackedFloat → Prop
  | notANumber : Canonical .notANumber
  | infinity (s : Sign) : Canonical (.infinity s)
  | ofUnits (s : Sign) {m : ℕ} {e : ℤ} (h : Fits m e) : Canonical (ofUnits s m e)

theorem toNat_one_append (v : BitVec 52) : (1#1 ++ v).toNat = 2 ^ 52 + v.toNat := by
  rw [BitVec.toNat_append, ← Nat.shiftLeft_add_eq_or_of_lt v.isLt]
  simp [Nat.shiftLeft_eq]

theorem ofUnits_of_lt (s : Sign) {m : ℕ} (e : ℤ) (hpos : 0 < m) (hlt : m < 2 ^ 53) :
    ofUnits s m e = .finite s m e hpos := by
  rw [ofUnits, dif_neg hpos.ne', if_neg hlt.ne]

/-- The mantissa that bits encode, with the bit that is left out. -/
def unitsOf (b : BitVec Format.binary64.numBits) : ℕ :=
  if (unpackExponent b).toNat = 0 then (unpackMantissa b).toNat else 2 ^ 52 + (unpackMantissa b).toNat

/-- The exponent that bits encode. -/
def binadeOf (b : BitVec Format.binary64.numBits) : ℤ :=
  if (unpackExponent b).toNat = 0 then -1074 else (unpackExponent b).toNat - 1075

theorem fits_of_ne {b : BitVec Format.binary64.numBits} (h : unpackExponent b ≠ -1#_) :
    Fits (unitsOf b) (binadeOf b) := by
  have hmantissa : (unpackMantissa b).toNat < 2 ^ 52 := (unpackMantissa b).isLt
  have hlt : (unpackExponent b).toNat < 2048 := (unpackExponent b).isLt
  have hne : (unpackExponent b).toNat ≠ 2047 := fun heq => h (BitVec.eq_of_toNat_eq heq)
  rw [unitsOf, binadeOf]
  split
  · exact ⟨by omega, le_rfl, by omega, .inl rfl⟩
  · exact ⟨by omega, by omega, by omega, .inr (by omega)⟩

theorem unpack_of_ne {b : BitVec Format.binary64.numBits} (h : unpackExponent b ≠ -1#_) :
    UnpackedFloat.unpack .binary64 b = ofUnits (.ofBitVec (unpackSign b)) (unitsOf b) (binadeOf b) := by
  have hmantissa : (unpackMantissa b).toNat < 2 ^ 52 := (unpackMantissa b).isLt
  have hbias : (Format.binary64.exponentBias : ℤ) + (Format.binary64.mantissaBitsWithoutImplicit : ℤ) = 1075 := rfl
  rw [UnpackedFloat.unpack, unitsOf, binadeOf]
  simp only [if_neg h, hbias]
  by_cases hzero : unpackExponent b = 0#_
  · have hnat : (unpackExponent b).toNat = 0 := by rw [hzero]; rfl
    rw [if_pos hzero, if_pos hnat, if_pos hnat, hnat]
    by_cases hm : unpackMantissa b = 0#_
    · rw [dif_pos hm, hm]
      rfl
    · have hpos : 0 < (unpackMantissa b).toNat := Nat.pos_of_ne_zero fun h0 => hm (BitVec.eq_of_toNat_eq h0)
      rw [dif_neg hm, ofUnits_of_lt _ _ hpos (by omega)]
      rfl
  · have hnat : (unpackExponent b).toNat ≠ 0 := fun h0 => hzero (BitVec.eq_of_toNat_eq h0)
    rw [if_neg hzero, if_neg hnat, if_neg hnat, ofUnits_of_lt _ _ (by omega) (by omega)]
    simp only [finite.injEq, and_true, true_and]
    exact toNat_one_append _

/-- The other way to decode bits agrees. -/
theorem ofBits_toBitVec (bits : UInt64) : (Binary.ofBits bits).mantissa = unitsOf bits.toBitVec ∧
    (Binary.ofBits bits).exponent = binadeOf bits.toBitVec := by
  rw [Binary.ofBits, toNat_field, toNat_fraction, unitsOf, binadeOf]
  dsimp only
  split <;> exact ⟨rfl, rfl⟩

theorem unpack_of_eq {b : BitVec Format.binary64.numBits} (h : unpackExponent b = -1#_) :
    UnpackedFloat.unpack .binary64 b =
      if unpackMantissa b = 0#_ then .infinity (.ofBitVec (unpackSign b)) else .notANumber := by
  rw [UnpackedFloat.unpack]
  simp only [if_pos h]

/-! ## Packing and unpacking -/

theorem pack_ofUnits (s : Sign) {m : ℕ} {e : ℤ} (h : Fits m e) :
    UnpackedFloat.pack .binary64 (ofUnits s m e) =
      packComponents .binary64 s (if m < 2 ^ 52 then 0#11 else BitVec.ofNat 11 (e + 1075).toNat)
        (BitVec.ofNat 52 m) := by
  have hlt := h.lt
  have hmin := h.min_le
  have hmax := h.le_max
  have hbias : e + (Format.binary64.exponentBias : ℤ) + (Format.binary64.mantissaBitsWithoutImplicit : ℤ) = e + 1075 :=
    Int.add_assoc e 1023 52
  obtain rfl | hpos := Nat.eq_zero_or_pos m
  · rfl
  rw [ofUnits_of_lt s e hpos hlt, UnpackedFloat.pack]
  simp only [hbias]
  by_cases hsub : m < 2 ^ 52
  · have he : e = -1074 := h.full.resolve_right (by omega)
    have hlog : m.log2 < 52 := (Nat.log2_lt hpos.ne').2 hsub
    have hbits : m.log2 + 1 ≠ Format.binary64.mantissaBits := by
      have : Format.binary64.mantissaBits = 53 := rfl
      omega
    rw [he, if_pos hsub, if_neg (by decide), if_neg hbits]
  · have hbits : m.log2 + 1 = Format.binary64.mantissaBits := by
      rw [h.log2 (by omega)]
      rfl
    have hrange : ¬ 2 ^ Format.binary64.exponentBits ≤ (e + 1075).toNat + 1 := by
      have : 2 ^ Format.binary64.exponentBits = 2048 := rfl
      omega
    rw [if_neg hsub, if_neg hrange, if_pos hbits]

theorem unpack_pack {f : UnpackedFloat} (h : Canonical f) :
    UnpackedFloat.unpack .binary64 (UnpackedFloat.pack .binary64 f) = f := by
  cases h with
  | notANumber => rfl
  | infinity s => cases s <;> rfl
  | @ofUnits s m e h =>
    have hlt := h.lt
    have hmin := h.min_le
    have hmax := h.le_max
    have hfull := h.full
    have htoNat : (if m < 2 ^ 52 then 0#11 else BitVec.ofNat 11 (e + 1075).toNat).toNat =
        if m < 2 ^ 52 then 0 else (e + 1075).toNat := by
      split
      · rfl
      · rw [BitVec.toNat_ofNat, Nat.mod_eq_of_lt (by omega)]
    have hne : (if m < 2 ^ 52 then 0#11 else BitVec.ofNat 11 (e + 1075).toNat) ≠ -1#_ := by
      intro heq
      rw [heq] at htoNat
      have hall : (-1#11 : BitVec 11).toNat = 2047 := rfl
      rw [hall] at htoNat
      split at htoNat <;> omega
    rw [pack_ofUnits s h, unpack_of_ne (by rwa [unpackExponent_packComponents]), unpackSign_packComponents,
      Sign.ofBitVec_toBitVec, unitsOf, binadeOf, unpackExponent_packComponents, unpackMantissa_packComponents, htoNat,
      BitVec.toNat_ofNat]
    by_cases hsub : m < 2 ^ 52
    · have he : e = -1074 := hfull.resolve_right (by omega)
      rw [if_pos hsub, if_pos rfl, if_pos rfl, Nat.mod_eq_of_lt hsub, he]
    · have hmod : m % 2 ^ Format.binary64.mantissaBitsWithoutImplicit = m - 2 ^ 52 := by
        change m % 2 ^ 52 = _
        omega
      rw [if_neg hsub, if_neg (by omega), if_neg (by omega), hmod, Nat.add_sub_of_le (by omega),
        show ((e + 1075).toNat : ℤ) - 1075 = e by omega]

/-! ## Floats -/

/-- A double, unpacked. -/
def unpacked (x : Float) : UnpackedFloat := x.toModel.unpack

/-- The double that an unpacked one is packed to. -/
def ofUnpacked (f : UnpackedFloat) : Float := .ofModel (.pack f)

@[simp]
theorem ofUnpacked_unpacked (x : Float) : ofUnpacked (unpacked x) = x := by
  obtain ⟨bits, hvalid⟩ := x
  have hbits := pack_unpack_of_valid hvalid
  simp only [ofUnpacked, unpacked, Float.Model.pack, Float.Model.unpack, hbits]

theorem unpacked_ofUnpacked {f : UnpackedFloat} (h : Canonical f) : unpacked (ofUnpacked f) = f := unpack_pack h

theorem isFinite_unpacked (x : Float) : x.isFinite = (unpacked x).isFinite := rfl

theorem float_mul_eq (x y : Float) : x * y = ofUnpacked (mul .binary64 (unpacked x) (unpacked y)) := rfl

theorem float_div_eq (x y : Float) : x / y = ofUnpacked (div .binary64 (unpacked x) (unpacked y)) := rfl

theorem float_neg_eq (x : Float) : -x = ofUnpacked (unpacked x).neg := rfl

/-- The sign of a double. -/
def signOf (x : Float) : Sign := if isNegative x then .negative else .positive

theorem isNegative_iff (x : Float) : isNegative x = true ↔ x.toBits.toNat / 2 ^ 63 = 1 := by
  rw [isNegative, decide_eq_true_iff, ← UInt64.toNat_inj, UInt64.toNat_shiftRight, Nat.shiftRight_eq_div_pow]
  rfl

theorem signOf_eq (x : Float) : signOf x = .ofBitVec (@unpackSign .binary64 x.toBits.toBitVec) := by
  have hsign : (@unpackSign .binary64 x.toBits.toBitVec).toNat = x.toBits.toNat / 2 ^ 63 :=
    toNat_unpackSign _
  have hlt : x.toBits.toNat < 2 ^ 64 := x.toBits.toNat_lt
  rw [signOf, Sign.ofBitVec]
  by_cases h : isNegative x = true
  · have hone := (isNegative_iff x).1 h
    rw [if_pos h, if_neg]
    intro hzero
    rw [hzero] at hsign
    exact absurd (hsign.trans hone) (by decide)
  · have hone := mt (isNegative_iff x).2 h
    rw [if_neg h, if_pos]
    refine BitVec.eq_of_toNat_eq (hsign.trans ?_)
    change _ = 0
    omega

theorem isFinite_ofUnits (s : Sign) (n : ℕ) (t : ℤ) : (ofUnits s n t).isFinite = true := by
  rw [ofUnits]
  split
  · rfl
  · split <;> rfl

/-- A finite double is a number of units of its binade. -/
theorem unpacked_of_finite {x : Float} (h : x.isFinite = true) :
    Fits (Binary.ofFloat x).mantissa (Binary.ofFloat x).exponent ∧
      unpacked x = ofUnits (signOf x) (Binary.ofFloat x).mantissa (Binary.ofFloat x).exponent := by
  have hunpacked : unpacked x = UnpackedFloat.unpack .binary64 x.toBits.toBitVec := rfl
  have hne : @unpackExponent .binary64 x.toBits.toBitVec ≠ -1#_ := by
    intro heq
    rw [isFinite_unpacked, hunpacked, unpack_of_eq heq] at h
    split at h <;> cases h
  rw [Binary.ofFloat, (ofBits_toBitVec _).1, (ofBits_toBitVec _).2, signOf_eq, hunpacked, unpack_of_ne hne]
  exact ⟨fits_of_ne hne, rfl⟩

/-! ## Results of operations -/

/-- The exact value of a finite double without its sign. -/
def Binary.value (b : Binary) : ℚ := b.mantissa * 2 ^ b.exponent

theorem Binary.value_nonneg (b : Binary) : 0 ≤ b.value := by
  rw [value]
  positivity

theorem rounds_mul_ofUnits (s₁ s₂ : Sign) {m₁ m₂ : ℕ} {e₁ e₂ : ℤ} (h₁ : Fits m₁ e₁) (h₂ : Fits m₂ e₂) :
    Rounds (m₁ * 2 ^ e₁ * (m₂ * 2 ^ e₂)) (s₁ * s₂) (mul .binary64 (ofUnits s₁ m₁ e₁) (ofUnits s₂ m₂ e₂)) := by
  obtain rfl | hpos₁ := Nat.eq_zero_or_pos m₁
  · have hzero : mul .binary64 (.zero s₁) (ofUnits s₂ m₂ e₂) = .zero (s₁ * s₂) := by
      rw [ofUnits]
      split
      · rfl
      · split <;> rfl
    rw [Nat.cast_zero, zero_mul, zero_mul]
    exact hzero ▸ rounds_zero _
  obtain rfl | hpos₂ := Nat.eq_zero_or_pos m₂
  · rw [Nat.cast_zero, zero_mul, mul_zero, ofUnits_of_lt s₁ e₁ hpos₁ h₁.lt]
    exact rounds_zero _
  rw [ofUnits_of_lt s₁ e₁ hpos₁ h₁.lt, ofUnits_of_lt s₂ e₂ hpos₂ h₂.lt]
  refine rounds_mul s₁ s₂ hpos₁ hpos₂ ?_
  -- one factor fills its binade, unless both have the least exponent
  obtain hmin₁ | hfull₁ := h₁.full
  · obtain hmin₂ | hfull₂ := h₂.full
    · left
      omega
    · right
      exact hfull₂.trans (Nat.le_mul_of_pos_left m₂ hpos₁)
  · right
    exact hfull₁.trans (Nat.le_mul_of_pos_right m₁ hpos₂)

/-- A product is the rounding of the exact product. -/
theorem exists_rounds_mul {x y : Float} (hx : x.isFinite = true) (hy : y.isFinite = true) :
    ∃ s f, Rounds ((Binary.ofFloat x).value * (Binary.ofFloat y).value) s f ∧ x * y = ofUnpacked f := by
  obtain ⟨hfitsx, hunitsx⟩ := unpacked_of_finite hx
  obtain ⟨hfitsy, hunitsy⟩ := unpacked_of_finite hy
  refine ⟨_, _, rounds_mul_ofUnits (signOf x) (signOf y) hfitsx hfitsy, ?_⟩
  rw [float_mul_eq, hunitsx, hunitsy]

/-- The middle between the largest double and the power of two after it. -/
def overflowBound : ℚ := 2 ^ 1024 - 2 ^ 970

theorem overflowBound_eq : overflowBound = (2 ^ 53 - 1 / 2) * 2 ^ (971 : ℤ) := by
  have hlarge : (2 : ℚ) ^ 1024 = 2 ^ 53 * 2 ^ 971 := by rw [← pow_add]
  have hhalf : (2 : ℚ) ^ 971 = 2 ^ 970 * 2 := pow_succ _ _
  have hcast : (2 : ℚ) ^ (971 : ℤ) = 2 ^ 971 := zpow_natCast _ 971
  rw [overflowBound, hcast, hlarge, hhalf]
  generalize (2 : ℚ) ^ 970 = unit
  ring

theorem two_pow_le_overflowBound {t : ℤ} (ht : t ≤ 1023) : (2 : ℚ) ^ t ≤ overflowBound := by
  refine (zpow_le_zpow_right₀ one_le_two ht).trans ?_
  rw [overflowBound_eq, show (1023 : ℤ) = 52 + 971 from rfl, zpow_add₀ two_ne_zero]
  exact mul_le_mul_of_nonneg_right (by norm_num) (by positivity)

theorem overflowBound_le_two_pow {t : ℤ} (ht : 1024 ≤ t) : overflowBound ≤ (2 : ℚ) ^ t := by
  refine le_trans ?_ (zpow_le_zpow_right₀ one_le_two ht)
  rw [overflowBound_eq, show (1024 : ℤ) = 53 + 971 from rfl, zpow_add₀ two_ne_zero]
  exact mul_le_mul_of_nonneg_right (by norm_num) (by positivity)

theorem ofUnits_full (s : Sign) (t : ℤ) : ofUnits s (2 ^ 53) t = ofUnits s (2 ^ 52) (t + 1) := by
  simp [ofUnits]

/-- A rounding has a mantissa of a double, and also its exponent unless the number is too large. -/
theorem Rounds.exists_units {x : ℚ} {s : Sign} {f : UnpackedFloat} (h : Rounds x s f) :
    ∃ m e, f = ofUnits s m e ∧ m < 2 ^ 53 ∧ -1074 ≤ e ∧ (e = -1074 ∨ 2 ^ 52 ≤ m) ∧ (e ≤ 971 ↔ x < overflowBound) := by
  obtain ⟨t, n, ht, hn, rfl⟩ := h
  have hpow : (0 : ℚ) < 2 ^ t := by positivity
  have hfull : t = -1074 ∨ 2 ^ 52 ≤ n := by
    refine ht.lower.imp_right fun hlower => RoundsTo.le_of_le (.self (2 ^ 52)) hn ?_
    rw [le_div_iff₀ hpow]
    rw [zpow_add₀ two_ne_zero] at hlower
    push_cast
    norm_num at hlower ⊢
    linarith
  have hsmall : t ≤ 970 → x < overflowBound := fun hle =>
    ht.upper.trans_le (two_pow_le_overflowBound (by omega))
  obtain hlt | rfl := (ht.rounded_le hn).lt_or_eq
  · refine ⟨n, t, rfl, hlt, ht.min_le, hfull, fun hle => ?_, fun hx => ?_⟩
    · obtain hle | rfl := Int.le_iff_lt_or_eq.1 hle
      · exact hsmall (by omega)
      · have hcast : (n : ℚ) + 1 ≤ 2 ^ 53 := by exact_mod_cast hlt
        have hupper := hn.upper
        rw [overflowBound_eq, ← div_lt_iff₀ hpow]
        refine lt_of_le_of_ne (by linarith) fun heq => ?_
        -- the middle belongs to the even neighbour, which is the power of two
        have hodd : (n : ℚ) + 1 = 2 ^ 53 := by linarith
        have hnat : n + 1 = 2 ^ 53 := by exact_mod_cast hodd
        have heven := hn.upper_tie (by linarith)
        omega
    · by_contra hlarge
      have hlower := ht.lower.resolve_left (by omega)
      exact absurd (hx.trans_le (overflowBound_le_two_pow (by omega))) (not_lt.2 hlower)
  · refine ⟨2 ^ 52, t + 1, ofUnits_full s t, by decide, by linarith [ht.min_le], .inr le_rfl, fun hle =>
      hsmall (by omega), fun hx => ?_⟩
    by_contra hlarge
    have hlower := hn.lower
    have hpow' : (2 : ℚ) ^ (971 : ℤ) ≤ 2 ^ t := zpow_le_zpow_right₀ one_le_two (by omega)
    rw [overflowBound_eq] at hx
    rw [le_div_iff₀ hpow] at hlower
    push_cast at hlower
    nlinarith

theorem pack_of_large {s : Sign} {n : ℕ} {t : ℤ} (hn : 0 < n) (ht : 972 ≤ t) :
    UnpackedFloat.pack .binary64 (.finite s n t hn) = UnpackedFloat.pack .binary64 (.infinity s) := by
  have hbias : t + (Format.binary64.exponentBias : ℤ) + (Format.binary64.mantissaBitsWithoutImplicit : ℤ) = t + 1075 :=
    Int.add_assoc t 1023 52
  have hbits : 2 ^ Format.binary64.exponentBits = 2048 := rfl
  simp only [UnpackedFloat.pack, hbias]
  rw [if_pos (by omega)]

/-- What is below the bound rounds to a finite double, anything else to an infinite one. -/
theorem ofUnpacked_of_rounds {x : ℚ} {s : Sign} {f : UnpackedFloat} (h : Rounds x s f) :
    if x < overflowBound then Canonical f ∧ (ofUnpacked f).isFinite = true
    else ofUnpacked f = ofUnpacked (.infinity s) := by
  obtain ⟨m, e, rfl, hlt, hmin, hfull, hmax⟩ := h.exists_units
  split
  · next hx =>
    have hcanonical : Canonical (ofUnits s m e) := .ofUnits s ⟨hlt, hmin, hmax.2 hx, hfull⟩
    exact ⟨hcanonical, by rw [isFinite_unpacked, unpacked_ofUnpacked hcanonical, isFinite_ofUnits]⟩
  · next hx =>
    have hlarge : 972 ≤ e := by
      by_contra hle
      exact hx (hmax.1 (by omega))
    have hpos : 0 < m := Nat.pos_of_ne_zero (by omega)
    rw [ofUnits_of_lt s e hpos hlt, ofUnpacked, ofUnpacked, Float.Model.pack, Float.Model.pack]
    simp only [pack_of_large hpos hlarge]

/-- A product is finite as long as the exact product is below the bound. -/
theorem isFinite_mul {x y : Float} (hx : x.isFinite = true) (hy : y.isFinite = true) :
    (x * y).isFinite = true ↔ (Binary.ofFloat x).value * (Binary.ofFloat y).value < overflowBound := by
  obtain ⟨s, f, hf, hmul⟩ := exists_rounds_mul hx hy
  have hresult := ofUnpacked_of_rounds hf
  rw [hmul]
  split at hresult
  · next hlt => exact iff_of_true hresult.2 hlt
  · next hlt =>
    rw [hresult]
    exact iff_of_false (by cases s <;> decide) hlt

theorem value_lt_overflowBound {x : Float} (hx : x.isFinite = true) : (Binary.ofFloat x).value < overflowBound := by
  have hfits := (unpacked_of_finite hx).1
  have hunits : ((Binary.ofFloat x).mantissa : ℚ) + 1 ≤ 2 ^ 53 := by exact_mod_cast hfits.lt
  have hpow : (2 : ℚ) ^ (Binary.ofFloat x).exponent ≤ 2 ^ (971 : ℤ) := zpow_le_zpow_right₀ one_le_two hfits.le_max
  have hpos : (0 : ℚ) < 2 ^ (Binary.ofFloat x).exponent := by positivity
  rw [overflowBound_eq, Binary.value]
  exact mul_lt_mul (by linarith) hpow hpos (by norm_num)

/-! ## Order -/

theorem unpacked_zero : unpacked 0 = .zero .positive := rfl

theorem float_lt_iff (x y : Float) : x < y ↔ (unpacked x).compare (unpacked y) = some .lt := by
  have hlt : x < y ↔ (unpacked x).lt (unpacked y) = true := decide_eq_true_iff (p := x.toModel < y.toModel)
  rw [hlt, UnpackedFloat.lt]
  cases (unpacked x).compare (unpacked y) with
  | none => decide
  | some o => cases o <;> decide

theorem float_le_iff (x y : Float) : x ≤ y ↔ ∃ o, (unpacked x).compare (unpacked y) = some o ∧ o.isLE = true := by
  have hle : x ≤ y ↔ (unpacked x).le (unpacked y) = true := decide_eq_true_iff (p := x.toModel ≤ y.toModel)
  rw [hle, UnpackedFloat.le, Option.any_eq_true]

theorem float_le_of_lt {x y : Float} (h : x < y) : x ≤ y :=
  (float_le_iff x y).2 ⟨.lt, (float_lt_iff x y).1 h, rfl⟩

theorem infinity_compare_ne_lt (f : UnpackedFloat) : (infinity .positive).compare f ≠ some .lt := by
  rcases f with ⟨⟨⟩⟩ | _ | ⟨⟨⟩⟩ | ⟨⟨⟩, _, _, _⟩ <;> rintro ⟨⟩

theorem compare_infinity_ne_lt (f : UnpackedFloat) : f.compare (infinity .negative) ≠ some .lt := by
  rcases f with ⟨⟨⟩⟩ | _ | ⟨⟨⟩⟩ | ⟨⟨⟩, _, _, _⟩ <;> rintro ⟨⟩

/-- A double between others is finite. -/
theorem isFinite_of_lt {x y z : Float} (hxy : x < y) (hyz : y < z) : y.isFinite = true := by
  rw [float_lt_iff] at hxy hyz
  rw [isFinite_unpacked]
  cases hy : unpacked y with
  | notANumber =>
    rw [hy] at hyz
    cases hyz
  | infinity s =>
    rw [hy] at hxy hyz
    cases s with
    | positive => exact absurd hyz (infinity_compare_ne_lt _)
    | negative => exact absurd hxy (compare_infinity_ne_lt _)
  | zero s => rfl
  | finite s m e h => rfl

theorem exists_units_of_pos {x : Float} (hfinite : x.isFinite = true) (hpos : 0 < x) :
    signOf x = .positive ∧ 0 < (Binary.ofFloat x).mantissa := by
  obtain ⟨hfits, hunits⟩ := unpacked_of_finite hfinite
  rw [float_lt_iff, unpacked_zero, hunits] at hpos
  obtain hzero | hmantissa := Nat.eq_zero_or_pos (Binary.ofFloat x).mantissa
  · rw [hzero] at hpos
    cases hpos
  · rw [ofUnits_of_lt _ _ hmantissa hfits.lt] at hpos
    refine ⟨?_, hmantissa⟩
    cases hs : signOf x with
    | positive => rfl
    | negative =>
      rw [hs] at hpos
      cases hpos

/-- The exponents of doubles decide before their mantissas do. -/
theorem Fits.value_lt {m₁ m₂ : ℕ} {e₁ e₂ : ℤ} (h₁ : Fits m₁ e₁) (h₂ : Fits m₂ e₂) (h : e₁ < e₂) :
    (m₁ * 2 ^ e₁ : ℚ) < m₂ * 2 ^ e₂ := by
  have hlt : (m₁ : ℚ) < 2 ^ (53 : ℤ) := by exact_mod_cast h₁.lt
  have hle : (2 : ℚ) ^ (52 : ℤ) ≤ m₂ := by
    exact_mod_cast h₂.full.resolve_left (by linarith [h₁.min_le])
  calc (m₁ * 2 ^ e₁ : ℚ) < 2 ^ (53 : ℤ) * 2 ^ e₁ := mul_lt_mul_of_pos_right hlt (by positivity)
    _ = 2 ^ (53 + e₁) := (zpow_add₀ two_ne_zero _ _).symm
    _ ≤ 2 ^ (52 + e₂) := zpow_le_zpow_right₀ one_le_two (by omega)
    _ = 2 ^ (52 : ℤ) * 2 ^ e₂ := zpow_add₀ two_ne_zero _ _
    _ ≤ m₂ * 2 ^ e₂ := mul_le_mul_of_nonneg_right hle (by positivity)

theorem le_iff_value_le {x y : Float} (hx : x.isFinite = true) (hy : y.isFinite = true) (hxpos : 0 < x)
    (hypos : 0 < y) : x ≤ y ↔ (Binary.ofFloat x).value ≤ (Binary.ofFloat y).value := by
  obtain ⟨hfitsx, hunitsx⟩ := unpacked_of_finite hx
  obtain ⟨hfitsy, hunitsy⟩ := unpacked_of_finite hy
  obtain ⟨hsx, hmx⟩ := exists_units_of_pos hx hxpos
  obtain ⟨hsy, hmy⟩ := exists_units_of_pos hy hypos
  rw [float_le_iff, hunitsx, hunitsy, hsx, hsy, ofUnits_of_lt _ _ hmx hfitsx.lt, ofUnits_of_lt _ _ hmy hfitsy.lt,
    UnpackedFloat.compare, Binary.value, Binary.value]
  simp only [Option.some.injEq, exists_eq_left']
  obtain hlt | heq | hgt := lt_trichotomy (Binary.ofFloat x).exponent (Binary.ofFloat y).exponent
  · rw [compare_lt_iff_lt.2 hlt]
    exact iff_of_true rfl (hfitsx.value_lt hfitsy hlt).le
  · rw [compare_eq_iff_eq.2 heq, heq, mul_le_mul_iff_left₀ (by positivity)]
    simp [Ordering.then, Nat.isLE_compare]
  · rw [compare_gt_iff_gt.2 hgt]
    exact iff_of_false Bool.false_ne_true (not_le.2 (hfitsy.value_lt hfitsx hgt))

end LiveScreen.Decimal
