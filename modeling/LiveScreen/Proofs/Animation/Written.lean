/-
Which numbers animations write. An attribute only lets finite numbers through, so that a
field always holds a finite number in the unit of its attribute (`Fed`), and what an
animation writes is what its fields hold. A change of opacity writes numbers from zero to
one. A move scales its numbers after they were looked at: they are finite as long as the
exact products are below the overflow bound, which all are at densities up to one and at
no other (`made_writes`).
-/
import LiveScreen.Animation.Recipe
import LiveScreen.Proofs.Animation.Configured
import LiveScreen.Proofs.Decimal.Doubles

namespace LiveScreen.Animation

open Decimal

/-- An animation that was made for a display, configured and nested in any way. -/
inductive Made (density : Float) : Animation → Prop
  | new {type : Shape} {a : Animation} (h : type.make density = .ok a) : Made density a
  | configure {a : Animation} (attributes : Attributes) (h : Made density a) : Made density (a.configure attributes).2
  | addChild {a child : Animation} (h : Made density a) (hchild : Made density child) :
    Made density (a.addChild child).2

/-- Each number of an animation is a finite number in the unit of its attribute. -/
def Fed (a : Animation) : Prop :=
  ∀ t ∈ a.attributes, ∀ unit, t.way = .number unit →
    ∃ n : Float, n.isFinite = true ∧ a.field? t.key = some (.number (unit n))

theorem isFinite_of_finite? {v : Value} {n : Float} (h : v.finite? = some n) : n.isFinite = true := by
  cases v with
  | text s =>
    rw [Value.finite?, Option.filter_eq_some_iff] at h
    exact h.2
  | number x =>
    rw [Value.finite?] at h
    split at h
    · next hx => exact Option.some.inj h ▸ hx
    · cases h
  | flag b => cases h

theorem exists_settle_number (key : String) (unit : Float → Float) {n : Float} (hn : n.isFinite = true)
    (given : Option Value) :
    ∃ m : Float, m.isFinite = true ∧
      Attribute.settle ⟨key, .number unit⟩ given (.number (unit n)) = .number (unit m) := by
  cases given with
  | none => exact ⟨n, hn, rfl⟩
  | some v =>
    cases hread : v.finite? with
    | none => exact ⟨n, hn, by simp [Attribute.settle, hread]⟩
    | some m => exact ⟨m, isFinite_of_finite? hread, by simp [Attribute.settle, hread]⟩

/-- Configuring leaves finite numbers: a field keeps its number, or a finite one is read. -/
theorem Fed.configure {a : Animation} (ha : a.Ordered) (h : Fed a) (attributes : Attributes) :
    Fed (a.configure attributes).2 := by
  obtain ⟨a', hrun, hfixed, hfields⟩ := (configures_of_ordered ha).run attributes
  rintro ⟨key, way⟩ ht unit rfl
  rw [hrun] at ht ⊢
  rw [attributes_of_fixed hfixed] at ht
  obtain ⟨n, hn, hfield⟩ := h _ ht unit rfl
  obtain ⟨before, after, hsplit⟩ := List.append_of_mem ht
  obtain ⟨reached, passed⟩ := lookup_settled attributes.getAnyCase? a.fields (hsplit ▸ keys_nodup a)
  rw [← hsplit, ← hfields, ← field?, ← field?, hfield] at reached passed
  by_cases hall : ∀ u ∈ before, u.Valid (attributes.getAnyCase? u.key)
  · obtain ⟨m, hm, hsettle⟩ := exists_settle_number key unit hn (attributes.getAnyCase? key)
    exact ⟨m, hm, by rw [reached hall, Option.map_some, hsettle]⟩
  · exact ⟨n, hn, passed (by simpa using hall)⟩

/-- Nothing moves a point without a size. -/
theorem zero_mul_density {density : Float} (hd : validDensity density = true) : 0 * density = 0 := by
  rw [validDensity, Bool.and_eq_true, decide_eq_true_iff] at hd
  obtain ⟨hfits, hunits⟩ := unpacked_of_finite hd.1
  obtain ⟨hsign, hpos⟩ := exists_units_of_pos hd.1 hd.2
  rw [float_mul_eq, unpacked_zero, hunits, hsign, ofUnits_of_lt _ _ hpos hfits.lt]
  rfl

theorem clampUnit_one : clampUnit 1 = 1 := by decide +kernel

/-- An animation is made with finite numbers. -/
theorem fed_make {density : Float} (hd : validDensity density = true) {type : Shape} {a : Animation}
    (h : type.make density = .ok a) : Fed a := by
  have hzero : Float.isFinite 0 = true := by decide +kernel
  have hone : Float.isFinite 1 = true := by decide +kernel
  cases type with
  | alpha =>
    cases h
    simp [Fed, attributes, field?, fields, List.lookup_cons, Alpha.new]
    exact ⟨1, hone, clampUnit_one.symm⟩
  | rotate =>
    cases h
    simp [Fed, attributes, field?, fields, List.lookup_cons, Rotate.new, hzero, Pair.zero]
  | scale =>
    cases h
    simp [Fed, attributes, field?, fields, List.lookup_cons, Scale.new, hzero, hone, Pair.zero]
  | translate =>
    rw [Shape.make, Translate.new, if_pos hd] at h
    cases h
    simp [Fed, attributes, field?, fields, List.lookup_cons, Pair.zero]
    exact ⟨0, hzero, (zero_mul_density hd).symm⟩
  | frames =>
    cases h
    simp [Fed, attributes]
  | set =>
    cases h
    simp [Fed, attributes]

/-! ## What is written -/

theorem clampUnit_mem (n : Float) : (clampUnit n).isFinite = true ∧ 0 ≤ clampUnit n ∧ clampUnit n ≤ 1 := by
  rw [clampUnit]
  split
  · next hpos =>
    split
    · next hlt => exact ⟨isFinite_of_lt hpos hlt, float_le_of_lt hpos, float_le_of_lt hlt⟩
    · decide +kernel
  · decide +kernel

/-- A number that an animation may write for an attribute of a node. -/
structure MayWrite (density : Float) (key : String) (v : Float) : Prop where
  opacity : key = "alpha" → 0 ≤ v ∧ v ≤ 1
  finite : key ≠ "translation_x" → key ≠ "translation_y" → v.isFinite = true
  scaled : key = "translation_x" ∨ key = "translation_y" → ∃ n : Float, n.isFinite = true ∧ v = n * density

/-- What is known of animations that are made for a display. -/
structure Tidy (density : Float) (a : Animation) : Prop where
  ordered : a.Ordered
  fed : Fed a
  density_eq : ∀ d, a.fixed.2.1 = some d → d = density
  children : ∀ child ∈ a.fixed.2.2, ∀ key v, (key, Value.number v) ∈ child.endState → MayWrite density key v

theorem MayWrite.of_finite {density : Float} {key : String} {v : Float} (halpha : key ≠ "alpha")
    (hx : key ≠ "translation_x") (hy : key ≠ "translation_y") (hv : v.isFinite = true) : MayWrite density key v :=
  ⟨fun h => absurd h halpha, fun _ _ => hv, fun h => absurd h (not_or.2 ⟨hx, hy⟩)⟩

theorem endStates_eq (children : List Animation) : endStates children = children.flatMap endState := by
  induction children with
  | nil => rfl
  | cons a rest ih => rw [endStates, ih, List.flatMap_cons]

theorem Fed.number {a : Animation} (h : Fed a) (key : String) {unit : Float → Float} {v : Float}
    (ht : ⟨key, .number unit⟩ ∈ a.attributes) (hfield : a.field? key = some (.number v)) :
    ∃ n : Float, n.isFinite = true ∧ v = unit n := by
  obtain ⟨n, hn, hn'⟩ := h _ ht unit rfl
  rw [hfield] at hn'
  cases hn'
  exact ⟨n, hn, rfl⟩

/-- A number that is written as it was read. -/
theorem Fed.isFinite {a : Animation} (h : Fed a) (key : String) {v : Float} (ht : ⟨key, .number id⟩ ∈ a.attributes)
    (hfield : a.field? key = some (.number v)) : v.isFinite = true := by
  obtain ⟨n, hn, rfl⟩ := h.number key ht hfield
  exact hn

theorem Tidy.mayWrite {density : Float} {a : Animation} (h : Tidy density a) {key : String} {v : Float}
    (hmem : (key, Value.number v) ∈ a.endState) : MayWrite density key v := by
  have fed := h.fed
  cases a with
  | fade finish => exact h.ordered.elim
  | alpha a =>
    obtain ⟨n, -, hn⟩ : ∃ n : Float, n.isFinite = true ∧ a.finish = clampUnit n :=
      fed.number "toalpha" (by simp [attributes]) rfl
    simp only [endState, List.mem_singleton, Prod.mk.injEq, Value.number.injEq] at hmem
    obtain ⟨rfl, rfl⟩ := hmem
    rw [hn]
    exact ⟨fun _ => (clampUnit_mem n).2, fun _ _ => (clampUnit_mem n).1, fun h => absurd h (by decide)⟩
  | rotate r =>
    have hfinish : r.finish.isFinite = true := fed.isFinite "todegrees" (by simp [attributes]) rfl
    have hx : r.pivot.x.isFinite = true := fed.isFinite "pivotx" (by simp [attributes]) rfl
    have hy : r.pivot.y.isFinite = true := fed.isFinite "pivoty" (by simp [attributes]) rfl
    simp only [endState, List.mem_cons, List.not_mem_nil, or_false, Prod.mk.injEq, Value.number.injEq] at hmem
    obtain ⟨rfl, rfl⟩ | ⟨rfl, rfl⟩ | ⟨rfl, rfl⟩ := hmem
    all_goals exact .of_finite (by decide) (by decide) (by decide) ‹_›
  | scale s =>
    have hfinishx : s.finish.x.isFinite = true := fed.isFinite "toxscale" (by simp [attributes]) rfl
    have hfinishy : s.finish.y.isFinite = true := fed.isFinite "toyscale" (by simp [attributes]) rfl
    have hx : s.pivot.x.isFinite = true := fed.isFinite "pivotx" (by simp [attributes]) rfl
    have hy : s.pivot.y.isFinite = true := fed.isFinite "pivoty" (by simp [attributes]) rfl
    simp only [endState, List.mem_cons, List.not_mem_nil, or_false, Prod.mk.injEq, Value.number.injEq] at hmem
    obtain ⟨rfl, rfl⟩ | ⟨rfl, rfl⟩ | ⟨rfl, rfl⟩ | ⟨rfl, rfl⟩ := hmem
    all_goals exact .of_finite (by decide) (by decide) (by decide) ‹_›
  | translate t =>
    have hdensity : t.density = density := h.density_eq _ rfl
    have hx : ∃ n : Float, n.isFinite = true ∧ t.finish.x = n * t.density :=
      fed.number "toxdelta" (by simp [attributes]) rfl
    have hy : ∃ n : Float, n.isFinite = true ∧ t.finish.y = n * t.density :=
      fed.number "toydelta" (by simp [attributes]) rfl
    rw [hdensity] at hx hy
    simp only [endState, List.mem_cons, List.not_mem_nil, or_false, Prod.mk.injEq, Value.number.injEq] at hmem
    obtain ⟨rfl, rfl⟩ | ⟨rfl, rfl⟩ := hmem
    · exact ⟨fun h => absurd h (by decide), fun h => absurd rfl h, fun _ => hx⟩
    · exact ⟨fun h => absurd h (by decide), fun _ h => absurd rfl h, fun _ => hy⟩
  | frames f =>
    exfalso
    rw [endState] at hmem
    split at hmem <;> simp at hmem
  | set children declared =>
    rw [endState, endStates_eq] at hmem
    obtain ⟨child, hchild, hmem⟩ := List.mem_flatMap.1 hmem
    exact h.children child hchild key v hmem

/-! ## Animations that are made -/

theorem Tidy.configure {density : Float} {a : Animation} (h : Tidy density a) (attributes : Attributes) :
    Tidy density (a.configure attributes).2 := by
  obtain ⟨a', hrun, hfixed, -⟩ := (configures_of_ordered h.ordered).run attributes
  have hsame : (a.configure attributes).2.fixed = a.fixed := by rw [hrun]; exact hfixed
  exact ⟨ordered_of_fixed h.ordered hsame.symm, h.fed.configure h.ordered attributes, hsame ▸ h.density_eq,
    hsame ▸ h.children⟩

theorem Tidy.addChild {density : Float} {a child : Animation} (h : Tidy density a) (hchild : Tidy density child) :
    Tidy density (a.addChild child).2 := by
  cases a with
  | set children declared =>
    refine ⟨trivial, h.fed, h.density_eq, fun c hc key v hmem => ?_⟩
    obtain hc | hc := List.mem_append.1 hc
    · exact h.children c hc key v hmem
    · rw [List.mem_singleton.1 hc] at hmem
      exact hchild.mayWrite hmem
  | _ => exact h

theorem tidy_make {density : Float} (hd : validDensity density = true) {type : Shape} {a : Animation}
    (h : type.make density = .ok a) : Tidy density a := by
  have fed := fed_make hd h
  cases type with
  | translate =>
    rw [Shape.make, Translate.new, if_pos hd] at h
    cases h
    exact ⟨trivial, fed, by simp [fixed], by simp [fixed]⟩
  | _ =>
    cases h
    exact ⟨trivial, fed, by simp [fixed], by simp [fixed]⟩

theorem Made.tidy {density : Float} (hd : validDensity density = true) {a : Animation} (h : Made density a) :
    Tidy density a := by
  induction h with
  | new h => exact tidy_make hd h
  | configure attributes _ ih => exact ih.configure attributes
  | addChild _ _ ih ihchild => exact ih.addChild ihchild

/-! ## Where the numbers are finite -/

/-- The largest double. -/
def largest : Float := Float.ofBits 0x7FEFFFFFFFFFFFFF

theorem isFinite_largest : largest.isFinite = true := by decide +kernel

theorem value_largest : (Binary.ofFloat largest).value = (2 ^ 53 - 1) * 2 ^ (971 : ℤ) := by
  have hbinary : Binary.ofFloat largest = ⟨2 ^ 53 - 1, 971, false⟩ := by decide +kernel
  rw [hbinary, Binary.value]
  norm_num

theorem value_one : (Binary.ofFloat 1).value = 1 := by
  have hbinary : Binary.ofFloat 1 = ⟨2 ^ 52, -52, true⟩ := by decide +kernel
  rw [hbinary, Binary.value]
  norm_num

/-- The double after one is a 52nd part of a binade away. -/
theorem le_value_of_not_le_one {x : Float} (hx : x.isFinite = true) (hpos : 0 < x) (h : ¬ x ≤ 1) :
    1 + 2 ^ (-52 : ℤ) ≤ (Binary.ofFloat x).value := by
  have hfits := (unpacked_of_finite hx).1
  have hone : Fits (2 ^ 52) (-52) := ⟨by decide, by decide, by decide, .inr le_rfl⟩
  rw [le_iff_value_le hx (by decide +kernel) hpos (by decide +kernel), value_one, not_le, Binary.value] at h
  rw [Binary.value]
  obtain hlt | heq | hgt := lt_trichotomy (Binary.ofFloat x).exponent (-52)
  · have := hfits.value_lt hone hlt
    norm_num at this
    linarith
  · have hinv : (2 : ℚ) ^ (-52 : ℤ) * 2 ^ 52 = 1 := by norm_num
    have hpow : (0 : ℚ) < 2 ^ (-52 : ℤ) := by positivity
    rw [heq] at h ⊢
    have hunits : (2 : ℚ) ^ 52 < (Binary.ofFloat x).mantissa := by
      by_contra hle
      linarith [mul_le_mul_of_nonneg_right (not_lt.1 hle) hpow.le]
    have hstep : (2 : ℚ) ^ 52 + 1 ≤ (Binary.ofFloat x).mantissa := by exact_mod_cast hunits
    linarith [mul_le_mul_of_nonneg_right hstep hpow.le]
  · have hnext : Fits (2 ^ 53 - 1) (-52) := ⟨by decide, by decide, by decide, .inr (by decide)⟩
    have := hnext.value_lt hfits hgt
    norm_num at this ⊢
    linarith

/-- Up to a density of one a move writes finite numbers. -/
theorem isFinite_mul_of_le_one {density n : Float} (hd : validDensity density = true) (h : density ≤ 1)
    (hn : n.isFinite = true) : (n * density).isFinite = true := by
  rw [validDensity, Bool.and_eq_true, decide_eq_true_iff] at hd
  rw [le_iff_value_le hd.1 (by decide +kernel) hd.2 (by decide +kernel), value_one] at h
  rw [isFinite_mul hn hd.1]
  exact (mul_le_of_le_one_right (Binary.value_nonneg _) h).trans_lt (value_lt_overflowBound hn)

/-- At any other the largest double is too large. -/
theorem not_isFinite_largest_mul {density : Float} (hd : validDensity density = true) (h : ¬ density ≤ 1) :
    (largest * density).isFinite = false := by
  rw [validDensity, Bool.and_eq_true, decide_eq_true_iff] at hd
  have hvalue := le_value_of_not_le_one hd.1 hd.2 h
  rw [Bool.eq_false_iff, ne_eq, isFinite_mul isFinite_largest hd.1, value_largest, overflowBound_eq, not_lt]
  have hunits : (2 : ℚ) ^ 53 - 1 / 2 ≤ (2 ^ 53 - 1) * (1 + 2 ^ (-52 : ℤ)) := by norm_num
  calc ((2 : ℚ) ^ 53 - 1 / 2) * 2 ^ (971 : ℤ) ≤ (2 ^ 53 - 1) * (1 + 2 ^ (-52 : ℤ)) * 2 ^ (971 : ℤ) :=
        mul_le_mul_of_nonneg_right hunits (by positivity)
    _ = (2 ^ 53 - 1) * 2 ^ (971 : ℤ) * (1 + 2 ^ (-52 : ℤ)) := by ring
    _ ≤ (2 ^ 53 - 1) * 2 ^ (971 : ℤ) * (Binary.ofFloat density).value :=
        mul_le_mul_of_nonneg_left hvalue (mul_nonneg (by norm_num) (by positivity))

/-- The attributes of a move to the largest double. -/
def farAway : Attributes := .ofList [("toXDelta", .number largest)]

theorem configure_farAway (density : Float) :
    (translate ⟨density, .zero, .zero, .zero⟩).configure farAway =
      (.ok (), translate ⟨density, .zero, ⟨largest * density, 0⟩, .zero⟩) := by
  have hdelta : farAway.getAnyCase? "toxdelta" = some (.number largest) := by decide +kernel
  have hothers : farAway.getAnyCase? "fromxdelta" = none ∧ farAway.getAnyCase? "fromydelta" = none ∧
      farAway.getAnyCase? "toydelta" = none ∧ farAway.getAnyCase? "duration" = none := by decide +kernel
  have hread : (Value.number largest).finite? = some largest := by rw [Value.finite?, if_pos isFinite_largest]
  simp [configure, Reading.run, Translate.readings, Reading.number, Reading.time, Reading.optional, hdelta, hothers,
    hread, Pair.zero]

theorem made_farAway {density : Float} (hd : validDensity density = true) :
    ∃ a, Made density a ∧ ("translation_x", Value.number (largest * density)) ∈ a.endState := by
  have hmake : Shape.translate.make density = .ok (translate ⟨density, .zero, .zero, .zero⟩) := by
    rw [Shape.make, Translate.new, if_pos hd]
    rfl
  refine ⟨_, .configure farAway (.new hmake), ?_⟩
  rw [configure_farAway]
  exact List.mem_cons_self

/-- An attribute of a node keeps its value or gets one that is written. -/
theorem get?_apply (a : Animation) (node : Attributes) (key : String) :
    (a.apply node).get? key = node.get? key ∨ ∃ v, (a.apply node).get? key = some v ∧ (key, v) ∈ a.endState := by
  rw [apply, Table.get?_insertAll]
  cases hfound : a.endState.reverse.find? fun p => p.1 = key with
  | none => exact .inl rfl
  | some p =>
    obtain rfl : p.1 = key := by simpa using List.find?_some hfound
    exact .inr ⟨p.2, rfl, List.mem_reverse.1 (List.mem_of_find?_eq_some hfound)⟩

/-- **What animations write.** A node keeps its attributes but for those that are written. A number that an
animation writes is finite, if it is none of a move, and one that a change of opacity writes is between zero and
one. A move writes the product of a finite number and the density, which is finite exactly if the exact product is
below the overflow bound. So all numbers that animations for a display can write are finite exactly if its density is at
most one. -/
theorem made_writes {density : Float} (hd : validDensity density = true) :
    (∀ a, Made density a →
      (∀ node key, (a.apply node).get? key = node.get? key ∨
        ∃ v, (a.apply node).get? key = some v ∧ (key, v) ∈ a.endState) ∧
      ∀ key v, (key, Value.number v) ∈ a.endState →
        (key = "alpha" → 0 ≤ v ∧ v ≤ 1) ∧
        (key ≠ "translation_x" → key ≠ "translation_y" → v.isFinite = true) ∧
        (key = "translation_x" ∨ key = "translation_y" → ∃ n : Float, n.isFinite = true ∧ v = n * density ∧
          (v.isFinite = true ↔ (Binary.ofFloat n).value * (Binary.ofFloat density).value < overflowBound))) ∧
    ((∀ a, Made density a → ∀ key v, (key, Value.number v) ∈ a.endState → v.isFinite = true) ↔ density ≤ 1) := by
  have hfinite : density.isFinite = true := (Bool.and_eq_true_iff.1 hd).1
  refine ⟨fun a ha => ⟨a.get?_apply, fun key v hmem => ?_⟩, fun hall => ?_, fun hle a ha key v hmem => ?_⟩
  · have hv := (ha.tidy hd).mayWrite hmem
    refine ⟨hv.opacity, hv.finite, fun hkey => ?_⟩
    obtain ⟨n, hn, rfl⟩ := hv.scaled hkey
    exact ⟨n, hn, rfl, isFinite_mul hn hfinite⟩
  · by_contra hle
    obtain ⟨a, ha, hmem⟩ := made_farAway hd
    exact Bool.noConfusion ((not_isFinite_largest_mul hd hle).symm.trans (hall a ha _ _ hmem))
  · have hv := (ha.tidy hd).mayWrite hmem
    by_cases hkey : key = "translation_x" ∨ key = "translation_y"
    · obtain ⟨n, hn, rfl⟩ := hv.scaled hkey
      exact isFinite_mul_of_le_one hd hle hn
    · rw [not_or] at hkey
      exact hv.finite hkey.1 hkey.2

/-- At the density of one nothing that animations write leaves the doubles. -/
theorem made_writes_at_one : validDensity 1 = true ∧
    ∀ a, Made 1 a → ∀ key v, (key, Value.number v) ∈ a.endState → v.isFinite = true := by
  have hd : validDensity 1 = true := by decide +kernel
  exact ⟨hd, (made_writes hd).2.2 (by decide +kernel)⟩

/-- At twice the density a move to the largest double leaves the doubles. -/
theorem farAway_infinite : validDensity 2 = true ∧
    Made 2 ((translate ⟨2, .zero, .zero, .zero⟩).configure farAway).2 ∧
    ((translate ⟨2, .zero, .zero, .zero⟩).configure farAway).1 = .ok () ∧
    ("translation_x", Value.number (largest * 2)) ∈
      ((translate ⟨2, .zero, .zero, .zero⟩).configure farAway).2.endState ∧
    (largest * 2).isFinite = false := by
  have hd : validDensity 2 = true := by decide +kernel
  have hmake : Shape.translate.make 2 = .ok (translate ⟨2, .zero, .zero, .zero⟩) := by
    rw [Shape.make, Translate.new, if_pos hd]
    rfl
  refine ⟨hd, .configure farAway (.new hmake), ?_, ?_, by decide +kernel⟩
  · rw [configure_farAway]
  · rw [configure_farAway]
    exact List.mem_cons_self

end LiveScreen.Animation
