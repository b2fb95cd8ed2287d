/-
Lower-casing and ASCII. On ASCII text it is the lower-casing of the 26 capitals, and the
case of these letters makes no difference to the lower-case form of any text, also where they
stand next to a capital sigma (`lower_map_asciiLower`).
Beyond ASCII two letters come down to it: the capital I with a dot, which leaves a
combining mark behind, and the Kelvin sign, which becomes `k`. So a text whose
lower-case form is made of the other ASCII letters differs from it in the case of
ASCII letters only.
-/
import Mathlib.Data.Bool.AllAny
import LiveScreen.Text.Lower

namespace LiveScreen.Text

/-! ## Text in ASCII -/

/-- A character goes to the image of a run that holds it, or stays. -/
theorem lowerIn_cases (n : Nat) : ∀ runs : List (Nat × Nat × Nat × Nat),
    lowerIn runs n = n ∨
      ∃ r ∈ runs, r.1 ≤ n ∧ n ≤ r.2.1 ∧ lowerIn runs n = r.2.2.2 + (n - r.1)
  | [] => .inl rfl
  | (first, last, step, image) :: runs => by
    by_cases h : first ≤ n ∧ n ≤ last ∧ (n - first) % step = 0
    · refine .inr ⟨_, List.mem_cons_self, h.1, h.2.1, ?_⟩
      rw [lowerIn, if_pos h]
    · rw [lowerIn, if_neg h]
      obtain hn | ⟨r, hr, hrest⟩ := lowerIn_cases n runs
      · exact .inl hn
      · exact .inr ⟨r, List.mem_cons_of_mem _ hr, hrest⟩

/-- In ASCII only the capitals have a lower-case form. -/
theorem lowerIn_of_ascii {n : Nat} (h : n < 128) :
    lowerIn lowerRuns n = if 'A'.toNat ≤ n ∧ n ≤ 'Z'.toNat then n + 32 else n := by
  have hruns : ∀ r ∈ lowerRuns, r = (0x41, 0x5A, 1, 0x61) ∨ 128 ≤ r.1 := by decide +kernel
  split
  · rename_i hn
    rw [lowerRuns, lowerIn, if_pos ⟨hn.1, hn.2, Nat.mod_one _⟩]
    have : 0x41 ≤ n := hn.1
    omega
  · rename_i hn
    obtain hsame | ⟨r, hr, hfirst, hlast, -⟩ := lowerIn_cases n lowerRuns
    · exact hsame
    · obtain rfl | hbig := hruns r hr
      · exact absurd ⟨hfirst, hlast⟩ hn
      · omega

theorem lowerChar_of_ascii {c : Char} (h : c.toNat < 128) : lowerChar c = [asciiLower c] := by
  have hdot : c ≠ '\u0130' := by
    rintro rfl
    exact absurd h (by decide)
  rw [lowerChar, if_neg hdot, lowerIn_of_ascii h, asciiLower]
  by_cases hc : 'A' ≤ c ∧ c ≤ 'Z'
  · rw [if_pos hc, if_pos ⟨hc.1, hc.2⟩]
  · rw [if_neg hc, if_neg fun h => hc ⟨h.1, h.2⟩, Char.ofNat_toNat]

theorem lowerAfter_of_ascii : ∀ {s : List Char} (before : List Char), (∀ c ∈ s, c.toNat < 128) →
    lowerAfter before s = s.map asciiLower
  | [], _, _ => rfl
  | c :: s, before, h => by
    have hc : c.toNat < 128 := h c (by simp)
    have hsigma : c ≠ '\u03A3' := by
      rintro rfl
      exact absurd hc (by decide)
    rw [lowerAfter, if_neg hsigma, lowerChar_of_ascii hc,
      lowerAfter_of_ascii (c :: before) fun d hd => h d (by simp [hd])]
    rfl

/-- ASCII text is lower-cased letter by letter. -/
theorem lower_of_ascii {s : List Char} (h : ∀ c ∈ s, c.toNat < 128) : lower s = s.map asciiLower :=
  lowerAfter_of_ascii [] h

theorem asciiLower_lt {c : Char} : (asciiLower c).toNat < 128 ↔ c.toNat < 128 := by
  by_cases h : 'A' ≤ c ∧ c ≤ 'Z'
  · have hc : c.toNat < 128 := Nat.lt_of_le_of_lt (show c.toNat ≤ 'Z'.toNat from h.2) (by decide)
    have hall : ∀ n < 128, (asciiLower (Char.ofNat n)).toNat < 128 := by decide
    exact iff_of_true (by simpa using hall c.toNat hc) hc
  · rw [asciiLower, if_neg h]

theorem asciiLower_of_not_ascii {c : Char} (h : ¬ c.toNat < 128) : asciiLower c = c :=
  if_neg fun hletter => h (Nat.lt_of_le_of_lt (show c.toNat ≤ 'Z'.toNat from hletter.2) (by decide))

@[simp] theorem asciiLower_asciiLower (c : Char) : asciiLower (asciiLower c) = asciiLower c := by
  by_cases h : c.toNat < 128
  · have hall : ∀ n < 128, asciiLower (asciiLower (Char.ofNat n)) = asciiLower (Char.ofNat n) := by decide
    simpa using hall c.toNat h
  · rw [asciiLower_of_not_ascii h, asciiLower_of_not_ascii h]

/-! ## The case of ASCII letters -/

/-- Where a code point of ASCII is looked up, the ranges beyond ASCII do not matter. -/
theorem inRanges_filter_ascii (ranges : List (Nat × Nat)) {n : Nat} (h : n < 128) :
    inRanges (ranges.filter fun r => r.1 < 128) n = inRanges ranges n := by
  rw [inRanges, List.any_filter, inRanges]
  congr 1
  funext r
  by_cases hr : r.1 ≤ n
  · rw [decide_eq_true (Nat.lt_of_le_of_lt hr h), Bool.true_and]
  · simp only [decide_eq_false hr, Bool.false_and, Bool.and_false]

/-- A property of characters does not see the case of ASCII letters if its ranges in ASCII do not. -/
theorem inRanges_asciiLower {ranges ascii : List (Nat × Nat)} (hascii : (ranges.filter fun r => r.1 < 128) = ascii)
    (h : ∀ n < 128, inRanges ascii (asciiLower (Char.ofNat n)).toNat = inRanges ascii (Char.ofNat n).toNat) (c : Char) :
    inRanges ranges (asciiLower c).toNat = inRanges ranges c.toNat := by
  by_cases hc : c.toNat < 128
  · rw [← inRanges_filter_ascii ranges hc, ← inRanges_filter_ascii ranges (asciiLower_lt.2 hc), hascii]
    simpa using h c.toNat hc
  · rw [asciiLower_of_not_ascii hc]

theorem isCased_asciiLower (c : Char) : isCased (asciiLower c) = isCased c := by
  have hletters : (casedRanges.filter fun r => r.1 < 128) = [(0x41, 0x5A), (0x61, 0x7A)] := by decide +kernel
  exact inRanges_asciiLower hletters (by decide) c

theorem isCaseIgnorable_asciiLower (c : Char) : isCaseIgnorable (asciiLower c) = isCaseIgnorable c := by
  have hmarks : (caseIgnorableRanges.filter fun r => r.1 < 128) =
      [(0x27, 0x27), (0x2E, 0x2E), (0x3A, 0x3A), (0x5E, 0x5E), (0x60, 0x60)] := by decide +kernel
  exact inRanges_asciiLower hmarks (by decide) c

theorem lowerChar_asciiLower (c : Char) : lowerChar (asciiLower c) = lowerChar c := by
  by_cases hc : c.toNat < 128
  · rw [lowerChar_of_ascii hc, lowerChar_of_ascii (asciiLower_lt.2 hc), asciiLower_asciiLower]
  · rw [asciiLower_of_not_ascii hc]

/-- No letter of ASCII is a capital sigma. -/
theorem asciiLower_eq_sigma {c : Char} : asciiLower c = '\u03A3' ↔ c = '\u03A3' := by
  by_cases hc : c.toNat < 128
  · refine iff_of_false ?_ ?_ <;> rintro h
    · exact absurd (asciiLower_lt.2 hc) (by rw [h]; decide)
    · exact absurd hc (by rw [h]; decide)
  · rw [asciiLower_of_not_ascii hc]

/-- The neighbours of a letter count the same in either case: none is passed over in one case only, and none is a
letter with case in one case only. -/
theorem casedNext_map_asciiLower (s : List Char) : casedNext (s.map asciiLower) = casedNext s := by
  have hskip : isCaseIgnorable ∘ asciiLower = isCaseIgnorable := funext isCaseIgnorable_asciiLower
  rw [casedNext, List.dropWhile_map, hskip, casedNext]
  cases s.dropWhile isCaseIgnorable with
  | nil => rfl
  | cons c _ => exact isCased_asciiLower c

theorem lowerAfter_map_asciiLower : ∀ before s : List Char,
    lowerAfter (before.map asciiLower) (s.map asciiLower) = lowerAfter before s
  | _, [] => rfl
  | before, c :: s => by
    have hrest := lowerAfter_map_asciiLower (c :: before) s
    rw [List.map_cons] at hrest
    rw [List.map_cons, lowerAfter, lowerAfter, hrest, casedNext_map_asciiLower, casedNext_map_asciiLower,
      lowerChar_asciiLower]
    simp only [asciiLower_eq_sigma]

/-- The case of ASCII letters makes no difference to the lower-case form of a text, to that of a capital sigma
among them neither. -/
theorem lower_map_asciiLower (s : List Char) : lower (s.map asciiLower) = lower s :=
  lowerAfter_map_asciiLower [] s

/-! ## What comes down to ASCII -/

/-- Of the characters beyond ASCII only the Kelvin sign has a lower-case form in it. -/
theorem lowerIn_of_not_ascii {n : Nat} (h : 128 ≤ n) : 128 ≤ lowerIn lowerRuns n ∨ lowerIn lowerRuns n = 'k'.toNat := by
  have hruns : ∀ r ∈ lowerRuns, r.2.1 < 128 ∨ 128 ≤ r.2.2.2 ∨ (r.1 = r.2.1 ∧ r.2.2.2 = 'k'.toNat) := by
    decide +kernel
  obtain hn | ⟨r, hr, hfirst, hlast, himage⟩ := lowerIn_cases n lowerRuns
  · omega
  · have := hruns r hr
    omega

/-- Whether a character is one that nothing but ASCII is lowered to: no capital, not the letter that the Kelvin
sign is lowered to, and not the character that stands in where there is none. -/
def IsPlain (c : Char) : Prop := c.toNat < 128 ∧ asciiLower c = c ∧ c ≠ 'k' ∧ c ≠ '\x00'

instance (c : Char) : Decidable (IsPlain c) := inferInstanceAs (Decidable (_ ∧ _))

theorem map_asciiLower_of_plain {t : List Char} (ht : ∀ d ∈ t, IsPlain d) : t.map asciiLower = t := by
  calc t.map asciiLower
    _ = t.map id := List.map_congr_left fun d hd => (ht d hd).2.1
    _ = t := List.map_id t

theorem toNat_ofNat_of_ne {n : Nat} (h : Char.ofNat n ≠ '\x00') : (Char.ofNat n).toNat = n := by
  by_cases hn : n.isValidChar
  · have hchar : Char.ofNat n = Char.ofNatAux n hn := dif_pos hn
    rw [hchar]
    rfl
  · exact absurd (dif_neg hn) h

/-- No capital of ASCII is left. -/
theorem asciiLower_of_mem_lowerChar {c d : Char} (h : d ∈ lowerChar c) : asciiLower d = d := by
  by_cases hc : c.toNat < 128
  · rw [lowerChar_of_ascii hc, List.mem_singleton] at h
    rw [h, asciiLower_asciiLower]
  · rw [lowerChar] at h
    split at h
    · have hdot : ∀ d ∈ ['i', '\u0307'], asciiLower d = d := List.all_iff_forall_prop.1 (by decide)
      exact hdot d h
    · rw [List.mem_singleton] at h
      obtain hbig | heq := lowerIn_of_not_ascii (Nat.le_of_not_lt hc)
      · by_cases hnul : d = '\x00'
        · rw [hnul]
          rfl
        · rw [h] at hnul ⊢
          refine asciiLower_of_not_ascii ?_
          rw [toNat_ofNat_of_ne hnul]
          omega
      · rw [h, heq]
        rfl

theorem asciiLower_of_mem_lowerAfter {d : Char} : ∀ {s before : List Char}, d ∈ lowerAfter before s → asciiLower d = d
  | [], _, h => absurd h List.not_mem_nil
  | c :: s, before, h => by
    rw [lowerAfter, List.mem_append] at h
    obtain h | h := h
    · split at h
      · have hsigma : d = '\u03C2' ∨ d = '\u03C3' := by
          rw [List.mem_singleton] at h
          split at h
          · exact .inl h
          · exact .inr h
        obtain rfl | rfl := hsigma <;> rfl
      · exact asciiLower_of_mem_lowerChar h
    · exact asciiLower_of_mem_lowerAfter h

theorem map_asciiLower_lower (s : List Char) : (lower s).map asciiLower = lower s := by
  calc (lower s).map asciiLower
    _ = (lower s).map id := List.map_congr_left fun _ hd => asciiLower_of_mem_lowerAfter hd
    _ = lower s := List.map_id _

theorem asciiLower_of_lowerChar {c d : Char} (h : lowerChar c = [d]) (hd : IsPlain d) : asciiLower c = d := by
  obtain ⟨hlt, -, hk, hnul⟩ := hd
  by_cases hc : c.toNat < 128
  · rw [lowerChar_of_ascii hc] at h
    exact List.singleton_inj.1 h
  · have hne : c ≠ '\u0130' := by
      rintro rfl
      simp [lowerChar] at h
    rw [lowerChar, if_neg hne, List.singleton_inj] at h
    subst h
    rw [toNat_ofNat_of_ne hnul] at hlt
    obtain hbig | heq := lowerIn_of_not_ascii (Nat.le_of_not_lt hc)
    · omega
    · exact absurd (by rw [heq]; rfl) hk

theorem map_asciiLower_of_lowerAfter : ∀ {s t before : List Char}, lowerAfter before s = t →
    (∀ d ∈ t, IsPlain d) → s.map asciiLower = t
  | [], _, _, h, _ => h
  | c :: s, t, before, h, ht => by
    subst h
    rw [lowerAfter] at ht ⊢
    by_cases hsigma : c = '\u03A3'
    · rw [if_pos hsigma] at ht
      have := ht _ (by simp only [List.singleton_append, List.mem_cons]; exact .inl rfl)
      split at this <;> exact absurd this (by decide)
    · rw [if_neg hsigma] at ht ⊢
      have hrest := map_asciiLower_of_lowerAfter rfl fun d hd => ht d (List.mem_append_right _ hd)
      have hfirst : lowerChar c = [asciiLower c] := by
        obtain ⟨d, hd⟩ : ∃ d, lowerChar c = [d] := by
          rw [lowerChar] at ht ⊢
          split at ht
          · exact absurd (ht '\u0307' (by simp)) (by decide)
          · rename_i hne
            exact ⟨_, if_neg hne⟩
        rw [asciiLower_of_lowerChar hd (ht d (by simp [hd])), hd]
      rw [List.map_cons, hrest, hfirst]
      rfl

/-- A text whose lower-case form is plain differs from it in the case of ASCII letters only. -/
theorem map_asciiLower_of_lower {s t : List Char} (h : lower s = t) (ht : ∀ d ∈ t, IsPlain d) :
    s.map asciiLower = t :=
  map_asciiLower_of_lowerAfter h ht

theorem lower_eq_iff {s t : List Char} (ht : ∀ d ∈ t, IsPlain d) : lower s = t ↔ s.map asciiLower = t := by
  refine ⟨fun h => map_asciiLower_of_lower h ht, ?_⟩
  rintro rfl
  exact lower_of_ascii fun c hc => asciiLower_lt.1 (ht _ (List.mem_map_of_mem hc)).1

end LiveScreen.Text
