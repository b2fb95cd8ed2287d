/-
Normal texts. A text that was trimmed and lowered stays as it is when that is done
again (`normalize_normalize`). It rests on three facts about the table of lower-case
forms: no form has a lower-case form of its own, none is a capital sigma, so that the
letters around it no longer matter, and none is white space, so that lowering leaves the
ends of a text as they are. What trimming leaves of a text does not depend on the white
space around it (`trim_append`).
-/
import Mathlib.Data.List.DropRight
import LiveScreen.Registry
import LiveScreen.Proofs.Text.Lower

namespace LiveScreen

namespace Text

/-! ## Trimming -/

/-- Whether a text neither begins nor ends with white space. -/
def IsTrimmed (s : List Char) : Prop := (∀ c ∈ s.head?, isSpace c = false) ∧ ∀ c ∈ s.getLast?, isSpace c = false

theorem head?_trimStart (s : List Char) : ∀ c ∈ (trimStart s).head?, isSpace c = false := by
  intro c hc
  have hnot := List.head?_dropWhile_not isSpace s
  rw [trimStart] at hc
  rw [hc] at hnot
  simpa using hnot

theorem isTrimmed_trim (s : List Char) : IsTrimmed (trim s) := by
  constructor
  · intro c hc
    obtain ⟨t, ht⟩ : trim s <+: trimStart s := List.rdropWhile_prefix isSpace (trimStart s)
    refine head?_trimStart s c ?_
    rw [← ht, List.head?_append, hc]
    rfl
  · intro c hc
    rw [trim, trimEnd, List.getLast?_reverse] at hc
    exact head?_trimStart (trimStart s).reverse c hc

theorem trimStart_of_head? {s : List Char} (h : ∀ c ∈ s.head?, isSpace c = false) : trimStart s = s := by
  cases s with
  | nil => rfl
  | cons c s => rw [trimStart, List.dropWhile_cons_of_neg (by simp [h c rfl])]

theorem trim_of_isTrimmed {s : List Char} (h : IsTrimmed s) : trim s = s := by
  have hend : trimStart s.reverse = s.reverse := trimStart_of_head? (by simpa using h.2)
  rw [trim, trimStart_of_head? h.1, trimEnd, ← trimStart, hend, List.reverse_reverse]

theorem isTrimmed_iff {s : List Char} : IsTrimmed s ↔ trim s = s := ⟨trim_of_isTrimmed, fun h => h ▸ isTrimmed_trim s⟩

instance (s : List Char) : Decidable (IsTrimmed s) := decidable_of_iff (trim s = s) isTrimmed_iff.symm

/-- Whether a text is nothing but white space. -/
def IsBlank (s : List Char) : Prop := ∀ c ∈ s, isSpace c = true

instance (s : List Char) : Decidable (IsBlank s) := decidable_of_iff (s.all isSpace = true) List.all_eq_true

theorem IsBlank.append {s t : List Char} (hs : IsBlank s) (ht : IsBlank t) : IsBlank (s ++ t) :=
  List.forall_mem_append.2 ⟨hs, ht⟩

/-- A text is what trimming leaves of it with white space around. -/
theorem exists_padding (s : List Char) :
    ∃ before after, IsBlank before ∧ IsBlank after ∧ s = before ++ trim s ++ after := by
  refine ⟨s.takeWhile isSpace, (trimStart s).rtakeWhile isSpace, fun c hc => List.mem_takeWhile_imp hc,
    fun c hc => List.mem_rtakeWhile_imp hc, ?_⟩
  have hend : trim s ++ (trimStart s).rtakeWhile isSpace = trimStart s := List.rdropWhile_append_rtakeWhile
  rw [List.append_assoc, hend]
  exact List.takeWhile_append_dropWhile.symm

theorem trimStart_append {before : List Char} (h : IsBlank before) (s : List Char) :
    trimStart (before ++ s) = trimStart s := List.dropWhile_append_of_pos h

theorem trimEnd_append {after : List Char} (h : IsBlank after) (s : List Char) : trimEnd (s ++ after) = trimEnd s := by
  have hafter : IsBlank after.reverse := fun c hc => h c (List.mem_reverse.1 hc)
  rw [trimEnd, List.reverse_append, List.dropWhile_append_of_pos hafter, ← trimEnd]

/-- Trimming finds the text between the white space. -/
theorem trim_padded {before s after : List Char} (hbefore : IsBlank before) (hafter : IsBlank after)
    (hs : IsTrimmed s) : trim (before ++ s ++ after) = s := by
  rw [List.append_assoc, trim, trimStart_append hbefore]
  cases s with
  | nil =>
    have hnone : trimStart after = [] := List.dropWhile_eq_nil_iff.2 hafter
    rw [List.nil_append, hnone]
    rfl
  | cons c s =>
    have hstart : trimStart (c :: s ++ after) = c :: s ++ after := trimStart_of_head? hs.1
    rw [hstart, trimEnd_append hafter]
    nth_rewrite 1 [← trimStart_of_head? hs.1]
    exact trim_of_isTrimmed hs

/-- White space around a text makes no difference to what trimming leaves of it. -/
theorem trim_append {before after : List Char} (hbefore : IsBlank before) (hafter : IsBlank after) (s : List Char) :
    trim (before ++ s ++ after) = trim s := by
  obtain ⟨before', after', hbefore', hafter', hs⟩ := exists_padding s
  calc trim (before ++ s ++ after)
    _ = trim (before ++ (before' ++ trim s ++ after') ++ after) := by rw [← hs]
    _ = trim ((before ++ before') ++ trim s ++ (after' ++ after)) := by simp only [List.append_assoc]
    _ = trim s := trim_padded (hbefore.append hbefore') (hafter'.append hafter) (isTrimmed_trim s)

theorem trim_eq_nil {s : List Char} : trim s = [] ↔ IsBlank s := by
  constructor
  · intro h
    obtain ⟨before, after, hbefore, hafter, hs⟩ := exists_padding s
    rw [hs, h, List.append_nil]
    exact hbefore.append hafter
  · intro h
    have hpadded : trim (s ++ [] ++ []) = trim [] := trim_append h (List.forall_mem_nil _) []
    rwa [List.append_nil, List.append_nil] at hpadded

theorem isSpace_asciiLower (c : Char) : isSpace (asciiLower c) = isSpace c := by
  have hspaces : (spaceRanges.filter fun r => r.1 < 128) = [(0x09, 0x0D), (0x20, 0x20)] := by decide
  exact inRanges_asciiLower hspaces (by decide) c

theorem trimStart_map_asciiLower (s : List Char) : trimStart (s.map asciiLower) = (trimStart s).map asciiLower := by
  have hspace : isSpace ∘ asciiLower = isSpace := funext isSpace_asciiLower
  rw [trimStart, List.dropWhile_map, hspace, trimStart]

theorem trimEnd_map_asciiLower (s : List Char) : trimEnd (s.map asciiLower) = (trimEnd s).map asciiLower := by
  rw [trimEnd, ← List.map_reverse, ← trimStart, trimStart_map_asciiLower, ← List.map_reverse, trimStart, ← trimEnd]

/-- White space has no case, so that it does not matter which is done first. -/
theorem trim_map_asciiLower (s : List Char) : trim (s.map asciiLower) = (trim s).map asciiLower := by
  rw [trim, trimStart_map_asciiLower, trimEnd_map_asciiLower, trim]

/-! ## The table -/

/-- Whether a run holds a code point. -/
def Holds (r : Nat × Nat × Nat × Nat) (n : Nat) : Prop := r.1 ≤ n ∧ n ≤ r.2.1 ∧ (n - r.1) % r.2.2.1 = 0

instance (r : Nat × Nat × Nat × Nat) (n : Nat) : Decidable (Holds r n) := inferInstanceAs (Decidable (_ ∧ _))

theorem lowerIn_of_holds {r : Nat × Nat × Nat × Nat} {n : Nat} (h : Holds r n) (runs : List (Nat × Nat × Nat × Nat)) :
    lowerIn (r :: runs) n = r.2.2.2 + (n - r.1) := if_pos h

theorem lowerIn_of_not_holds {r : Nat × Nat × Nat × Nat} {n : Nat} (h : ¬ Holds r n)
    (runs : List (Nat × Nat × Nat × Nat)) : lowerIn (r :: runs) n = lowerIn runs n := if_neg h

/-- What no run holds is its own image, and anything else has its image in a run that holds it. -/
theorem lowerIn_spec (n : Nat) : ∀ runs : List (Nat × Nat × Nat × Nat),
    ((∀ r ∈ runs, ¬ Holds r n) ∧ lowerIn runs n = n) ∨
      ∃ r ∈ runs, Holds r n ∧ lowerIn runs n = r.2.2.2 + (n - r.1)
  | [] => .inl ⟨by simp, rfl⟩
  | r :: runs => by
    by_cases hr : Holds r n
    · exact .inr ⟨r, List.mem_cons_self, hr, lowerIn_of_holds hr runs⟩
    · rw [lowerIn_of_not_holds hr]
      obtain ⟨hnone, hsame⟩ | ⟨r', hr', hholds, himage⟩ := lowerIn_spec n runs
      · exact .inl ⟨List.forall_mem_cons.2 ⟨hr, hnone⟩, hsame⟩
      · exact .inr ⟨r', List.mem_cons_of_mem _ hr', hholds, himage⟩

/-- The images of a run are not held by another: they lie before it, behind it, or between its steps. -/
def apart (r s : Nat × Nat × Nat × Nat) : Bool :=
  r.2.2.2 + (r.2.1 - r.1) < s.1 || s.2.1 < r.2.2.2 ||
    ((r.1 = r.2.1 || r.2.2.1 = 2) && s.2.2.1 = 2 && (r.2.2.2 + s.1) % 2 = 1)

theorem not_holds_of_apart {r s : Nat × Nat × Nat × Nat} (h : apart r s = true) {n : Nat} (hn : Holds r n) :
    ¬ Holds s (r.2.2.2 + (n - r.1)) := by
  obtain ⟨first, last, step, image⟩ := r
  obtain ⟨first', last', step', image'⟩ := s
  simp only [apart, Bool.or_eq_true, Bool.and_eq_true, decide_eq_true_eq] at h
  simp only [Holds] at hn ⊢
  obtain (h | h) | ⟨⟨hstep, rfl⟩, hodd⟩ := h
  · omega
  · omega
  · obtain rfl | rfl := hstep <;> omega

/-- What is written as runs although it has no image in them: white space, and the capital I with a dot. -/
def otherRuns : List (Nat × Nat × Nat × Nat) :=
  (0x130, 0x130, 1, 0x130) :: spaceRanges.map fun r => (r.1, r.2, 1, r.1)

theorem holds_otherRuns_of_space {n : Nat} (h : inRanges spaceRanges n = true) : ∃ s ∈ otherRuns, Holds s n := by
  obtain ⟨r, hr, hn⟩ := List.any_eq_true.1 h
  simp only [Bool.and_eq_true, decide_eq_true_eq] at hn
  exact ⟨(r.1, r.2, 1, r.1), List.mem_cons_of_mem _ (List.mem_map_of_mem hr), hn.1, hn.2, Nat.mod_one _⟩

theorem apart_lowerRuns : (lowerRuns.all fun r => (lowerRuns ++ otherRuns).all fun s => apart r s) = true := by
  decide +kernel

/-- No image in the table has an image of its own, is white space or is the capital I with a dot. -/
theorem not_holds_image {r : Nat × Nat × Nat × Nat} (hr : r ∈ lowerRuns) {n : Nat} (hn : Holds r n) :
    ∀ s ∈ lowerRuns ++ otherRuns, ¬ Holds s (r.2.2.2 + (n - r.1)) :=
  fun s hs => not_holds_of_apart (List.all_eq_true.1 (List.all_eq_true.1 apart_lowerRuns r hr) s hs) hn

/-! ## Lower-case forms -/

/-- Whether a character stays as it is when a text is lowered, whatever stands around it. -/
def IsLow (c : Char) : Prop := c ≠ '\u03A3' ∧ lowerChar c = [c]

theorem lowerChar_of_ne {c : Char} (h : c ≠ '\u0130') : lowerChar c = [Char.ofNat (lowerIn lowerRuns c.toNat)] :=
  if_neg h

theorem lowerChar_of_not_holds {c : Char} (hdot : c ≠ '\u0130') (h : ∀ r ∈ lowerRuns, ¬ Holds r c.toNat) :
    lowerChar c = [c] := by
  obtain ⟨-, hsame⟩ | ⟨r, hr, hholds, -⟩ := lowerIn_spec c.toNat lowerRuns
  · rw [lowerChar_of_ne hdot, hsame, Char.ofNat_toNat]
  · exact absurd hholds (h r hr)

theorem isLow_of_not_holds {d : Char} (h : ∀ s ∈ lowerRuns ++ otherRuns, ¬ Holds s d.toNat) :
    IsLow d ∧ isSpace d = false := by
  have hne : ∀ c : Char, (∃ s ∈ lowerRuns ++ otherRuns, Holds s c.toNat) → d ≠ c := by
    rintro c ⟨s, hs, hholds⟩ rfl
    exact h s hs hholds
  have hdot : d ≠ '\u0130' := hne _ ⟨(0x130, 0x130, 1, 0x130), by decide +kernel, by unfold Holds; decide⟩
  have hsigma : d ≠ '\u03A3' := hne _ ⟨(0x3A3, 0x3AB, 1, 0x3C3), by decide +kernel, by unfold Holds; decide⟩
  refine ⟨⟨hsigma, lowerChar_of_not_holds hdot fun r hr => h r (List.mem_append_left _ hr)⟩, ?_⟩
  by_contra hspace
  obtain ⟨s, hs, hholds⟩ := holds_otherRuns_of_space (Bool.not_eq_false _ ▸ hspace)
  exact h s (List.mem_append_right _ hs) hholds

/-- The characters that lowering writes although they are in no run. -/
theorem isLow_special {d : Char} (hd : d ∈ ['i', '\u0307', '\u03C2', '\u03C3', '\x00']) :
    IsLow d ∧ isSpace d = false := by
  have hall : (['i', '\u0307', '\u03C2', '\u03C3', '\x00'].all fun d =>
      (lowerRuns ++ otherRuns).all fun s => !decide (Holds s d.toNat)) = true := by decide +kernel
  exact isLow_of_not_holds fun s hs => by simpa using List.all_eq_true.1 (List.all_eq_true.1 hall d hd) s hs

/-- What is left of a character in a lowered text: a low character, and white space only if it was that already. -/
structure Leaves (c d : Char) : Prop where
  low : IsLow d
  space : isSpace d = true → isSpace c = true

theorem Leaves.of_no_space {c d : Char} (h : IsLow d ∧ isSpace d = false) : Leaves c d :=
  ⟨h.1, fun hspace => absurd hspace (Bool.eq_false_iff.1 h.2)⟩

theorem leaves_of_mem_lowerChar {c d : Char} (hc : c ≠ '\u03A3') (hd : d ∈ lowerChar c) : Leaves c d := by
  by_cases hdot : c = '\u0130'
  · subst hdot
    have hmem : d ∈ ['i', '\u0307'] := hd
    exact .of_no_space (isLow_special (List.mem_append_left _ hmem))
  · rw [lowerChar_of_ne hdot, List.mem_singleton] at hd
    obtain ⟨hnone, hsame⟩ | ⟨r, hr, hholds, himage⟩ := lowerIn_spec c.toNat lowerRuns
    · rw [hsame, Char.ofNat_toNat] at hd
      subst hd
      exact ⟨⟨hc, lowerChar_of_not_holds hdot hnone⟩, id⟩
    · have hnone := not_holds_image hr hholds
      rw [← himage] at hnone
      by_cases hnul : d = '\x00'
      · subst hnul
        exact .of_no_space (isLow_special (by decide))
      · have hm : d.toNat = lowerIn lowerRuns c.toNat := by
          rw [hd] at hnul ⊢
          exact toNat_ofNat_of_ne hnul
        exact .of_no_space (isLow_of_not_holds (hm ▸ hnone))

/-- What becomes of the first character of a text. -/
theorem exists_form (before : List Char) (c : Char) (s : List Char) :
    ∃ form, form ≠ [] ∧ (∀ d ∈ form, Leaves c d) ∧
      lowerAfter before (c :: s) = form ++ lowerAfter (c :: before) s := by
  by_cases hc : c = '\u03A3'
  · refine ⟨[if casedNext before && !casedNext s then '\u03C2' else '\u03C3'], List.cons_ne_nil _ _, fun d hd => ?_, ?_⟩
    · have hsigma : d = '\u03C2' ∨ d = '\u03C3' := by
        rw [List.mem_singleton] at hd
        split at hd
        · exact .inl hd
        · exact .inr hd
      have hspecial : d ∈ ['i', '\u0307', '\u03C2', '\u03C3', '\x00'] := by
        obtain rfl | rfl := hsigma <;> decide
      exact .of_no_space (isLow_special hspecial)
    · rw [lowerAfter, if_pos hc]
  · refine ⟨lowerChar c, ?_, fun d hd => leaves_of_mem_lowerChar hc hd, ?_⟩
    · rw [lowerChar]
      split <;> exact List.cons_ne_nil _ _
    · rw [lowerAfter, if_neg hc]

/-! ## Lowering -/

theorem isLow_of_mem_lowerAfter : ∀ (s before : List Char), ∀ d ∈ lowerAfter before s, IsLow d
  | [], _, d, hd => absurd hd List.not_mem_nil
  | c :: s, before, d, hd => by
    obtain ⟨form, -, hform, heq⟩ := exists_form before c s
    rw [heq] at hd
    obtain hd | hd := List.mem_append.1 hd
    · exact (hform d hd).low
    · exact isLow_of_mem_lowerAfter s _ d hd

theorem lowerAfter_of_isLow : ∀ {s : List Char} (before : List Char), (∀ c ∈ s, IsLow c) → lowerAfter before s = s
  | [], _, _ => rfl
  | c :: s, before, h => by
    obtain ⟨hc, hs⟩ := List.forall_mem_cons.1 h
    rw [lowerAfter, if_neg hc.1, hc.2, lowerAfter_of_isLow (c :: before) hs]
    rfl

/-- Lowering a second time changes nothing. -/
theorem lower_lower (s : List Char) : lower (lower s) = lower s :=
  lowerAfter_of_isLow [] (isLow_of_mem_lowerAfter s [])

theorem lowerAfter_ne_nil {s : List Char} (h : s ≠ []) (before : List Char) : lowerAfter before s ≠ [] := by
  obtain ⟨c, s, rfl⟩ := List.exists_cons_of_ne_nil h
  obtain ⟨form, hne, -, heq⟩ := exists_form before c s
  rw [heq]
  exact List.append_ne_nil_of_left_ne_nil hne _

theorem space_of_head?_lowerAfter {s : List Char} (before : List Char) :
    ∀ d ∈ (lowerAfter before s).head?, ∃ c ∈ s.head?, isSpace d = true → isSpace c = true := by
  intro d hd
  cases s with
  | nil => cases hd
  | cons c s =>
    obtain ⟨form, hne, hform, heq⟩ := exists_form before c s
    rw [heq, List.head?_append_of_ne_nil _ hne] at hd
    exact ⟨c, rfl, (hform d (List.mem_of_head? hd)).space⟩

theorem space_of_getLast?_lowerAfter : ∀ (s before : List Char),
    ∀ d ∈ (lowerAfter before s).getLast?, ∃ c ∈ s.getLast?, isSpace d = true → isSpace c = true
  | [], _, d, hd => by cases hd
  | c :: s, before, d, hd => by
    obtain ⟨form, hne, hform, heq⟩ := exists_form before c s
    rw [heq] at hd
    by_cases hs : s = []
    · subst hs
      rw [lowerAfter, List.append_nil] at hd
      exact ⟨c, rfl, (hform d (List.mem_of_getLast? hd)).space⟩
    · rw [List.getLast?_append_of_ne_nil _ (lowerAfter_ne_nil hs _)] at hd
      obtain ⟨c', hc', hspace⟩ := space_of_getLast?_lowerAfter s _ d hd
      exact ⟨c', by rw [List.getLast?_cons, Option.mem_def.1 hc']; rfl, hspace⟩

/-- Lowering leaves no white space at the ends of a text where there was none. -/
theorem isTrimmed_lower {s : List Char} (h : IsTrimmed s) : IsTrimmed (lower s) := by
  constructor
  · intro d hd
    obtain ⟨c, hc, hspace⟩ := space_of_head?_lowerAfter [] d hd
    exact Bool.eq_false_iff.2 fun hd => Bool.eq_false_iff.1 (h.1 c hc) (hspace hd)
  · intro d hd
    obtain ⟨c, hc, hspace⟩ := space_of_getLast?_lowerAfter s [] d hd
    exact Bool.eq_false_iff.2 fun hd => Bool.eq_false_iff.1 (h.2 c hc) (hspace hd)

end Text

theorem normalize_eq_iff {key s : String} : normalize key = s ↔ Text.lower (Text.trim key.toList) = s.toList := by
  rw [normalize, ← String.toList_inj, String.toList_ofList]

/-- A normal key is its own normal form. -/
theorem normalize_normalize (key : String) : normalize (normalize key) = normalize key := by
  rw [normalize, normalize, String.toList_ofList,
    Text.trim_of_isTrimmed (Text.isTrimmed_lower (Text.isTrimmed_trim _)), Text.lower_lower]

end LiveScreen
